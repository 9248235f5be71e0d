import Mathlib.Data.List.Induction
import TestDouble.Proofs.Classified.Placement
import TestDouble.Proofs.Descriptor.Repetition

/-!
# What comes of placing types

Types are placed in the order in which their names occur first, up to the first one that cannot be placed behind those before
it: a sealed extensible type, or an extensible type behind another one (`FirstUnplaceable`). If there is none, each of the
distinct types stands in one part; if there is one, it alone settles the refusal (`placed_or_refused`).
-/

namespace TestDouble

namespace SourceType

/-- The distinct types stand in the order of the list. -/
theorem distinct_sublist (types : List SourceType) : (distinct types).Sublist types := by
  induction types with
  | nil => exact List.Sublist.refl []
  | cons t rest ih => exact (List.filter_sublist.trans ih).cons_cons t

/-! ## The first type that cannot be placed -/

/-- A type cannot be placed behind others: it is extensible, and it is sealed or one of them is extensible too. -/
def Unplaceable (earlier : List SourceType) (t : SourceType) : Prop :=
  t.kind = .extensible ∧ (t.isSealed = true ∨ ∃ base ∈ earlier, base.kind = .extensible)

/-- The first type of a list that cannot be placed behind those before it: each of those can be placed behind the ones before
it. -/
structure FirstUnplaceable (types before : List SourceType) (t : SourceType) : Prop where
  listed : before ++ [t] <+: types
  unplaceable : Unplaceable before t
  placeable : ∀ earlier u, earlier ++ [u] <+: before → ¬Unplaceable earlier u

/-- The refusal of a type that cannot be placed among others: it names the type if that is sealed, and otherwise the first
extensible type and the one that is refused. -/
def RefusedFor (types : List SourceType) (t : SourceType) (refusal : Refusal) : Prop :=
  (t.isSealed = true ∧ refusal = .sealedBase t.name) ∨
    (t.isSealed = false ∧
      ∃ first, types.find? (fun u => u.kind == .extensible) = some first ∧ refusal = .secondBase first.name t.name)

/-- No type is extensible exactly when there is no base among them. -/
theorem bases_eq_nil_iff (types : List SourceType) : bases types = [] ↔ ¬∃ base ∈ types, base.kind = .extensible := by
  simp [bases]

/-- One more type fits to types that fit together exactly when it can be placed behind them. -/
theorem fitTogether_append_singleton_iff (types : List SourceType) (t : SourceType) :
    FitTogether (types ++ [t]) ↔ FitTogether types ∧ ¬Unplaceable types t := by
  rw [fitTogether_append_singleton, bases_eq_nil_iff, Unplaceable]
  simp only [not_and, not_or, Bool.not_eq_true]

/-- Types fit together exactly when each can be placed behind those before it. -/
theorem fitTogether_iff_placeable (types : List SourceType) :
    FitTogether types ↔ ∀ earlier t, earlier ++ [t] <+: types → ¬Unplaceable earlier t := by
  induction types using List.reverseRecOn with
  | nil => exact iff_of_true fitTogether_nil (fun earlier t h => absurd h (by simp))
  | append_singleton types last ih =>
    rw [fitTogether_append_singleton_iff, ih]
    constructor
    · rintro ⟨hearlier, hlast⟩ earlier t hlisted
      rcases List.prefix_concat_iff.mp hlisted with heq | hlisted
      · obtain ⟨rfl, rfl⟩ := List.append_singleton_inj.mp heq
        exact hlast
      · exact hearlier earlier t hlisted
    · intro h
      exact ⟨fun earlier t hlisted => h earlier t (hlisted.trans (List.prefix_append _ _)), h types last List.prefix_rfl⟩

/-- The refusal of a type among the first types is its refusal among all. -/
theorem RefusedFor.append {types : List SourceType} {t : SourceType} {refusal : Refusal} (h : RefusedFor types t refusal)
    (more : List SourceType) : RefusedFor (types ++ more) t refusal := by
  rcases h with hsealed | ⟨hunsealed, first, hfirst, hrefusal⟩
  · exact .inl hsealed
  · exact .inr ⟨hunsealed, first, by rw [List.find?_append, hfirst, Option.some_or], hrefusal⟩

/-- A type is refused for one reason. -/
theorem RefusedFor.unique {types : List SourceType} {t : SourceType} {refusal refusal' : Refusal}
    (h : RefusedFor types t refusal) (h' : RefusedFor types t refusal') : refusal = refusal' := by
  rcases h with ⟨hsealed, rfl⟩ | ⟨hunsealed, first, hfirst, rfl⟩ <;>
    rcases h' with ⟨hsealed', rfl⟩ | ⟨hunsealed', first', hfirst', rfl⟩
  · rfl
  · rw [hsealed] at hunsealed'
    cases hunsealed'
  · rw [hunsealed] at hsealed'
    cases hsealed'
  · rw [hfirst] at hfirst'
    rw [Option.some.inj hfirst']

/-- A type that cannot be placed is refused. -/
theorem Unplaceable.exists_refusal {before : List SourceType} {t : SourceType} (h : Unplaceable before t) :
    ∃ refusal, RefusedFor before t refusal := by
  cases hsealed : t.isSealed with
  | true => exact ⟨_, .inl ⟨hsealed, rfl⟩⟩
  | false =>
    rcases h.2 with hsealed' | ⟨base, hbase, hkind⟩
    · rw [hsealed] at hsealed'
      cases hsealed'
    · obtain ⟨first, hfirst⟩ : ∃ first, before.find? (fun u => u.kind == .extensible) = some first :=
        Option.isSome_iff_exists.mp (List.find?_isSome.mpr ⟨base, hbase, by simp [hkind]⟩)
      exact ⟨_, .inr ⟨hsealed, first, hfirst, rfl⟩⟩

/-- Among types that do not fit together there is a first one that cannot be placed. -/
theorem exists_firstUnplaceable {types : List SourceType} (h : ¬FitTogether types) :
    ∃ before t refusal, FirstUnplaceable types before t ∧ RefusedFor before t refusal := by
  induction types using List.reverseRecOn with
  | nil => exact absurd fitTogether_nil h
  | append_singleton types last ih =>
    by_cases hfit : FitTogether types
    · have hlast : Unplaceable types last := by
        rw [fitTogether_append_singleton_iff] at h
        exact not_not.mp fun hplaceable => h ⟨hfit, hplaceable⟩
      obtain ⟨refusal, hrefusal⟩ := hlast.exists_refusal
      exact ⟨types, last, refusal, ⟨List.prefix_rfl, hlast, (fitTogether_iff_placeable types).mp hfit⟩, hrefusal⟩
    · obtain ⟨before, t, refusal, hfirst, hrefusal⟩ := ih hfit
      exact ⟨before, t, refusal,
        ⟨hfirst.listed.trans (List.prefix_append _ _), hfirst.unplaceable, hfirst.placeable⟩, hrefusal⟩

end SourceType

open SourceType

namespace Classified

/-- The types that are placed: the base, the capabilities and the mixins. -/
def placed (c : Classified) : List SourceType := c.base.toList ++ c.capabilities ++ c.mixins

/-- The types of the three kinds are all types. -/
theorem perm_of_kinds (types : List SourceType) :
    (bases types ++ types.filter (fun t => t.kind == .capability) ++ types.filter (fun t => t.kind == .mixin)).Perm
      types := by
  have hcapabilities : (types.filter (fun t => !(t.kind == .extensible))).filter (fun t => t.kind == .capability) =
      types.filter (fun t => t.kind == .capability) := by
    rw [List.filter_filter]
    refine List.filter_congr fun t _ => ?_
    cases t.kind <;> rfl
  have hmixins : (types.filter (fun t => !(t.kind == .extensible))).filter (fun t => !(t.kind == .capability)) =
      types.filter (fun t => t.kind == .mixin) := by
    rw [List.filter_filter]
    refine List.filter_congr fun t _ => ?_
    cases t.kind <;> rfl
  have hothers := List.filter_append_perm (fun t : SourceType => t.kind == .capability)
    (types.filter (fun t => !(t.kind == .extensible)))
  rw [hcapabilities, hmixins] at hothers
  rw [List.append_assoc]
  exact (hothers.append_left (bases types)).trans (List.filter_append_perm (fun t : SourceType => t.kind == .extensible) types)

/-- Of types with at most one base each stands in exactly one part. -/
theorem placed_parts_perm {types : List SourceType} (hone : (bases types).length ≤ 1) : (parts types).placed.Perm types := by
  have hbase : (parts types).base.toList = bases types := by
    rw [parts]
    cases hbases : bases types with
    | nil => rfl
    | cons base rest =>
      have hrest : rest = [] := by simpa [hbases] using hone
      rw [hrest]
      rfl
  rw [placed, hbase]
  exact perm_of_kinds types

/-- Placing stops at a type that cannot be placed, with its refusal. -/
theorem add_parts_of_unplaceable {before : List SourceType} {t : SourceType} {refusal : Refusal}
    (hkind : t.kind = .extensible) (hrefusal : RefusedFor before t refusal) :
    (parts before).add t = .error refusal := by
  rcases hrefusal with ⟨hsealed, rfl⟩ | ⟨hunsealed, first, hfirst, rfl⟩
  · simp [add, hkind, hsealed]
  · have hbase : (parts before).base = some first := by rw [parts, bases, List.head?_filter, hfirst]
    simp [add, hkind, hunsealed, hbase]

/-- A list of types is refused with the refusal of the first one that cannot be placed. -/
theorem foldlM_add_of_firstUnplaceable {types before : List SourceType} {t : SourceType} {refusal : Refusal}
    (hfirst : FirstUnplaceable types before t) (hrefusal : RefusedFor before t refusal) :
    types.foldlM add {} = .error refusal := by
  obtain ⟨after, rfl⟩ := hfirst.listed
  have hfit : FitTogether ([] ++ before) := (fitTogether_iff_placeable before).mpr hfirst.placeable
  have hplaced : before.foldlM add (parts []) = .ok (parts before) := foldlM_add_parts hfit
  have hempty : ({} : Classified) = parts [] := rfl
  rw [List.append_assoc, List.foldlM_append, hempty, hplaced]
  simp only [bind, Except.bind, List.singleton_append, List.foldlM_cons,
    add_parts_of_unplaceable hfirst.unplaceable.1 hrefusal]

/-- Types are refused exactly when among the distinct ones there is a first one that cannot be placed, and with its refusal. -/
theorem ofTypes_eq_error_iff (types : List SourceType) (refusal : Refusal) :
    ofTypes types = .error refusal ↔
      ∃ before t, FirstUnplaceable (distinct types) before t ∧ RefusedFor (distinct types) t refusal := by
  have hamong : ∀ {before t refusal}, FirstUnplaceable (distinct types) before t → RefusedFor before t refusal →
      RefusedFor (distinct types) t refusal := by
    intro before t refusal hfirst hrefusal
    obtain ⟨after, hafter⟩ := hfirst.listed
    rw [← hafter]
    exact (hrefusal.append [t]).append after
  constructor
  · intro h
    have hunfit : ¬FitTogether (distinct types) := by
      intro hfit
      rw [(ofTypes_eq_ok_iff types _).mpr ⟨hfit, rfl⟩] at h
      cases h
    obtain ⟨before, t, refusal', hfirst, hrefusal'⟩ := exists_firstUnplaceable hunfit
    rw [ofTypes, foldlM_add_of_firstUnplaceable hfirst hrefusal'] at h
    cases h
    exact ⟨before, t, hfirst, hamong hfirst hrefusal'⟩
  · rintro ⟨before, t, hfirst, hrefusal⟩
    obtain ⟨refusal', hrefusal'⟩ := hfirst.unplaceable.exists_refusal
    rw [ofTypes, foldlM_add_of_firstUnplaceable hfirst hrefusal', hrefusal.unique (hamong hfirst hrefusal')]

end Classified

/-- What comes of placing a list of types. Only the distinct ones count: the first type of each name, in the order of the list.
They are placed exactly when at most one of them is extensible and none that is extensible is sealed; then the base is the
extensible one, if there is one, the capabilities and the mixins are those among them, in their order, and each of them stands
in exactly one part. Otherwise they are refused at the first one that is extensible and either sealed or behind another
extensible one: as a sealed base in the first case, and else as a second base behind the first extensible type. -/
theorem placed_or_refused (types : List SourceType) :
    let listed := distinct types
    listed.Sublist types ∧
      listed = (types.map (·.name)).eraseDups.filterMap (fun name => types.find? (fun t => t.name == name)) ∧
      (∀ c, Classified.ofTypes types = .ok c ↔ FitTogether listed ∧ c = Classified.parts listed) ∧
      (∀ c, Classified.ofTypes types = .ok c → c.placed.Perm listed) ∧
      ∀ refusal, Classified.ofTypes types = .error refusal ↔
        ∃ before t, FirstUnplaceable listed before t ∧ RefusedFor listed t refusal := by
  intro listed
  refine ⟨distinct_sublist types, distinct_eq types, Classified.ofTypes_eq_ok_iff types, fun c hc => ?_,
    Classified.ofTypes_eq_error_iff types⟩
  obtain ⟨hfit, rfl⟩ := (Classified.ofTypes_eq_ok_iff types c).mp hc
  exact Classified.placed_parts_perm hfit.oneBase

namespace OutcomeExample

/-- A mixin. -/
def loud : SourceType := { name := "Loud", kind := .mixin }

/-- A class. -/
def animal : SourceType := { name := "Animal", kind := .extensible }

/-- Another class. -/
def vehicle : SourceType := { name := "Vehicle", kind := .extensible }

/-- A sealed class. -/
def locked : SourceType := { name := "Locked", kind := .extensible, isSealed := true }

/-- The class fits to the mixin. -/
theorem fitTogether_loud_animal : FitTogether [loud, animal] := ⟨by decide, by decide⟩

end OutcomeExample

open OutcomeExample in
/-- Behind a class a sealed one is refused as sealed, although it is a second base too; and a second base is refused when it
stands in front of the sealed one. The class itself may be listed again. -/
theorem placed_or_refused_animal :
    Classified.ofTypes [loud, animal, locked, vehicle] = .error (.sealedBase "Locked") ∧
      Classified.ofTypes [loud, animal, animal, vehicle, locked] = .error (.secondBase "Animal" "Vehicle") := by
  have hplaceable := (fitTogether_iff_placeable [loud, animal]).mp fitTogether_loud_animal
  obtain ⟨-, -, -, -, hsealed⟩ := placed_or_refused [loud, animal, locked, vehicle]
  obtain ⟨-, -, -, -, hsecond⟩ := placed_or_refused [loud, animal, animal, vehicle, locked]
  refine ⟨(hsealed _).mpr ⟨[loud, animal], locked, ⟨⟨[vehicle], rfl⟩, ⟨rfl, .inl rfl⟩, hplaceable⟩, .inl ⟨rfl, rfl⟩⟩, ?_⟩
  have hbehind : Unplaceable [loud, animal] vehicle := ⟨rfl, .inr ⟨animal, by simp, rfl⟩⟩
  exact (hsecond _).mpr ⟨[loud, animal], vehicle, ⟨⟨[locked], by decide⟩, hbehind, hplaceable⟩,
    .inr ⟨rfl, animal, by decide, rfl⟩⟩

end TestDouble
