import Mathlib.Data.List.Nodup
import TestDouble.Proofs.Builder.Soundness
import TestDouble.Proofs.Members.Taken

/-!
# What makes a change refused

Each change has its own faults: a name that means no type, types that clash with those listed, an entry of a definition that
spells no member, an illegal name (`Change.Faulty`). A sound builder refuses a change exactly when it is closed or the change is
faulty (`isOk_apply_iff`).
-/

namespace TestDouble

open SourceType

/-! ## Types that clash -/

/-- Two lists of types clash: a type of the second has the name of a different type of either, or the distinct types of both do
not fit together. -/
def Clash (types incoming : List SourceType) : Prop :=
  (∃ t ∈ incoming, ∃ other ∈ types ++ incoming, other.name = t.name ∧ other ≠ t) ∨
    ¬FitTogether (distinct (types ++ incoming))

namespace Builder

/-- A type in conflict is one of those added, and a different type has its name. -/
theorem exists_ne_of_conflict? {types incoming : List SourceType} {t : SourceType}
    (h : conflict? (types ++ incoming) incoming = some t) :
    t ∈ incoming ∧ ∃ other ∈ types ++ incoming, other.name = t.name ∧ other ≠ t := by
  have hdiffers := List.find?_some h
  obtain ⟨first, hfound, hne⟩ := (Option.any_eq_true _ _).mp hdiffers
  exact ⟨List.mem_of_find?_eq_some h, first, List.mem_of_find?_eq_some hfound, by simpa using List.find?_some hfound,
    by simpa using hne⟩

/-- Among types without a conflict each is the first that is found under its name. -/
theorem find?_eq_of_no_conflict {types incoming : List SourceType}
    (h : conflict? (types ++ incoming) incoming = none) {t first : SourceType} (ht : t ∈ incoming)
    (hfound : (types ++ incoming).find? (fun seen => seen.name == t.name) = some first) : first = t := by
  have hagrees := List.find?_eq_none.mp h t ht
  rw [hfound] at hagrees
  simpa using hagrees

/-- Without a conflict a type that is added is the only one of its name. -/
theorem eq_of_no_conflict {types incoming : List SourceType} (hdistinct : (types.map (·.name)).Nodup)
    (h : conflict? (types ++ incoming) incoming = none) {t other : SourceType} (ht : t ∈ incoming)
    (hother : other ∈ types ++ incoming) (hname : other.name = t.name) : other = t := by
  obtain ⟨first, hfound⟩ : ∃ first, (types ++ incoming).find? (fun seen => seen.name == t.name) = some first :=
    Option.isSome_iff_exists.mp (List.find?_isSome.mpr ⟨other, hother, by simpa using hname⟩)
  have hfirst : first = t := find?_eq_of_no_conflict h ht hfound
  rcases List.mem_append.mp hother with hlisted | hadded
  · obtain ⟨seen, hseen⟩ : ∃ seen, types.find? (fun seen => seen.name == t.name) = some seen :=
      Option.isSome_iff_exists.mp (List.find?_isSome.mpr ⟨other, hlisted, by simpa using hname⟩)
    rw [List.find?_append, hseen, Option.some_or] at hfound
    have hseenName : seen.name = t.name := by simpa using List.find?_some hseen
    have hsame : seen = other :=
      List.inj_on_of_nodup_map hdistinct (List.mem_of_find?_eq_some hseen) hlisted (hseenName.trans hname.symm)
    rw [← hsame, Option.some.inj hfound, hfirst]
  · have hfirst' : first = other := find?_eq_of_no_conflict h hadded (by rw [hname, hfound])
    rw [← hfirst', hfirst]

/-- More types are refused exactly when they clash with those listed. -/
theorem isOk_joinTypes_iff {types : List SourceType} (hdistinct : (types.map (·.name)).Nodup)
    (incoming : List SourceType) : (joinTypes types incoming).isOk = false ↔ Clash types incoming := by
  rw [joinTypes]
  cases hconflict : conflict? (types ++ incoming) incoming with
  | some t =>
    obtain ⟨ht, hother⟩ := exists_ne_of_conflict? hconflict
    exact iff_of_true rfl (.inl ⟨t, ht, hother⟩)
  | none =>
    simp only [isOk_map, Clash]
    constructor
    · intro hrefused
      refine .inr fun hfit => ?_
      rw [(Classified.ofTypes_eq_ok_iff _ _).mpr ⟨hfit, rfl⟩] at hrefused
      cases hrefused
    · rintro (⟨t, ht, other, hother, hname, hne⟩ | hunfit)
      · exact absurd (eq_of_no_conflict hdistinct hconflict ht hother hname) hne
      · cases hplaced : Classified.ofTypes (types ++ incoming) with
        | error refusal => rfl
        | ok c => exact absurd ((Classified.ofTypes_eq_ok_iff _ c).mp hplaced).1 hunfit

end Builder

/-! ## Names that mean types -/

namespace Registry

/-- References that all mean types are resolved to these, each once. -/
theorem resolve_of_known {r : Registry} {references : List String}
    (h : ∀ reference ∈ references, r.get? reference ≠ none) :
    r.resolve references = .ok (distinct (references.filterMap r.get?)) := by
  have hfound : references.mapM r.find = .ok (references.filterMap r.get?) := by
    induction references with
    | nil => rfl
    | cons reference rest ih =>
      obtain ⟨t, ht⟩ := Option.ne_none_iff_exists'.mp (h reference List.mem_cons_self)
      have hrest := ih (fun other hother => h other (List.mem_cons_of_mem reference hother))
      rw [List.mapM_cons, hrest, find, ht, List.filterMap_cons, ht]
      rfl
  rw [resolve, hfound]
  rfl

/-- A reference that means no type makes all of them refused. -/
theorem isOk_resolve_of_unknown {r : Registry} {references : List String} {reference : String}
    (hlisted : reference ∈ references) (h : r.get? reference = none) : (r.resolve references).isOk = false := by
  have hrefused : (r.find reference).isOk = false := by
    rw [find, h]
    rfl
  rw [resolve, isOk_map, isOk_mapM, List.all_eq_false]
  exact ⟨reference, hlisted, by simp [hrefused]⟩

/-- The distinct types of names that are resolved are those of all types that the names mean. -/
theorem eq_of_resolve {r : Registry} {names : List String} {types : List SourceType} (h : r.resolve names = .ok types) :
    types = distinct (names.filterMap r.get?) := by
  have hknown : ∀ name ∈ names, r.get? name ≠ none := by
    intro name hname hnone
    have hrefused := isOk_resolve_of_unknown hname hnone
    rw [h] at hrefused
    cases hrefused
  rw [resolve_of_known hknown] at h
  exact (Except.ok.inj h).symm

end Registry

/-! ## Changes -/

/-- What is wrong with a change of a builder, whether the builder is open or not. -/
def Change.Faulty (w : Workshop) (b : Builder) : Change → Prop
  | .likeNames names =>
    (∃ name ∈ names, w.registry.get? name = none) ∨ Clash b.types (distinct (names.filterMap w.registry.get?))
  | .likeTypes types => Clash b.types types
  | .likeDefinition entries => ∃ entry ∈ entries, (Member.ofEntry entry.1 entry.2).isOk = false
  | .likeJson (.object fields) => ∃ field ∈ sortEntries fields, (Member.ofField field.1 field.2).isOk = false
  | .likeJson _ => True
  | .addMember _ => False
  | .setName name => w.config.identifiers.allowsType name = false

namespace Builder

variable {w : Workshop} {b : Builder}

/-- A builder whose types have distinct names refuses a change, while open, exactly when the change is faulty. -/
theorem isOk_change_iff (hdistinct : (b.types.map (·.name)).Nodup) (c : Change) :
    (b.change w c).isOk = false ↔ c.Faulty w b := by
  cases c with
  | likeNames names =>
    rw [change, Change.Faulty]
    by_cases hknown : ∀ name ∈ names, w.registry.get? name ≠ none
    · have hnone : ¬∃ name ∈ names, w.registry.get? name = none := by simpa using hknown
      simp only [Registry.resolve_of_known hknown, addTypes, isOk_map, hnone, false_or]
      exact isOk_joinTypes_iff hdistinct _
    · obtain ⟨name, hname, hunknown⟩ : ∃ name ∈ names, w.registry.get? name = none := by simpa using hknown
      have hrefused := Registry.isOk_resolve_of_unknown hname hunknown
      cases hresolved : w.registry.resolve names with
      | error refusal => exact iff_of_true rfl (.inl ⟨name, hname, hunknown⟩)
      | ok types =>
        rw [hresolved] at hrefused
        cases hrefused
  | likeTypes types =>
    rw [change, addTypes, isOk_map]
    exact isOk_joinTypes_iff hdistinct types
  | likeDefinition entries =>
    rw [change, Members.ofDefinition_eq, Members.listOfDefinition, isOk_map, isOk_map, isOk_mapM, List.all_eq_false]
    simp only [Change.Faulty, Bool.not_eq_true]
  | likeJson definition =>
    rw [change, Members.ofJson_eq, isOk_map, isOk_map]
    cases definition with
    | object fields =>
      rw [Members.listOfJson, isOk_mapM, List.all_eq_false]
      simp only [Change.Faulty, Bool.not_eq_true]
    | _ => exact iff_of_true rfl trivial
  | addMember member => exact iff_of_false (by simp [change, Except.isOk, Except.toBool]) id
  | setName name =>
    rw [change, Change.Faulty]
    cases w.config.identifiers.allowsType name with
    | true => exact iff_of_false (by simp [Except.isOk, Except.toBool]) (by simp)
    | false => exact iff_of_true rfl rfl

/-- A builder whose types have distinct names refuses a change exactly when it is closed or the change is faulty. -/
theorem isOk_apply_iff (hdistinct : (b.types.map (·.name)).Nodup) (c : Change) :
    (b.apply w c).isOk = false ↔ b.finalized = true ∨ c.Faulty w b := by
  rw [apply_eq]
  cases hfinal : b.finalized with
  | true => exact iff_of_true rfl (.inl rfl)
  | false => simpa using isOk_change_iff hdistinct c

end Builder

end TestDouble
