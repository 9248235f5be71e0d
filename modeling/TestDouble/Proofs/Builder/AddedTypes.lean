import TestDouble.Proofs.Builder.Faults
import TestDouble.Proofs.Descriptor.Repetition

/-!
# What comes of adding types

A builder looks up each type that is added among those it holds and those that come with it, and compares it with the first one
of its name only. Its own types have distinct names, so this finds a conflict exactly when two different types of both lists
share a name (`agree_iff_no_conflict`). Types without a conflict are taken exactly when both lists together are compatible, and
then it does not matter whether they come at once or in two batches (`types_added`).
-/

namespace TestDouble

namespace SourceType

/-! ## Compatible types -/

/-- No two different types share a name. -/
def Agree (types : List SourceType) : Prop := ∀ t ∈ types, ∀ other ∈ types, t.name = other.name → t = other

instance (types : List SourceType) : Decidable (Agree types) :=
  inferInstanceAs (Decidable (∀ t ∈ types, ∀ other ∈ types, t.name = other.name → t = other))

/-- Types, repeated or not, that a builder can hold together: no two different ones share a name, no extensible one is sealed,
and all extensible ones have one name. -/
structure Compatible (types : List SourceType) : Prop where
  agree : Agree types
  unsealed : ∀ t ∈ types, t.kind = .extensible → t.isSealed = false
  oneBase : ∀ t ∈ types, ∀ other ∈ types, t.kind = .extensible → other.kind = .extensible → t.name = other.name

/-- Types among compatible ones are compatible. -/
theorem Compatible.mono {types more : List SourceType} (h : Compatible more) (hsub : ∀ t ∈ types, t ∈ more) :
    Compatible types where
  agree t ht other hother := h.agree t (hsub t ht) other (hsub other hother)
  unsealed t ht := h.unsealed t (hsub t ht)
  oneBase t ht other hother := h.oneBase t (hsub t ht) other (hsub other hother)

/-- Of types that agree each is one of the distinct ones. -/
theorem Agree.mem_distinct {types : List SourceType} (h : Agree types) (t : SourceType) : t ∈ distinct types ↔ t ∈ types := by
  refine ⟨distinct_subset types t, fun ht => ?_⟩
  obtain ⟨first, hfirst, hname⟩ := List.mem_map.mp (mem_names_distinct.mpr (List.mem_map_of_mem ht))
  rwa [← h first (distinct_subset types first hfirst) t ht hname]

/-- Types are compatible exactly when they agree and the distinct ones fit together. -/
theorem compatible_iff (types : List SourceType) : Compatible types ↔ Agree types ∧ FitTogether (distinct types) := by
  constructor
  · intro h
    have hbases : ∀ t ∈ bases (distinct types), t ∈ types ∧ t.kind = .extensible := by
      intro t ht
      obtain ⟨hlisted, hkind⟩ := List.mem_filter.mp ht
      exact ⟨distinct_subset types t hlisted, by simpa using hkind⟩
    have hnames : ((bases (distinct types)).map (·.name)).Nodup :=
      (nodup_names_distinct types).sublist (List.filter_sublist.map _)
    refine ⟨h.agree, ?_, fun t ht => h.unsealed t (distinct_subset types t ht)⟩
    match hlist : bases (distinct types) with
    | [] => exact Nat.zero_le 1
    | [base] => exact Nat.le_refl 1
    | first :: second :: others =>
      rw [hlist] at hbases hnames
      obtain ⟨hfirst, hfirstKind⟩ := hbases first (by simp)
      obtain ⟨hsecond, hsecondKind⟩ := hbases second (by simp)
      have hsame : first.name = second.name := h.oneBase first hfirst second hsecond hfirstKind hsecondKind
      simp [hsame] at hnames
  · rintro ⟨hagree, hfit⟩
    have hbase : ∀ t ∈ types, t.kind = .extensible → t ∈ bases (distinct types) := by
      intro t ht hkind
      exact List.mem_filter.mpr ⟨(hagree.mem_distinct t).mpr ht, by simp [hkind]⟩
    refine ⟨hagree, fun t ht => hfit.unsealed t ((hagree.mem_distinct t).mpr ht), ?_⟩
    intro t ht other hother hkind hotherKind
    obtain ⟨base, hone⟩ := List.length_eq_one_iff.mp
      (Nat.le_antisymm hfit.oneBase (List.length_pos_of_mem (hbase t ht hkind)))
    have hmem := hbase t ht hkind
    have hotherMem := hbase other hother hotherKind
    rw [hone, List.mem_singleton] at hmem hotherMem
    rw [hmem, hotherMem]

/-! ## Newcomers -/

/-- The types that are added under names not seen before, each name once, in order. -/
def newcomers (types added : List SourceType) : List SourceType :=
  (distinct added).filter (fun t => !(types.map (·.name)).contains t.name)

/-- Behind types of distinct names the newcomers are left of those that are added. -/
theorem distinct_append_eq {types : List SourceType} (hdistinct : (types.map (·.name)).Nodup) (added : List SourceType) :
    distinct (types ++ added) = types ++ newcomers types added := by
  induction types with
  | nil => exact (List.filter_true _).symm
  | cons t rest ih =>
    rw [List.map_cons, List.nodup_cons] at hdistinct
    have hrest : rest.filter (fun later => later.name != t.name) = rest := by
      refine List.filter_eq_self.mpr fun later hlater => ?_
      have hne : later.name ≠ t.name := fun e => hdistinct.1 (e ▸ List.mem_map_of_mem hlater)
      simpa using hne
    have hadded : (newcomers rest added).filter (fun later => later.name != t.name) = newcomers (t :: rest) added := by
      rw [newcomers, newcomers, List.filter_filter]
      refine List.filter_congr fun later _ => ?_
      rw [List.map_cons, List.contains_cons, Bool.not_or]
      rfl
    rw [List.cons_append, distinct, ih hdistinct.2, List.filter_append, hrest, hadded]
    rfl

end SourceType

open SourceType

namespace Builder

/-! ## Conflicts -/

/-- A type differs from the first one of a list that has its name. -/
def DiffersFromFirst (types : List SourceType) (t : SourceType) : Prop :=
  ∃ first, types.find? (fun seen => seen.name == t.name) = some first ∧ first ≠ t

/-- The first type that is added and differs from the first one of its name among all; none that is added before it does. -/
structure FirstConflict (types added before : List SourceType) (t : SourceType) : Prop where
  listed : before ++ [t] <+: added
  differs : DiffersFromFirst (types ++ added) t
  agrees : ∀ u ∈ before, ¬DiffersFromFirst (types ++ added) u

/-- The conflict that is found is the first one. -/
theorem conflict?_eq_some_iff (types added : List SourceType) (t : SourceType) :
    conflict? (types ++ added) added = some t ↔ ∃ before, FirstConflict types added before t := by
  have hdiffers : ∀ u, ((types ++ added).find? (fun seen => seen.name == u.name)).any (fun first => first != u) = true ↔
      DiffersFromFirst (types ++ added) u := by
    intro u
    simp only [Option.any_eq_true, bne_iff_ne, DiffersFromFirst]
  rw [conflict?, List.find?_eq_some_iff_append, hdiffers]
  constructor
  · rintro ⟨ht, before, after, hlisted, hbefore⟩
    refine ⟨before, ⟨after, by rw [hlisted, List.append_assoc]; rfl⟩, ht, fun u hu hconflict => ?_⟩
    have hagrees := hbefore u hu
    rw [(hdiffers u).mpr hconflict] at hagrees
    cases hagrees
  · rintro ⟨before, ⟨after, hlisted⟩, ht, hbefore⟩
    refine ⟨ht, before, after, by rw [← hlisted, List.append_assoc]; rfl, fun u hu => ?_⟩
    rw [Bool.not_eq_true', Bool.eq_false_iff, Ne, hdiffers]
    exact hbefore u hu

/-- Types of distinct names and types that are added agree exactly when none of these conflicts. -/
theorem agree_iff_no_conflict {types : List SourceType} (hdistinct : (types.map (·.name)).Nodup)
    (added : List SourceType) : Agree (types ++ added) ↔ conflict? (types ++ added) added = none := by
  constructor
  · intro h
    cases hconflict : conflict? (types ++ added) added with
    | none => rfl
    | some t =>
      obtain ⟨ht, other, hother, hname, hne⟩ := exists_ne_of_conflict? hconflict
      exact absurd (h other hother t (List.mem_append_right _ ht) hname) hne
  · intro h t ht other hother hname
    rcases List.mem_append.mp ht with hlisted | hadded
    · rcases List.mem_append.mp hother with hotherListed | hotherAdded
      · exact List.inj_on_of_nodup_map hdistinct hlisted hotherListed hname
      · exact eq_of_no_conflict hdistinct h hotherAdded ht hname
    · exact (eq_of_no_conflict hdistinct h hadded hother hname.symm).symm

/-- Types that agree are joined unless they cannot be placed. -/
theorem joinTypes_of_agree {types added : List SourceType} (hdistinct : (types.map (·.name)).Nodup)
    (h : Agree (types ++ added)) :
    joinTypes types added = (Classified.ofTypes (types ++ added)).map (fun _ => distinct (types ++ added)) := by
  rw [joinTypes, (agree_iff_no_conflict hdistinct added).mp h]

/-- Types of distinct names and types that are added do not agree exactly when there is a first conflict. -/
theorem not_agree_iff {types : List SourceType} (hdistinct : (types.map (·.name)).Nodup) (added : List SourceType) :
    ¬Agree (types ++ added) ↔ ∃ before t, FirstConflict types added before t := by
  rw [agree_iff_no_conflict hdistinct, ← Ne, Option.ne_none_iff_exists']
  simp only [conflict?_eq_some_iff]
  exact exists_comm

/-- Types are refused at the first conflict, whether they can be placed or not. -/
theorem joinTypes_of_firstConflict {types added before : List SourceType} {t : SourceType}
    (h : FirstConflict types added before t) : joinTypes types added = .error (.conflictingTypes t.name) := by
  rw [joinTypes, (conflict?_eq_some_iff types added t).mpr ⟨before, h⟩]

/-- Types are joined exactly when they are compatible, and then the newcomers stand behind those that were there. -/
theorem joinTypes_eq_ok_iff {types : List SourceType} (hdistinct : (types.map (·.name)).Nodup)
    (added joined : List SourceType) :
    joinTypes types added = .ok joined ↔ Compatible (types ++ added) ∧ joined = types ++ newcomers types added := by
  rw [compatible_iff, ← distinct_append_eq hdistinct]
  by_cases hagree : Agree (types ++ added)
  · rw [joinTypes_of_agree hdistinct hagree, map_eq_ok_iff]
    constructor
    · rintro ⟨c, hplaced, rfl⟩
      exact ⟨⟨hagree, ((Classified.ofTypes_eq_ok_iff _ c).mp hplaced).1⟩, rfl⟩
    · rintro ⟨⟨-, hfit⟩, rfl⟩
      exact ⟨_, (Classified.ofTypes_eq_ok_iff _ _).mpr ⟨hfit, rfl⟩, rfl⟩
  · obtain ⟨before, t, hconflict⟩ := (not_agree_iff hdistinct added).mp hagree
    rw [joinTypes_of_firstConflict hconflict]
    exact iff_of_false nofun (fun h => hagree h.1.1)

/-! ## Adding -/

variable {w : Workshop} {b : Builder}

/-- An open builder is added to by joining types. -/
theorem apply_likeTypes (hopen : b.finalized = false) (added : List SourceType) :
    b.apply w (.likeTypes added) = (joinTypes b.types added).map (fun types => { b with types := types }) := by
  rw [apply_eq, if_neg (by simp [hopen])]
  rfl

/-- An open builder takes exactly the types that are compatible with its own, and then holds the newcomers behind them. -/
theorem apply_likeTypes_eq_ok_iff (hopen : b.finalized = false) (hdistinct : (b.types.map (·.name)).Nodup)
    (added : List SourceType) (b' : Builder) :
    b.apply w (.likeTypes added) = .ok b' ↔
      Compatible (b.types ++ added) ∧ b' = { b with types := b.types ++ newcomers b.types added } := by
  rw [apply_likeTypes hopen, map_eq_ok_iff]
  simp only [joinTypes_eq_ok_iff hdistinct]
  constructor
  · rintro ⟨types, ⟨hcompatible, rfl⟩, rfl⟩
    exact ⟨hcompatible, rfl⟩
  · rintro ⟨hcompatible, rfl⟩
    exact ⟨_, ⟨hcompatible, rfl⟩, rfl⟩

/-- Two batches of types are taken exactly when both are taken at once, and leave the same builder. -/
theorem apply_likeTypes_append (hopen : b.finalized = false) (hdistinct : (b.types.map (·.name)).Nodup)
    (added more : List SourceType) (b' : Builder) :
    (∃ between, b.apply w (.likeTypes added) = .ok between ∧ between.apply w (.likeTypes more) = .ok b') ↔
      b.apply w (.likeTypes (added ++ more)) = .ok b' := by
  have hleft : distinct (distinct (b.types ++ added) ++ more) = distinct (b.types ++ (added ++ more)) := by
    rw [distinct_distinct_append, List.append_assoc]
  have hbetween : ((distinct (b.types ++ added)).map (·.name)).Nodup := nodup_names_distinct _
  have hmore := @apply_likeTypes_eq_ok_iff w { b with types := distinct (b.types ++ added) } hopen hbetween more
  simp only [apply_likeTypes_eq_ok_iff hopen hdistinct, ← distinct_append_eq hdistinct]
  constructor
  · rintro ⟨between, ⟨hfirst, rfl⟩, htaken⟩
    obtain ⟨hsecond, rfl⟩ := (hmore b').mp htaken
    refine ⟨hsecond.mono fun t ht => ?_, by rw [← distinct_append_eq hbetween, hleft]⟩
    rw [← List.append_assoc] at ht
    rcases List.mem_append.mp ht with ht | ht
    · exact List.mem_append_left _ ((hfirst.agree.mem_distinct t).mpr ht)
    · exact List.mem_append_right _ ht
  · rintro ⟨hall, rfl⟩
    have hfirst : Compatible (b.types ++ added) := hall.mono fun t ht => by
      rw [← List.append_assoc]
      exact List.mem_append_left _ ht
    have hsecond : Compatible (distinct (b.types ++ added) ++ more) := hall.mono fun t ht => by
      rw [← List.append_assoc]
      rcases List.mem_append.mp ht with ht | ht
      · exact List.mem_append_left _ (distinct_subset _ t ht)
      · exact List.mem_append_right _ ht
    refine ⟨_, ⟨hfirst, rfl⟩, (hmore _).mpr ⟨hsecond, ?_⟩⟩
    rw [← distinct_append_eq hbetween, hleft]

end Builder

/-- What comes of adding types. Take any run of moves at a bench, with builders made fresh in any workshops or copied, and a
builder there that is open. It takes a list of types exactly when, among the types that it holds and these, no two different
ones share a name, no extensible one is sealed and all extensible ones have the same name; it then holds the new types under
names not seen before behind those it held, and nothing else changes. If two different types share a name it refuses the list
as conflicting, with the name of the first new type that differs from the first one of its name; otherwise it refuses what
cannot be placed, for the reason for which both lists together cannot be placed. So two batches are taken one after the other
exactly when they are taken at once, and leave the same builder. -/
theorem types_added (moves : List Move) (place : Nat) (seat : Seat)
    (hseat : (Bench.run {} moves).seats[place]? = some seat) (hopen : seat.builder.finalized = false)
    (added : List SourceType) :
    let b := seat.builder
    let listed := b.types ++ added
    let take (b : Builder) (types : List SourceType) : Except Refusal Builder := b.apply seat.workshop (.likeTypes types)
    (∀ b', take b added = .ok b' ↔
      Compatible listed ∧ b' = { b with types := b.types ++ newcomers b.types added }) ∧
    (¬Agree listed ↔ ∃ before t, Builder.FirstConflict b.types added before t) ∧
    (∀ before t, Builder.FirstConflict b.types added before t → take b added = .error (.conflictingTypes t.name)) ∧
    (Agree listed → ∀ refusal, take b added = .error refusal ↔ Classified.ofTypes listed = .error refusal) ∧
    ∀ more b', (∃ between, take b added = .ok between ∧ take between more = .ok b') ↔ take b (added ++ more) = .ok b' := by
  intro b listed take
  have hdistinct : (b.types.map (·.name)).Nodup := (Bench.sound_run moves seat (List.mem_of_getElem? hseat)).distinct
  have htake : take b added = (Builder.joinTypes b.types added).map (fun types => { b with types := types }) :=
    Builder.apply_likeTypes hopen added
  refine ⟨Builder.apply_likeTypes_eq_ok_iff hopen hdistinct added, Builder.not_agree_iff hdistinct added,
    fun before t hconflict => ?_, fun hagree refusal => ?_, Builder.apply_likeTypes_append hopen hdistinct added⟩
  · rw [htake, Builder.joinTypes_of_firstConflict hconflict]
    rfl
  · rw [htake, Builder.joinTypes_of_agree hdistinct hagree, map_eq_error_iff, map_eq_error_iff]

namespace AddedTypesExample

open SoundnessExample

/-- A contract. -/
def nameable : SourceType := { name := "Nameable", kind := .capability }

/-- A sealed class under the name of the mixin that the builder holds. -/
def impostor : SourceType := { name := "Loud", kind := .extensible, isSealed := true }

/-- A second class. -/
def vehicle : SourceType := { name := "Vehicle", kind := .extensible }

end AddedTypesExample

open AddedTypesExample SoundnessExample in
/-- The builder in the example takes a contract that is listed twice, together with the class it holds; it refuses a sealed class
under the name of its mixin as conflicting; and it refuses a second base. -/
theorem types_added_dog :
    dog.builder.apply workshop (.likeTypes [nameable, { name := "Animal", kind := .extensible }, nameable]) =
        .ok { dog.builder with types := dog.builder.types ++ [nameable] } ∧
      dog.builder.apply workshop (.likeTypes [nameable, impostor]) = .error (.conflictingTypes "Loud") ∧
      dog.builder.apply workshop (.likeTypes [nameable, vehicle]) = .error (.secondBase "Animal" "Vehicle") := by
  have hseat : (Bench.run {} moves).seats[1]? = some dog := by with_unfolding_all rfl
  obtain ⟨htaken, -⟩ := types_added moves 1 dog hseat rfl [nameable, { name := "Animal", kind := .extensible }, nameable]
  obtain ⟨-, -, hconflict, -⟩ := types_added moves 1 dog hseat rfl [nameable, impostor]
  obtain ⟨-, -, -, hrefused, -⟩ := types_added moves 1 dog hseat rfl [nameable, vehicle]
  refine ⟨(htaken _).mpr ⟨⟨by decide, by decide, by decide⟩, rfl⟩, ?_, ?_⟩
  · have hdiffers : Builder.DiffersFromFirst (dog.builder.types ++ [nameable, impostor]) impostor :=
      ⟨{ name := "Loud", kind := .mixin }, by decide, by decide⟩
    refine hconflict [nameable] impostor ⟨List.prefix_rfl, hdiffers, fun u hu => ?_⟩
    rw [List.mem_singleton.mp hu]
    rintro ⟨first, hfirst, hne⟩
    exact hne (Option.some.inj (hfirst.symm.trans rfl))
  · exact (hrefused (by decide) _).mpr rfl

end TestDouble
