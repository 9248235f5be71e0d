import TestDouble.Classified

/-!
# Which types can be placed together

Types fit together when at most one of them is extensible and that one is not sealed. These are the types that can be placed,
and each then stands in the part of its kind, in the order listed (`ofTypes_eq_ok_iff`).
-/

namespace TestDouble

namespace SourceType

/-- The extensible ones among some types. -/
def bases (types : List SourceType) : List SourceType := types.filter (fun t => t.kind == .extensible)

/-- Types fit together: at most one is extensible, and none that is extensible is sealed. -/
structure FitTogether (types : List SourceType) : Prop where
  oneBase : (bases types).length ≤ 1
  unsealed : ∀ t ∈ types, t.kind = .extensible → t.isSealed = false

/-- The extensible ones of two lists, put together. -/
theorem bases_append (types more : List SourceType) : bases (types ++ more) = bases types ++ bases more :=
  List.filter_append ..

/-- The empty list fits together. -/
theorem fitTogether_nil : FitTogether [] := ⟨Nat.zero_le 1, by simp⟩

/-- One more type fits to types that fit together unless it is extensible and either sealed or the second one. -/
theorem fitTogether_append_singleton (types : List SourceType) (t : SourceType) :
    FitTogether (types ++ [t]) ↔
      FitTogether types ∧ (t.kind = .extensible → t.isSealed = false ∧ bases types = []) := by
  constructor
  · rintro ⟨hone, hunsealed⟩
    have htypes : ∀ u ∈ types, u.kind = .extensible → u.isSealed = false :=
      fun u hu => hunsealed u (List.mem_append_left _ hu)
    rw [bases_append, List.length_append] at hone
    refine ⟨⟨by omega, htypes⟩, fun hkind => ⟨hunsealed t (by simp) hkind, ?_⟩⟩
    have hlast : (bases [t]).length = 1 := by simp [bases, hkind]
    exact List.eq_nil_of_length_eq_zero (by omega)
  · rintro ⟨⟨hone, hunsealed⟩, ht⟩
    refine ⟨?_, fun u hu hkind => ?_⟩
    · rw [bases_append, List.length_append]
      by_cases hkind : t.kind = .extensible
      · have hlast : (bases [t]).length ≤ 1 := List.length_filter_le _ [t]
        rwa [(ht hkind).2, List.length_nil, Nat.zero_add]
      · have hlast : bases [t] = [] := by simp [bases, hkind]
        rwa [hlast]
    · rcases List.mem_append.mp hu with hu | hu
      · exact hunsealed u hu hkind
      · rw [List.mem_singleton] at hu
        exact hu ▸ (ht (hu ▸ hkind)).1

/-- The first ones of types that fit together fit together. -/
theorem FitTogether.of_append {types more : List SourceType} (h : FitTogether (types ++ more)) : FitTogether types := by
  refine ⟨?_, fun t ht => h.unsealed t (List.mem_append_left _ ht)⟩
  have hone := h.oneBase
  rw [bases_append, List.length_append] at hone
  omega

end SourceType

open SourceType

namespace Classified

/-- Some types, each in the part of its kind. -/
def parts (types : List SourceType) : Classified where
  base := (bases types).head?
  capabilities := types.filter (fun t => t.kind == .capability)
  mixins := types.filter (fun t => t.kind == .mixin)

/-! ## One type -/

/-- A type that fits to those placed is placed in the part of its kind. -/
theorem add_parts {types : List SourceType} {t : SourceType} (h : FitTogether (types ++ [t])) :
    (parts types).add t = .ok (parts (types ++ [t])) := by
  obtain ⟨-, ht⟩ := (fitTogether_append_singleton types t).mp h
  cases hkind : t.kind with
  | extensible =>
    obtain ⟨hunsealed, hnone⟩ := ht hkind
    have hall : types.filter (fun u => u.kind == .extensible) = [] := hnone
    simp [add, parts, bases, hkind, hunsealed, hall]
  | capability => simp [add, parts, bases, hkind]
  | mixin => simp [add, parts, bases, hkind]

/-- A type that is placed fits to those placed before. -/
theorem fitTogether_of_add {types : List SourceType} {t : SourceType} {c : Classified} (hfit : FitTogether types)
    (h : (parts types).add t = .ok c) : FitTogether (types ++ [t]) := by
  refine (fitTogether_append_singleton types t).mpr ⟨hfit, fun hkind => ?_⟩
  rw [add, hkind] at h
  cases hsealed : t.isSealed with
  | true => simp [hsealed] at h
  | false =>
    refine ⟨rfl, ?_⟩
    cases hbases : bases types with
    | nil => rfl
    | cons base others => simp [hsealed, parts, hbases] at h

/-! ## A list of types -/

/-- Types that fit to those placed are placed one after another. -/
theorem foldlM_add_parts {types rest : List SourceType} (h : FitTogether (types ++ rest)) :
    rest.foldlM add (parts types) = .ok (parts (types ++ rest)) := by
  induction rest generalizing types with
  | nil =>
    rw [List.append_nil]
    rfl
  | cons t rest ih =>
    rw [List.append_cons] at h ⊢
    rw [List.foldlM_cons, add_parts h.of_append]
    exact ih h

/-- Types that are placed one after another fit to those placed before. -/
theorem fitTogether_of_foldlM {types rest : List SourceType} {c : Classified} (hfit : FitTogether types)
    (h : rest.foldlM add (parts types) = .ok c) : FitTogether (types ++ rest) := by
  induction rest generalizing types with
  | nil => rwa [List.append_nil]
  | cons t rest ih =>
    rw [List.foldlM_cons] at h
    cases ht : (parts types).add t with
    | error refusal =>
      rw [ht] at h
      cases h
    | ok placed =>
      have hnext := fitTogether_of_add hfit ht
      rw [add_parts hnext] at h
      rw [List.append_cons]
      exact ih hnext h

/-- Types are placed exactly when the distinct ones fit together, and then each of these stands in the part of its kind. -/
theorem ofTypes_eq_ok_iff (types : List SourceType) (c : Classified) :
    ofTypes types = .ok c ↔ FitTogether (distinct types) ∧ c = parts (distinct types) := by
  have hempty : ({} : Classified) = parts [] := rfl
  rw [ofTypes, hempty]
  constructor
  · intro h
    have hfit : FitTogether (distinct types) := fitTogether_of_foldlM fitTogether_nil h
    refine ⟨hfit, ?_⟩
    rw [@foldlM_add_parts [] _ hfit] at h
    exact (Except.ok.inj h).symm
  · rintro ⟨hfit, rfl⟩
    exact @foldlM_add_parts [] _ hfit

/-- Types whose names are distinct and that fit together are placed. -/
theorem ofTypes_of_fitTogether {types : List SourceType} (hdistinct : (types.map (·.name)).Nodup)
    (hfit : FitTogether types) : ofTypes types = .ok (parts types) := by
  rw [ofTypes_eq_ok_iff, distinct_eq_self hdistinct]
  exact ⟨hfit, rfl⟩

end Classified

end TestDouble
