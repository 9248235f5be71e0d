import TestDouble.Json

/-!
# Values that agree

A value agrees with itself. Two values that agree differ at most in the signs of the zeros that they hold: `Json.zeroSigns`
lists these signs from the first to the last, and values that agree and have the same list are the same value (`eq_of_agrees`).
-/

namespace TestDouble

namespace Number

/-- The sign of a number, if the number is a zero of binary64. -/
def zeroSigns : Number → List Bool
  | .integer _ => []
  | .real value => if value.rank = 0 then [value.negative] else []

/-- A number is the same as itself. -/
theorem same_refl (n : Number) : n.same n = true := by
  cases n with
  | integer value => exact beq_self_eq_true value
  | real value =>
    have hsame : (real value).same (real value) =
        (value.rank == value.rank && (value.negative == value.negative || value.rank == 0)) := rfl
    rw [hsame, beq_self_eq_true, beq_self_eq_true]
    rfl

/-- Binary64 numbers are the same when their ranks are and their signs, unless they are zeros. -/
theorem same_real_iff (a b : Binary64) :
    (real a).same (real b) = true ↔ a.rank = b.rank ∧ (a.negative = b.negative ∨ a.rank = 0) := by
  have hsame : (real a).same (real b) = (a.rank == b.rank && (a.negative == b.negative || a.rank == 0)) := rfl
  rw [hsame, Bool.and_eq_true, Bool.or_eq_true, beq_iff_eq, beq_iff_eq, beq_iff_eq]

/-- Numbers that are the same are both zeros of binary64 or neither is. -/
theorem length_zeroSigns_of_same {a b : Number} (h : a.same b = true) : a.zeroSigns.length = b.zeroSigns.length := by
  cases a with
  | integer n =>
    cases b with
    | integer m => rfl
    | real value => cases h
  | real value =>
    cases b with
    | integer m => cases h
    | real other =>
      obtain ⟨hrank, -⟩ := (same_real_iff value other).mp h
      simp only [zeroSigns, hrank]
      split <;> rfl

/-- Numbers that are the same, with the same sign if they are zeros of binary64, are one number. -/
theorem eq_of_same {a b : Number} (h : a.same b = true) (hsigns : a.zeroSigns = b.zeroSigns) : a = b := by
  cases a with
  | integer n =>
    cases b with
    | integer m => rw [beq_iff_eq.mp h]
    | real value => cases h
  | real value =>
    cases b with
    | integer m => cases h
    | real other =>
      obtain ⟨hrank, hnegative⟩ := (same_real_iff value other).mp h
      have hsign : value.negative = other.negative := by
        rcases hnegative with hnegative | hzero
        · exact hnegative
        · have hzero' : other.rank = 0 := hrank ▸ hzero
          rw [zeroSigns, zeroSigns, if_pos hzero, if_pos hzero'] at hsigns
          exact (List.cons.inj hsigns).1
      cases value
      cases other
      cases hrank
      cases hsign
      rfl

end Number

namespace Json

mutual

/-- The signs of the zeros of binary64 in a value, in the order of its text. -/
def zeroSigns : Json → List Bool
  | .null => []
  | .bool _ => []
  | .number value => value.zeroSigns
  | .text _ => []
  | .array items => zeroSignsItems items
  | .object members => zeroSignsMembers members

/-- The signs of the zeros of binary64 in the items of an array. -/
def zeroSignsItems : List Json → List Bool
  | [] => []
  | item :: rest => zeroSigns item ++ zeroSignsItems rest

/-- The signs of the zeros of binary64 in the members of an object. -/
def zeroSignsMembers : List (String × Json) → List Bool
  | [] => []
  | (_, value) :: rest => zeroSigns value ++ zeroSignsMembers rest

end

/-! ## Every value agrees with itself -/

mutual

/-- A value agrees with itself. -/
theorem agrees_refl : ∀ value : Json, value.agrees value = true
  | .null => rfl
  | .bool value => beq_self_eq_true value
  | .number value => Number.same_refl value
  | .text value => beq_self_eq_true value
  | .array items => agreeItems_refl items
  | .object members => agreeMembers_refl members

/-- Items agree with themselves. -/
theorem agreeItems_refl : ∀ items : List Json, agreeItems items items = true
  | [] => rfl
  | item :: rest => by rw [agreeItems, agrees_refl item, agreeItems_refl rest, Bool.and_self]

/-- Members agree with themselves. -/
theorem agreeMembers_refl : ∀ members : List (String × Json), agreeMembers members members = true
  | [] => rfl
  | (name, value) :: rest => by
    rw [agreeMembers, agrees_refl value, agreeMembers_refl rest, beq_self_eq_true, Bool.and_self, Bool.and_self]

end

/-! ## Values that agree -/

mutual

/-- Values that agree have equally many zeros of binary64. -/
theorem length_zeroSigns_of_agrees : ∀ {a b : Json}, a.agrees b = true → a.zeroSigns.length = b.zeroSigns.length
  | .null, b, h => by
    cases b <;> first | rfl | cases h
  | .bool value, b, h => by
    cases b <;> first | rfl | cases h
  | .number value, b, h => by
    cases b with
    | number other => exact Number.length_zeroSigns_of_same h
    | _ => cases h
  | .text value, b, h => by
    cases b <;> first | rfl | cases h
  | .array items, b, h => by
    cases b with
    | array others => exact length_zeroSignsItems_of_agree h
    | _ => cases h
  | .object members, b, h => by
    cases b with
    | object others => exact length_zeroSignsMembers_of_agree h
    | _ => cases h

/-- Items that agree have equally many zeros of binary64. -/
theorem length_zeroSignsItems_of_agree :
    ∀ {as bs : List Json}, agreeItems as bs = true → (zeroSignsItems as).length = (zeroSignsItems bs).length
  | [], bs, h => by
    cases bs with
    | nil => rfl
    | cons b bs => cases h
  | a :: as, bs, h => by
    cases bs with
    | nil => cases h
    | cons b bs =>
      rw [agreeItems, Bool.and_eq_true] at h
      rw [zeroSignsItems, zeroSignsItems, List.length_append, List.length_append, length_zeroSigns_of_agrees h.1,
        length_zeroSignsItems_of_agree h.2]

/-- Members that agree have equally many zeros of binary64. -/
theorem length_zeroSignsMembers_of_agree :
    ∀ {as bs : List (String × Json)},
      agreeMembers as bs = true → (zeroSignsMembers as).length = (zeroSignsMembers bs).length
  | [], bs, h => by
    cases bs with
    | nil => rfl
    | cons b bs => cases h
  | (name, a) :: as, bs, h => by
    cases bs with
    | nil => cases h
    | cons member bs =>
      rw [agreeMembers, Bool.and_eq_true, Bool.and_eq_true] at h
      rw [zeroSignsMembers, zeroSignsMembers, List.length_append, List.length_append,
        length_zeroSigns_of_agrees h.1.2, length_zeroSignsMembers_of_agree h.2]

end

mutual

/-- Values that agree, with the same signs of zeros, are the same value. -/
theorem eq_of_agrees : ∀ {a b : Json}, a.agrees b = true → a.zeroSigns = b.zeroSigns → a = b
  | .null, b, h, _ => by
    cases b <;> first | rfl | cases h
  | .bool value, b, h, _ => by
    cases b with
    | bool other => rw [beq_iff_eq.mp h]
    | _ => cases h
  | .number value, b, h, hsigns => by
    cases b with
    | number other => rw [Number.eq_of_same h hsigns]
    | _ => cases h
  | .text value, b, h, _ => by
    cases b with
    | text other => rw [beq_iff_eq.mp h]
    | _ => cases h
  | .array items, b, h, hsigns => by
    cases b with
    | array others => rw [eq_of_agreeItems h hsigns]
    | _ => cases h
  | .object members, b, h, hsigns => by
    cases b with
    | object others => rw [eq_of_agreeMembers h hsigns]
    | _ => cases h

/-- Items that agree, with the same signs of zeros, are the same items. -/
theorem eq_of_agreeItems :
    ∀ {as bs : List Json}, agreeItems as bs = true → zeroSignsItems as = zeroSignsItems bs → as = bs
  | [], bs, h, _ => by
    cases bs with
    | nil => rfl
    | cons b bs => cases h
  | a :: as, bs, h, hsigns => by
    cases bs with
    | nil => cases h
    | cons b bs =>
      rw [agreeItems, Bool.and_eq_true] at h
      rw [zeroSignsItems, zeroSignsItems] at hsigns
      obtain ⟨hfirst, hrest⟩ := List.append_inj hsigns (length_zeroSigns_of_agrees h.1)
      rw [eq_of_agrees h.1 hfirst, eq_of_agreeItems h.2 hrest]

/-- Members that agree, with the same signs of zeros, are the same members. -/
theorem eq_of_agreeMembers :
    ∀ {as bs : List (String × Json)}, agreeMembers as bs = true → zeroSignsMembers as = zeroSignsMembers bs → as = bs
  | [], bs, h, _ => by
    cases bs with
    | nil => rfl
    | cons b bs => cases h
  | (name, a) :: as, bs, h, hsigns => by
    cases bs with
    | nil => cases h
    | cons member bs =>
      obtain ⟨other, b⟩ := member
      rw [agreeMembers, Bool.and_eq_true, Bool.and_eq_true, beq_iff_eq] at h
      rw [zeroSignsMembers, zeroSignsMembers] at hsigns
      obtain ⟨hfirst, hrest⟩ := List.append_inj hsigns (length_zeroSigns_of_agrees h.1.2)
      rw [h.1.1, eq_of_agrees h.1.2 hfirst, eq_of_agreeMembers h.2 hrest]

end

/-- Values that are the same have the same sorted form exactly when the zeros in it have the same signs. -/
theorem sorted_eq_iff_of_same {a b : Json} (h : a.same b = true) :
    a.sorted = b.sorted ↔ a.sorted.zeroSigns = b.sorted.zeroSigns :=
  ⟨congrArg zeroSigns, eq_of_agrees h⟩

/-- Values with the same sorted form are the same. -/
theorem same_of_sorted_eq {a b : Json} (h : a.sorted = b.sorted) : a.same b = true := by
  rw [same, h]
  exact agrees_refl b.sorted

end Json

end TestDouble
