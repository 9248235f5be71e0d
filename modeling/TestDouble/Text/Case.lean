/-!
# Letter case

Case is a matter of the twenty-six ASCII letters here: every other character, letters with accents included, is left alone.
-/

namespace TestDouble.Text

/-- The text with its ASCII capitals lowered and every other character as it is. -/
def lowered (text : String) : String := text.map Char.toLower

/-- Lowering works character by character. -/
theorem toList_lowered (text : String) : (lowered text).toList = text.toList.map Char.toLower :=
  String.toList_map

/-- A lowered text, character by character. -/
theorem lowered_eq_iff {text other : String} : lowered text = other ↔ text.toList.map Char.toLower = other.toList := by
  rw [← String.toList_inj, toList_lowered]

/-! ## Characters -/

/-- A capital is lowered by moving it up to the small letters, and no other character is moved. -/
theorem toNat_toLower (c : Char) :
    65 ≤ c.toNat ∧ c.toNat ≤ 90 ∧ c.toLower.toNat = c.toNat + 32 ∨
      (c.toNat < 65 ∨ 90 < c.toNat) ∧ c.toLower.toNat = c.toNat := by
  have hcapital : c.val ≥ 'A'.val ∧ c.val ≤ 'Z'.val ↔ 65 ≤ c.toNat ∧ c.toNat ≤ 90 := by
    simp [UInt32.le_iff_toNat_le]
  have hstep : ('a'.val - 'A'.val).toNat = 32 := rfl
  unfold Char.toLower
  split
  · rename_i h
    obtain ⟨hlow, hhigh⟩ := hcapital.mp h
    refine Or.inl ⟨hlow, hhigh, ?_⟩
    rw [Char.toNat_mk, UInt32.toNat_add, Char.toNat_val, hstep]
    omega
  · rename_i h
    rw [hcapital] at h
    exact Or.inr ⟨by omega, rfl⟩

/-- The ASCII letters by their code points. -/
theorem isAlpha_iff (c : Char) :
    c.isAlpha = true ↔ 65 ≤ c.toNat ∧ c.toNat ≤ 90 ∨ 97 ≤ c.toNat ∧ c.toNat ≤ 122 := by
  have hcapital : c.isUpper = decide (c.val ≥ 'A'.val ∧ c.val ≤ 'Z'.val) := rfl
  have hsmall : c.isLower = (decide (c.val ≥ 'a'.val) && decide (c.val ≤ 'z'.val)) := rfl
  have hletter : c.isAlpha = (c.isUpper || c.isLower) := rfl
  simp [hletter, hcapital, hsmall, UInt32.le_iff_toNat_le]

/-- Lowering makes no letters and loses none. -/
theorem isAlpha_toLower (c : Char) : c.toLower.isAlpha = c.isAlpha := by
  have hlowered := toNat_toLower c
  rw [Bool.eq_iff_iff, isAlpha_iff, isAlpha_iff]
  omega

/-- Lowering makes no digits and loses none. -/
theorem isDigit_toLower (c : Char) : c.toLower.isDigit = c.isDigit := by
  have hlowered := toNat_toLower c
  have hnine : '9'.toNat = 57 := rfl
  rw [Bool.eq_iff_iff, Char.isDigit_iff_toNat, Char.isDigit_iff_toNat]
  omega

/-- Only the character itself is lowered to a character that is no letter. -/
theorem toLower_eq_iff {c d : Char} (hd : d.isAlpha = false) : c.toLower = d ↔ c = d := by
  have hlowered := toNat_toLower c
  rw [← Bool.not_eq_true, isAlpha_iff] at hd
  rw [← Char.toNat_inj, ← Char.toNat_inj]
  omega

/-- A character that is lowered stays as it is. -/
theorem toLower_toLower (c : Char) : c.toLower.toLower = c.toLower := by
  have hlowered := toNat_toLower c
  have hagain := toNat_toLower c.toLower
  rw [← Char.toNat_inj]
  omega

/-- A text that is lowered stays as it is. -/
theorem lowered_lowered (text : String) : lowered (lowered text) = lowered text := by
  rw [← String.toList_inj, toList_lowered, toList_lowered, List.map_map]
  exact List.map_congr_left fun c _ => toLower_toLower c

end TestDouble.Text
