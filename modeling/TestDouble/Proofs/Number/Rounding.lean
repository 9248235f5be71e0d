import TestDouble.Number.Numeral

/-!
# Rounding and the shortest decimal

A quotient and the quotient of the same multiples round alike, and a magnitude rounds to itself. So the decimal that
`Binary64.shortest` finds reads back as the magnitude it was found for (`rank_shortest`), whichever way the search ends.
-/

namespace TestDouble

namespace Binary64

/-! ## Rounding a quotient -/

/-- Rounding depends on the quotient alone: a common factor changes nothing. -/
theorem nearest_mul_right (dividend divisor : Nat) {k : Nat} (hk : 0 < k) :
    nearest (dividend * k) (divisor * k) = nearest dividend divisor := by
  have hwhole : dividend * k / (divisor * k) = dividend / divisor := Nat.mul_div_mul_right dividend divisor hk
  have hrest : 2 * (dividend * k % (divisor * k)) = 2 * (dividend % divisor) * k := by
    rw [Nat.mul_mod_mul_right, Nat.mul_assoc]
  unfold nearest
  rw [hwhole, hrest]
  by_cases hbelow : 2 * (dividend % divisor) < divisor
  · rw [if_pos hbelow, if_pos (Nat.mul_lt_mul_of_pos_right hbelow hk)]
  · have hbelow' : ¬2 * (dividend % divisor) * k < divisor * k := fun h => hbelow (Nat.lt_of_mul_lt_mul_right h)
    rw [if_neg hbelow, if_neg hbelow']
    by_cases habove : divisor < 2 * (dividend % divisor)
    · rw [if_pos habove, if_pos (Nat.mul_lt_mul_of_pos_right habove hk)]
    · have habove' : ¬divisor * k < 2 * (dividend % divisor) * k := fun h => habove (Nat.lt_of_mul_lt_mul_right h)
      rw [if_neg habove, if_neg habove']

/-- A whole quotient is left as it is. -/
theorem nearest_mul_self (whole : Nat) {divisor : Nat} (h : 0 < divisor) : nearest (whole * divisor) divisor = whole := by
  unfold nearest
  rw [Nat.mul_mod_left, Nat.mul_div_cancel whole h, if_pos h]

/-- A quotient is rounded to one of the two whole numbers around it. -/
theorem nearest_eq_or (dividend divisor : Nat) :
    nearest dividend divisor = dividend / divisor ∨ nearest dividend divisor = dividend / divisor + 1 := by
  simp only [nearest]
  split
  · exact Or.inl rfl
  · split
    · exact Or.inr rfl
    · have hparity : dividend / divisor % 2 = 0 ∨ dividend / divisor % 2 = 1 := Nat.mod_two_eq_zero_or_one _
      rcases hparity with h | h
      · exact Or.inl (by rw [h, Nat.add_zero])
      · exact Or.inr (by rw [h])

/-- The rank of a rounded quotient depends on the quotient alone. -/
theorem roundedRank_mul_right (dividend divisor : Nat) {k : Nat} (hk : 0 < k) :
    roundedRank (dividend * k) (divisor * k) = roundedRank dividend divisor := by
  have hunits : dividend * k * unitsPerOne = dividend * unitsPerOne * k := Nat.mul_right_comm dividend k unitsPerOne
  have hwhole : dividend * unitsPerOne * k / (divisor * k) = dividend * unitsPerOne / divisor :=
    Nat.mul_div_mul_right _ _ hk
  unfold roundedRank
  simp only [hunits, hwhole]
  rw [Nat.mul_right_comm divisor k, nearest_mul_right _ _ hk]

/-- Zero rounds to zero. -/
theorem roundedRank_zero (divisor : Nat) : roundedRank 0 divisor = 0 := by
  have hnearest (d : Nat) : nearest 0 d = 0 := by
    rcases Nat.eq_zero_or_pos d with rfl | hd
    · rfl
    · have hzero := nearest_mul_self 0 hd
      rwa [Nat.zero_mul] at hzero
  unfold roundedRank
  simp only [Nat.zero_mul, Nat.zero_div, hnearest, Nat.log2_zero, Nat.zero_sub]

/-! ## A magnitude rounds to itself -/

theorem ranksPerScale_eq : ranksPerScale = 4503599627370496 := rfl

theorem unitsPerOne_pos : 0 < unitsPerOne := Nat.pow_pos Nat.zero_lt_two

/-- Among the first ranks a magnitude is its rank in units. -/
theorem unitsOf_of_lt {rank : Nat} (h : rank < ranksPerScale) : unitsOf rank = rank := by
  have hscale : scaleOf rank = 0 := by rw [scaleOf, Nat.div_eq_of_lt h]
  rw [unitsOf, significandOf, if_pos h, hscale]
  exact Nat.mul_one rank

/-- Beyond the first ranks the leading bit of a significand is the bit above the fifty-two others. -/
theorem significandOf_bounds {rank : Nat} (h : ¬rank < ranksPerScale) :
    ranksPerScale ≤ significandOf rank ∧ significandOf rank < 2 * ranksPerScale := by
  rw [significandOf, if_neg h, ranksPerScale_eq]
  omega

/-- Beyond the first ranks the scale of a magnitude is read off its leading bit. -/
theorem log2_unitsOf {rank : Nat} (h : ¬rank < ranksPerScale) : (unitsOf rank).log2 = scaleOf rank + 52 := by
  obtain ⟨hlow, hhigh⟩ := significandOf_bounds h
  rw [ranksPerScale_eq] at hlow hhigh
  have hpos : 0 < 2 ^ scaleOf rank := Nat.two_pow_pos (scaleOf rank)
  have hunits : unitsOf rank = significandOf rank * 2 ^ scaleOf rank := rfl
  have hne : unitsOf rank ≠ 0 := by
    have hsignificand : 0 < significandOf rank := by omega
    rw [hunits]
    exact Nat.ne_of_gt (Nat.mul_pos hsignificand hpos)
  rw [Nat.log2_eq_iff hne, hunits]
  constructor
  · calc 2 ^ (scaleOf rank + 52) = 2 ^ 52 * 2 ^ scaleOf rank := by rw [Nat.pow_add, Nat.mul_comm]
      _ ≤ significandOf rank * 2 ^ scaleOf rank := Nat.mul_le_mul_right _ hlow
  · calc significandOf rank * 2 ^ scaleOf rank < 2 ^ 53 * 2 ^ scaleOf rank := Nat.mul_lt_mul_of_pos_right hhigh hpos
      _ = 2 ^ (scaleOf rank + 52 + 1) := by rw [Nat.add_assoc, Nat.pow_add 2 (scaleOf rank), Nat.mul_comm]

/-- A rank is put together again from its scale and its significand. -/
theorem scaleOf_mul_add_significandOf {rank : Nat} (h : ¬rank < ranksPerScale) :
    scaleOf rank * ranksPerScale + significandOf rank = rank := by
  rw [significandOf, if_neg h, scaleOf]
  rw [ranksPerScale_eq] at h ⊢
  omega

/-- A magnitude, taken exactly, rounds to its own rank. -/
theorem roundedRank_unitsOf (rank : Nat) : roundedRank (unitsOf rank) unitsPerOne = rank := by
  unfold roundedRank
  simp only [Nat.mul_div_cancel _ unitsPerOne_pos]
  by_cases h : rank < ranksPerScale
  · have hscale : (unitsOf rank).log2 - 52 = 0 := by
      rw [unitsOf_of_lt h]
      rcases Nat.eq_zero_or_pos rank with rfl | hpos
      · rfl
      · have hlt : rank.log2 < 52 := (Nat.log2_lt (Nat.ne_of_gt hpos)).mpr h
        omega
    have hone : Nat.pow 2 0 = 1 := rfl
    rw [hscale, unitsOf_of_lt h, hone, Nat.mul_one, nearest_mul_self rank unitsPerOne_pos, Nat.zero_mul, Nat.zero_add]
  · have hscale : (unitsOf rank).log2 - 52 = scaleOf rank := by rw [log2_unitsOf h, Nat.add_sub_cancel]
    have hexact : unitsOf rank * unitsPerOne = significandOf rank * (unitsPerOne * Nat.pow 2 (scaleOf rank)) := by
      rw [unitsOf, Nat.mul_assoc, Nat.mul_comm unitsPerOne]
    have hpos : 0 < unitsPerOne * Nat.pow 2 (scaleOf rank) := Nat.mul_pos unitsPerOne_pos (Nat.two_pow_pos _)
    rw [hscale, hexact, nearest_mul_self _ hpos, scaleOf_mul_add_significandOf h]

end Binary64

namespace Decimal

/-! ## The magnitude that a decimal reads back as -/

/-- Zero reads back as zero, whatever the exponent. -/
theorem rankOf_zero (exponent : Int) : rankOf 0 exponent = 0 := by
  cases exponent with
  | ofNat e => rw [rankOf, Nat.zero_mul, Binary64.roundedRank_zero]
  | negSucc e => rw [rankOf, Binary64.roundedRank_zero]

/-- A factor of ten in the coefficient is one more in the exponent. -/
theorem rankOf_mul_ten (coefficient : Nat) (exponent : Int) :
    rankOf (coefficient * 10) exponent = rankOf coefficient (exponent + 1) := by
  match exponent with
  | .ofNat e =>
    have hstep : Int.ofNat e + 1 = Int.ofNat (e + 1) := rfl
    have hpow : Nat.pow 10 (e + 1) = Nat.pow 10 e * 10 := rfl
    rw [hstep, rankOf, rankOf, hpow, Nat.mul_assoc, Nat.mul_comm 10]
  | .negSucc 0 =>
    have hstep : Int.negSucc 0 + 1 = Int.ofNat 0 := rfl
    have hone : Nat.pow 10 0 = 1 := rfl
    rw [hstep, rankOf, rankOf, hone, Nat.mul_one]
    exact Binary64.roundedRank_mul_right coefficient 1 (by decide)
  | .negSucc (e + 1) =>
    have hstep : Int.negSucc (e + 1) + 1 = Int.negSucc e := rfl
    have hpow : Nat.pow 10 (e + 1 + 1) = Nat.pow 10 (e + 1) * 10 := rfl
    rw [hstep, rankOf, rankOf, hpow]
    exact Binary64.roundedRank_mul_right coefficient _ (by decide)

/-- A power of ten in the coefficient counts in the exponent. -/
theorem rankOf_mul_pow (coefficient k : Nat) (exponent : Int) :
    rankOf (coefficient * Nat.pow 10 k) exponent = rankOf coefficient (exponent + k) := by
  induction k generalizing coefficient with
  | zero =>
    have hone : Nat.pow 10 0 = 1 := rfl
    rw [hone, Nat.mul_one, Int.natCast_zero, Int.add_zero]
  | succ k ih =>
    have hpow : coefficient * Nat.pow 10 (k + 1) = coefficient * 10 * Nat.pow 10 k := by
      have hsucc : Nat.pow 10 (k + 1) = Nat.pow 10 k * 10 := rfl
      rw [hsucc, Nat.mul_comm _ 10, Nat.mul_assoc]
    have hshift : exponent + k + 1 = exponent + (k + 1 : Nat) := by omega
    rw [hpow, ih, rankOf_mul_ten, hshift]

/-- Reading digits from the left is what the core library does, with the factor on the other side. -/
theorem valueOf_eq_ofDigitChars (digits : List Char) : Numeral.valueOf digits = Nat.ofDigitChars 10 digits 0 := by
  rw [Numeral.valueOf, Nat.ofDigitChars_eq_foldl]
  congr 1
  funext value c
  rw [Numeral.digitValue, Nat.mul_comm]

/-- Zeros after the digits of a number multiply it by a power of ten. -/
theorem valueOf_append_zeros (digits : List Char) (k : Nat) :
    Numeral.valueOf (digits ++ Number.zeros k) = Numeral.valueOf digits * Nat.pow 10 k := by
  rw [valueOf_eq_ofDigitChars, valueOf_eq_ofDigitChars, Number.zeros, Nat.ofDigitChars_append,
    Nat.ofDigitChars_replicate_zero, Nat.mul_comm]
  rfl

/-- Zeros before the digits of a number change nothing. -/
theorem valueOf_zeros_append (k : Nat) (digits : List Char) :
    Numeral.valueOf (Number.zeros k ++ digits) = Numeral.valueOf digits := by
  rw [valueOf_eq_ofDigitChars, valueOf_eq_ofDigitChars, Number.zeros, Nat.ofDigitChars_append,
    Nat.ofDigitChars_replicate_zero, Nat.mul_zero]

theorem valueOf_toDigits (n : Nat) : Numeral.valueOf (Nat.toDigits 10 n) = n := by
  rw [valueOf_eq_ofDigitChars, Nat.ofDigitChars_ten_toDigits]

/-- The rank of the magnitude that a decimal reads back as. -/
def rank (d : Decimal) : Nat := rankOf (Numeral.valueOf d.digits) (d.lead + 1 - d.digits.length)

/-- Digits are the digits left when the zeros at their end are dropped, and those zeros. -/
theorem eq_append_zeros (digits : List Char) :
    ∃ k, digits = (digits.reverse.dropWhile (· == '0')).reverse ++ Number.zeros k := by
  refine ⟨(digits.reverse.takeWhile (· == '0')).length, ?_⟩
  have hzeros : digits.reverse.takeWhile (· == '0') = Number.zeros (digits.reverse.takeWhile (· == '0')).length := by
    rw [Number.zeros, List.eq_replicate_iff]
    refine ⟨rfl, fun c hc => ?_⟩
    exact beq_iff_eq.mp (List.all_eq_true.mp List.all_takeWhile c hc)
  have hsplit := congrArg List.reverse
    (List.takeWhile_append_dropWhile (p := (· == '0')) (l := digits.reverse))
  rw [List.reverse_append, List.reverse_reverse, hzeros, Number.zeros, List.reverse_replicate] at hsplit
  exact hsplit.symm

/-- Dropping the zeros at the end of a coefficient does not change what a decimal reads back as. -/
theorem rank_ofCoefficient (coefficient : Nat) (exponent : Int) :
    (ofCoefficient coefficient exponent).rank = rankOf coefficient exponent := by
  obtain ⟨k, hk⟩ := eq_append_zeros (Nat.toDigits 10 coefficient)
  have hdigits : Nat.toDigits 10 coefficient = (ofCoefficient coefficient exponent).digits ++ Number.zeros k := hk
  have hvalue : coefficient = Numeral.valueOf (ofCoefficient coefficient exponent).digits * Nat.pow 10 k := by
    rw [← valueOf_append_zeros, ← hdigits, valueOf_toDigits]
  have hlead : (ofCoefficient coefficient exponent).lead =
      exponent + (Nat.toDigits 10 coefficient).length - 1 := rfl
  have hlength : (Nat.toDigits 10 coefficient).length = (ofCoefficient coefficient exponent).digits.length + k := by
    rw [hdigits, List.length_append, Number.zeros, List.length_replicate]
  have hexponent : (ofCoefficient coefficient exponent).lead + 1 -
      (ofCoefficient coefficient exponent).digits.length = exponent + k := by
    omega
  rw [rank, hexponent, ← rankOf_mul_pow, ← hvalue]

end Decimal

namespace Binary64

/-! ## The shortest decimal -/

/-- A neighbour that is taken reads back as the magnitude it was looked for. -/
theorem rankOf_of_neighbour? {rank dividend divisor : Nat} {exponent : Int} {found : Nat × Int}
    (h : neighbour? rank exponent dividend divisor = some found) : Decimal.rankOf found.1 found.2 = rank := by
  simp only [neighbour?] at h
  split at h
  · rename_i hbelow habove
    obtain rfl := Option.some.inj h
    rcases nearest_eq_or dividend divisor with hn | hn
    · rw [hn]
      exact beq_iff_eq.mp hbelow
    · rw [hn]
      exact beq_iff_eq.mp habove
  · rename_i hbelow _
    obtain rfl := Option.some.inj h
    exact beq_iff_eq.mp hbelow
  · rename_i _ habove
    obtain rfl := Option.some.inj h
    exact beq_iff_eq.mp habove
  · cases h

/-- A number of units over a power of two, written as a decimal in full. -/
theorem rankOf_mul_five_pow (units : Nat) {n : Nat} (hn : 0 < n) :
    Decimal.rankOf (units * Nat.pow 5 n) (-n) = roundedRank units (Nat.pow 2 n) := by
  obtain ⟨m, rfl⟩ := Nat.exists_eq_succ_of_ne_zero (Nat.ne_of_gt hn)
  have hten : Nat.pow 10 (m + 1) = Nat.pow 2 (m + 1) * Nat.pow 5 (m + 1) := Nat.mul_pow 2 5 (m + 1)
  have hexponent : -((m + 1 : Nat) : Int) = Int.negSucc m := rfl
  have hfive : 0 < Nat.pow 5 (m + 1) := Nat.pow_pos (by decide)
  rw [Nat.succ_eq_add_one, hexponent, Decimal.rankOf, hten, roundedRank_mul_right units _ hfive]

/-- The shortest decimal of a magnitude reads back as that magnitude. -/
theorem rank_shortest (rank : Nat) : (shortest rank).rank = rank := by
  have hfull : Decimal.rankOf (unitsOf rank * Nat.pow 5 1074) (-1074) = rank :=
    (rankOf_mul_five_pow (unitsOf rank) (by decide)).trans (roundedRank_unitsOf rank)
  unfold shortest
  generalize unitsOf rank * Nat.pow 5 1074 = full at hfull ⊢
  generalize hfound : (List.range 17).findSome? (fun count => decimalWith? rank (count + 1)) = found
  cases found with
  | some pair =>
    obtain ⟨count, -, hcount⟩ := List.exists_of_findSome?_eq_some hfound
    exact (Decimal.rank_ofCoefficient pair.1 pair.2).trans (rankOf_of_neighbour? hcount)
  | none => exact (Decimal.rank_ofCoefficient full (-1074)).trans hfull

end Binary64

end TestDouble
