import TestDouble.Number.Layout

/-!
# Reading numerals

A numeral is a decimal number as it stands in a text. It is read in one of two ways. `Numeral.number?` keeps a numeral
without point and exponent exact while it fits 64 bits, and reads every other one as binary64 in two steps: the digits that
fit a 64-bit significand are rounded, then scaled by the exponent, each step with its own rounding. `Numeral.nearest?` rounds
the exact value once.
-/

namespace TestDouble

/-- A decimal number as written. -/
structure Numeral where
  /-- A minus sign stands in front. -/
  negative : Bool
  /-- The digits before the point. -/
  whole : List Char
  /-- The digits after the point. -/
  fraction : List Char
  /-- The power of ten written after the digits. -/
  exponent : Int
  /-- The numeral is written without point and exponent. -/
  integral : Bool
  deriving DecidableEq

namespace Numeral

/-- The value of a decimal digit. -/
def digitValue (c : Char) : Nat := c.toNat - '0'.toNat

/-- The number that decimal digits form. -/
def valueOf (digits : List Char) : Nat := digits.foldl (fun value c => value * 10 + digitValue c) 0

/-- The bound of a significand. -/
def significandBound : Nat := Nat.pow 2 64

/-- Takes digits into a significand while it stays below the bound; the rest of the digits is left. -/
def absorb (significand : Nat) : List Char → Nat × List Char
  | [] => (significand, [])
  | c :: rest =>
    let next := significand * 10 + digitValue c
    if next < significandBound then absorb next rest else (significand, c :: rest)

/-- The significand of a numeral and the power of ten that belongs to it. Digits before the point that no longer fit count as
powers of ten; digits after the point that no longer fit are dropped. -/
def significand (n : Numeral) : Nat × Int :=
  let (first, left) := absorb 0 n.whole
  let (full, dropped) := absorb first n.fraction
  (full, n.exponent + left.length - (n.fraction.length - dropped.length))

/-- The greatest power of ten that binary64 holds. -/
def greatestPower : Nat := 308

/-- The rank of a power of ten. -/
def powerRank (exponent : Nat) : Nat := Binary64.roundedRank (Nat.pow 10 exponent) 1

/-- Divides by a power of ten, by the greatest one as often as needed. -/
def scaleDown (rank exponent : Nat) : Nat :=
  if exponent ≤ greatestPower then Binary64.quotientRank rank (powerRank exponent)
  else if rank = 0 then 0
  else scaleDown (Binary64.quotientRank rank (powerRank greatestPower)) (exponent - greatestPower)
termination_by exponent
decreasing_by
  simp only [greatestPower] at *
  omega

/-- Scales a magnitude by a power of ten; the result may be the rank of no finite number. -/
def scale (rank : Nat) : Int → Nat
  | .ofNat exponent =>
    if rank = 0 then 0
    else if exponent ≤ greatestPower then Binary64.productRank rank (powerRank exponent)
    else Binary64.rankCount
  | .negSucc exponent => scaleDown rank (exponent + 1)

/-- The numeral as binary64, read in two steps; nothing where it is too large. -/
def real? (n : Numeral) : Option Number :=
  let (significand, exponent) := n.significand
  (Binary64.ofRank? n.negative (scale (Binary64.roundedRank significand 1) exponent)).map Number.real

/-- The number that a numeral stands for. A numeral without point and exponent is an integer from -2^63 to 2^64 - 1, apart from
minus zero; all else is binary64, or nothing where it is too large for that. -/
def number? (n : Numeral) : Option Number :=
  let value := valueOf n.whole
  if n.integral && !n.negative && decide (value < Nat.pow 2 64) then some (.integer value)
  else if n.integral && n.negative && decide (0 < value ∧ value ≤ Nat.pow 2 63) then some (.integer (-value))
  else n.real?

/-- Decimal exponents of the leading digit beyond these are those of no positive finite number. -/
def exponentRange : Int := 400

/-- The numeral as binary64, its exact value rounded once; nothing where it is too large. -/
def nearest? (n : Numeral) : Option Binary64 :=
  let digits := (n.whole ++ n.fraction).dropWhile (· == '0')
  let exponent := n.exponent - n.fraction.length
  let lead := exponent + digits.length
  if digits.isEmpty ∨ lead < -exponentRange then Binary64.ofRank? n.negative 0
  else if exponentRange < lead then none
  else Binary64.ofRank? n.negative (Decimal.rankOf (valueOf digits) exponent)

end Numeral

end TestDouble
