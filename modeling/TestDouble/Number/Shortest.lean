import TestDouble.Number.Binary64

/-!
# The shortest decimal of a binary64 number

A decimal reads back as a magnitude when it rounds to it. The shortest decimal of a magnitude has the fewest digits among
those that read back; of two with equally many digits the nearer one is taken, and the one with the even last digit where
both are equally near.
-/

namespace TestDouble

/-- A positive decimal number in scientific form: its digits, of which the first stands for a multiple of ten to the power
`lead`. -/
structure Decimal where
  /-- The digits, from the first to the last. -/
  digits : List Char
  /-- The power of ten that the first digit counts. -/
  lead : Int
  deriving DecidableEq

namespace Decimal

/-- The decimal `coefficient * 10 ^ exponent`, without zeros at the end. -/
def ofCoefficient (coefficient : Nat) (exponent : Int) : Decimal :=
  let digits := Nat.toDigits 10 coefficient
  { digits := (digits.reverse.dropWhile (· == '0')).reverse
    lead := exponent + digits.length - 1 }

/-- The rank of the magnitude that `coefficient * 10 ^ exponent` rounds to. -/
def rankOf (coefficient : Nat) : Int → Nat
  | .ofNat exponent => Binary64.roundedRank (coefficient * Nat.pow 10 exponent) 1
  | .negSucc exponent => Binary64.roundedRank coefficient (Nat.pow 10 (exponent + 1))

end Decimal

namespace Binary64

/-- The power of ten of the first decimal digit of a positive magnitude. No positive magnitude lies below 10 ^ -324, so shifted
by 324 places every one of them has a first digit before the point. -/
def leadingExponent (rank : Nat) : Int :=
  (Nat.toDigits 10 (unitsOf rank * Nat.pow 10 324 / unitsPerOne)).length - 325

/-- A magnitude as a quotient by ten to a power. -/
def overPower (rank : Nat) : Int → Nat × Nat
  | .ofNat exponent => (unitsOf rank, unitsPerOne * Nat.pow 10 exponent)
  | .negSucc exponent => (unitsOf rank * Nat.pow 10 (exponent + 1), unitsPerOne)

/-- Of the two neighbours of a quotient on the grid of decimals with one exponent, the one that reads back as a magnitude, and
the nearer one where both do. -/
def neighbour? (rank : Nat) (exponent : Int) (dividend divisor : Nat) : Option (Nat × Int) :=
  let below := dividend / divisor
  let above := below + 1
  match Decimal.rankOf below exponent == rank, Decimal.rankOf above exponent == rank with
  | true, true => some (nearest dividend divisor, exponent)
  | true, false => some (below, exponent)
  | false, true => some (above, exponent)
  | false, false => none

/-- The decimal with a given number of digits that reads back as a magnitude and is nearest to it, if one reads back: only the
two neighbours of the magnitude on the grid of such decimals can. -/
def decimalWith? (rank count : Nat) : Option (Nat × Int) :=
  let exponent := leadingExponent rank - count + 1
  let quotient := overPower rank exponent
  neighbour? rank exponent quotient.1 quotient.2

/-- The shortest decimal of a positive magnitude. Seventeen digits are always enough; the magnitude written out in full closes
the search. -/
def shortest (rank : Nat) : Decimal :=
  let found := (List.range 17).findSome? (fun count => decimalWith? rank (count + 1))
  let pair := found.getD (unitsOf rank * Nat.pow 5 1074, -1074)
  Decimal.ofCoefficient pair.1 pair.2

end Binary64

end TestDouble
