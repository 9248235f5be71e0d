/-!
# Finite binary64 numbers

A binary64 magnitude is known by its rank: zero has rank 0, the least positive number rank 1, and so on through all finite
magnitudes in increasing order. Every magnitude is a whole number of units of 2 ^ -1074, the least positive number, so that
exact arithmetic on magnitudes is arithmetic on natural numbers. Rounding goes to the nearest magnitude; a value halfway
between two goes to the one with the even rank.
-/

namespace TestDouble

namespace Binary64

/-- How many ranks share one spacing: a significand has fifty-two bits below its leading one. -/
def ranksPerScale : Nat := Nat.pow 2 52

/-- The number of finite magnitudes. -/
def rankCount : Nat := 2047 * ranksPerScale

/-- How many units make one. -/
def unitsPerOne : Nat := Nat.pow 2 1074

/-- The spacing of the numbers around a rank is 2 to this power, in units. -/
def scaleOf (rank : Nat) : Nat := rank / ranksPerScale - 1

/-- The significand of a rank: its magnitude as a multiple of the spacing around it. -/
def significandOf (rank : Nat) : Nat :=
  if rank < ranksPerScale then rank else ranksPerScale + rank % ranksPerScale

/-- The magnitude of a rank, in units. -/
def unitsOf (rank : Nat) : Nat := significandOf rank * Nat.pow 2 (scaleOf rank)

/-- The quotient rounded to a whole number, a half to the even one. -/
def nearest (dividend divisor : Nat) : Nat :=
  let whole := dividend / divisor
  let doubledRest := 2 * (dividend % divisor)
  if doubledRest < divisor then whole
  else if divisor < doubledRest then whole + 1
  else whole + whole % 2

/-- The rank of the magnitude nearest to a quotient. It is `rankCount` or more where the quotient is too large for binary64. -/
def roundedRank (dividend divisor : Nat) : Nat :=
  let units := dividend * unitsPerOne
  let scale := Nat.log2 (units / divisor) - 52
  scale * ranksPerScale + nearest units (divisor * Nat.pow 2 scale)

/-- The rank of the rounded product of two magnitudes. -/
def productRank (a b : Nat) : Nat := roundedRank (unitsOf a * unitsOf b) (unitsPerOne * unitsPerOne)

/-- The rank of the rounded quotient of two magnitudes. -/
def quotientRank (a b : Nat) : Nat := roundedRank (unitsOf a) (unitsOf b)

end Binary64

/-- A finite binary64 number: a sign and a magnitude. Zero has both signs. -/
structure Binary64 where
  /-- The sign is minus. -/
  negative : Bool
  /-- The rank of the magnitude. -/
  rank : Nat
  /-- The magnitude is finite. -/
  finite : rank < Binary64.rankCount
  deriving DecidableEq

namespace Binary64

/-- The number with a sign and a rank, unless the rank is that of no finite number. -/
def ofRank? (negative : Bool) (rank : Nat) : Option Binary64 :=
  if h : rank < rankCount then some ⟨negative, rank, h⟩ else none

/-- Whether two numbers are the same number. The two zeros are. -/
def same (a b : Binary64) : Bool := a.rank == b.rank && (a.negative == b.negative || a.rank == 0)

end Binary64

end TestDouble
