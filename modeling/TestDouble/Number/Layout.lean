import TestDouble.Number.Shortest

/-!
# The text of numbers

A number is an integer or a binary64 number, and the two are never equal. An integer is written in decimal. A binary64 number
is written with its shortest digits: positionally, always with a fraction, while the power of ten of its first digit lies in
the range of `positional`, and with an exponent beyond it. The text of a binary64 number therefore always holds a point or an
exponent mark, which no integer has.
-/

namespace TestDouble

/-- A number of a data value. -/
inductive Number where
  /-- A whole number, written without point and exponent. -/
  | integer (value : Int)
  /-- A binary64 number. -/
  | real (value : Binary64)
  deriving DecidableEq

namespace Number

/-- The powers of ten of the first digit for which a number is written positionally: the least and the greatest. -/
def positional : Int × Int := (-5, 15)

/-- A run of zeros. -/
def zeros (count : Nat) : List Char := List.replicate count '0'

/-- The digits of a whole number. -/
def wholeText : Int → List Char
  | .ofNat n => Nat.toDigits 10 n
  | .negSucc n => '-' :: Nat.toDigits 10 (n + 1)

/-- A decimal written positionally. -/
def positionalText (d : Decimal) : List Char :=
  match d.lead with
  | .ofNat lead =>
    let whole := lead + 1
    if d.digits.length ≤ whole then d.digits ++ zeros (whole - d.digits.length) ++ ['.', '0']
    else d.digits.take whole ++ '.' :: d.digits.drop whole
  | .negSucc gap => '0' :: '.' :: zeros gap ++ d.digits

/-- A decimal written with an exponent: one digit before the point, no point where no digit follows, and the exponent with its
sign. -/
def scientificText (d : Decimal) : List Char :=
  let fraction := if d.digits.length ≤ 1 then [] else '.' :: d.digits.drop 1
  let exponent :=
    match d.lead with
    | .ofNat e => '+' :: Nat.toDigits 10 e
    | .negSucc e => '-' :: Nat.toDigits 10 (e + 1)
  d.digits.take 1 ++ fraction ++ 'e' :: exponent

/-- A magnitude of a given rank. -/
def magnitudeText (rank : Nat) : List Char :=
  if rank = 0 then ['0', '.', '0']
  else
    let d := Binary64.shortest rank
    if positional.1 ≤ d.lead ∧ d.lead ≤ positional.2 then positionalText d else scientificText d

/-- A binary64 number. -/
def realText (value : Binary64) : List Char :=
  if value.negative then '-' :: magnitudeText value.rank else magnitudeText value.rank

/-- The text of a number. -/
def text : Number → List Char
  | .integer value => wholeText value
  | .real value => realText value

/-- Whether two numbers are the same: two integers, or two binary64 numbers. -/
def same : Number → Number → Bool
  | .integer a, .integer b => a == b
  | .real a, .real b => a.same b
  | _, _ => false

end Number

end TestDouble
