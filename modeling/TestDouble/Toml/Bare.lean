import TestDouble.Document
import TestDouble.Number.Numeral
import TestDouble.Text.Hexadecimal
import TestDouble.Text.Segments
import TestDouble.Toml.Moment

/-!
# Values without quotes

A bare value is a truth value, a number or a moment. Single underscores may part the digits of a number. A whole number has
no leading zeros in decimal, and no sign in hexadecimal, octal and binary. A number with a point has digits on both of its
sides.

A number may be well formed without having a value, and then it is unreadable. So is a number out of range, a base without
digits after it, and a decimal number whose underscores are well placed but which holds something else than digits behind the
first of them: where underscores stand is part of the form, what they part is part of the value.
-/

namespace TestDouble.Toml

/-- Whether underscores part a text as they part a number: a digit stands on both sides of each. -/
def isParted (isDigit : Char → Bool) (chars : List Char) : Bool :=
  let pieces := Text.segments (fun c => c == '_') chars
  pieces.tail.all (fun piece => piece.head?.any isDigit) && pieces.dropLast.all (fun piece => piece.getLast?.any isDigit)

/-- A text without its underscores. -/
def withoutUnderscores (chars : List Char) : List Char := chars.filter (fun c => c != '_')

/-- A text as digits; nothing if it is empty or holds anything else. -/
def digits? (chars : List Char) : Option (List Char) :=
  if !chars.isEmpty && chars.all Char.isDigit then some chars else none

/-- The sign in front of a text, whether it is a minus, and the text without it. -/
def sign : List Char → Bool × List Char
  | '-' :: rest => (true, rest)
  | '+' :: rest => (false, rest)
  | rest => (false, rest)

/-! ## Whole numbers -/

/-- The least and the greatest whole number that has a value. -/
def integerRange : Int × Int := (-Int.pow 2 127, Int.pow 2 128 - 1)

/-- The document of a whole number. -/
def integer (value : Int) : Document :=
  if integerRange.1 ≤ value ∧ value ≤ integerRange.2 then .number (.integer value) else .unreadable

/-- Whether a character is a digit of a base up to sixteen. -/
def isDigitOf (base : Nat) (c : Char) : Bool := (Text.hexValue? c).any (fun value => decide (value < base))

/-- Whether a character is a digit of the greatest base that a whole number can have. -/
def isWholeDigit (c : Char) : Bool := isDigitOf 16 c

/-- The number that digits of a base up to sixteen form. -/
def valueIn (base : Nat) (digits : List Char) : Nat :=
  digits.foldl (fun value c => value * base + (Text.hexValue? c).getD 0) 0

/-- A whole number written in a base other than ten; it is unreadable if there are no digits. -/
def based? (base : Nat) (chars : List Char) : Option Document :=
  let digits := withoutUnderscores chars
  if isParted isWholeDigit chars && digits.all (isDigitOf base) then
    some (if digits.isEmpty then .unreadable else integer (valueIn base digits))
  else none

/-- Whether a text without a sign starts as a decimal whole number does: with digits that are followed by nothing or by an
underscore, and of which the first is zero only if it is all there is. A space makes it no number, but a tab does not. -/
def startsWhole (unsigned : List Char) : Bool :=
  let (front, rest) := unsigned.span Char.isDigit
  if rest.isEmpty then !front.isEmpty && (front.head? != some '0' || front.length == 1)
  else rest.head? == some '_' && front.head? != some '0' && !rest.contains ' '

/-- A whole number written in base ten; it is unreadable if anything but digits stands behind an underscore. -/
def decimal? (chars : List Char) : Option Document :=
  let (negative, unsigned) := sign chars
  if startsWhole unsigned && isParted isWholeDigit chars then
    some (match digits? (withoutUnderscores unsigned) with
      | none => .unreadable
      | some digits =>
        let size : Int := Numeral.valueOf digits
        integer (if negative then -size else size))
  else none

/-! ## Numbers with a point or an exponent -/

/-- Whether a character marks an exponent. -/
def isExponentMark (c : Char) : Bool := c == 'e' || c == 'E'

/-- The digits after a point, if there is a point. -/
def fraction? : List Char → Option (List Char)
  | [] => some []
  | _ :: chars => digits? chars

/-- The power of ten after an exponent mark, if there is a mark. -/
def exponent? : List Char → Option Int
  | [] => some 0
  | _ :: chars =>
    let (negative, unsigned) := sign chars
    (digits? unsigned).map (fun digits =>
      let size : Int := Numeral.valueOf digits
      if negative then -size else size)

/-- The numeral of a number with a point or an exponent. A number that starts with a zero has no other digit in front of
these. -/
def numeral? (chars : List Char) : Option Numeral := do
  let (negative, unsigned) := sign chars
  let (mantissa, tail) := (withoutUnderscores unsigned).span (fun c => !isExponentMark c)
  let (front, back) := mantissa.span (fun c => c != '.')
  let whole ← digits? front
  let fraction ← fraction? back
  let exponent ← exponent? tail
  if unsigned.head? == some '0' && whole.length != 1 then none
  else return { negative, whole, fraction, exponent, integral := false }

/-- A number with a point or an exponent. -/
def real? (chars : List Char) : Option Document :=
  if isParted Char.isDigit chars then
    (numeral? chars).map (fun n => ((n.nearest?.map Number.real).map Document.number).getD .unreadable)
  else none

/-! ## Bare values -/

/-- The document of a number. A point or an exponent mark tells the numbers that may have a fraction, unless a base comes
first. -/
def number? : List Char → Option Document
  | '0' :: 'x' :: chars => based? 16 chars
  | '0' :: 'o' :: chars => based? 8 chars
  | '0' :: 'b' :: chars => based? 2 chars
  | chars => if chars.any (fun c => c == '.' || isExponentMark c) then real? chars else decimal? chars

/-- The names of an infinity and of what is not a number. -/
def notFiniteNames : List (List Char) := [['i', 'n', 'f'], ['n', 'a', 'n']]

/-- The document of a bare value. -/
def bare? (chars : List Char) : Option Document :=
  if chars = ['t', 'r', 'u', 'e'] then some (.bool true)
  else if chars = ['f', 'a', 'l', 's', 'e'] then some (.bool false)
  else if notFiniteNames.contains (sign chars).2 then some .notFinite
  else if isMoment chars then some .moment
  else number? chars

end TestDouble.Toml
