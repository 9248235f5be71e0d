import TestDouble.Number.Numeral

/-!
# Dates and times

A moment is a date, a time of day, or a date with a time after it. Years have four digits and every other part has two;
seconds may be left out, and a fraction may follow them. Only a time after a date may have an offset from universal time.
Whether the parts are in range is part of the form: a day must exist in its month, a second may be the sixtieth, and an
offset has the hours and minutes of a day.
-/

namespace TestDouble.Toml

namespace Moment

/-- A number of a given count of digits at the start of a text, and what follows it. -/
def number? (count : Nat) (source : List Char) : Option (Nat × List Char) :=
  let digits := source.take count
  if digits.length == count && digits.all Char.isDigit then some (Numeral.valueOf digits, source.drop count) else none

/-- What follows a given character at the start of a text. -/
def after? (mark : Char) : List Char → Option (List Char)
  | [] => none
  | c :: rest => if c = mark then some rest else none

/-- Whether a year has a twenty-ninth of February. -/
def isLeap (year : Nat) : Bool := year % 4 == 0 && (year % 100 != 0 || year % 400 == 0)

/-- The number of days of a month. -/
def daysIn (year month : Nat) : Nat :=
  if month = 2 then if isLeap year then 29 else 28
  else if month = 4 ∨ month = 6 ∨ month = 9 ∨ month = 11 then 30
  else 31

/-- What follows a date at the start of a text. -/
def afterDate? (source : List Char) : Option (List Char) := do
  let (year, rest) ← number? 4 source
  let (month, rest) ← number? 2 (← after? '-' rest)
  let (day, rest) ← number? 2 (← after? '-' rest)
  if 1 ≤ month ∧ month ≤ 12 ∧ 1 ≤ day ∧ day ≤ daysIn year month then some rest else none

/-- What follows the fraction of a second, if a point says that there is one. -/
def afterFraction? : List Char → Option (List Char)
  | '.' :: c :: rest => if c.isDigit then some (rest.dropWhile Char.isDigit) else none
  | '.' :: [] => none
  | rest => some rest

/-- What follows the seconds of a time, if a colon says that there are some. -/
def afterSeconds? : List Char → Option (List Char)
  | ':' :: rest => do
    let (second, after) ← number? 2 rest
    if second ≤ 60 then afterFraction? after else none
  | rest => some rest

/-- What follows a time of day at the start of a text. -/
def afterTime? (source : List Char) : Option (List Char) := do
  let (hour, rest) ← number? 2 source
  let (minute, rest) ← number? 2 (← after? ':' rest)
  if hour ≤ 23 ∧ minute ≤ 59 then afterSeconds? rest else none

/-- Whether a text is an offset written in hours and minutes. -/
def isSpan (source : List Char) : Bool :=
  let inRange : Option Bool := do
    let (hours, rest) ← number? 2 source
    let (minutes, rest) ← number? 2 (← after? ':' rest)
    return decide (hours ≤ 23 ∧ minutes ≤ 59) && rest.isEmpty
  inRange.getD false

/-- Whether a text is an offset from universal time, or nothing. -/
def isOffset : List Char → Bool
  | [] => true
  | ['Z'] => true
  | ['z'] => true
  | '+' :: rest => isSpan rest
  | '-' :: rest => isSpan rest
  | _ => false

/-- Whether what follows a date is nothing, or a time of day with or without an offset. -/
def isRest : List Char → Bool
  | [] => true
  | c :: rest => (c == 'T' || c == 't' || c == ' ') && (afterTime? rest).any isOffset

end Moment

/-- Whether a text is a date, a time of day, or both. -/
def isMoment (source : List Char) : Bool :=
  (Moment.afterDate? source).any Moment.isRest || (Moment.afterTime? source).any List.isEmpty

end TestDouble.Toml
