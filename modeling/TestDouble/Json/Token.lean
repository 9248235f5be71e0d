import TestDouble.Document
import TestDouble.Json.Writer
import TestDouble.Number.Numeral
import TestDouble.Text.Hexadecimal

/-!
# The tokens of JSON text

Between tokens stands any run of spaces, tabs and line ends. A string is one token and so is a numeral; a string whose
escapes spell half a surrogate pair, or a numeral out of range, is a token of an unreadable part. `tokens?` cuts a whole text
into its tokens, or fails where some piece of it is no token.
-/

namespace TestDouble.Json

/-- A token of JSON text. -/
inductive Token where
  /-- A part that is complete in itself and no string: `null`, a truth value or a number. -/
  | leaf (value : Document)
  /-- A string; absent where its escapes spell no text. -/
  | text (value : Option String)
  /-- An opening square bracket. -/
  | openList
  /-- A closing square bracket. -/
  | closeList
  /-- An opening curly bracket. -/
  | openRecord
  /-- A closing curly bracket. -/
  | closeRecord
  /-- A comma. -/
  | comma
  /-- A colon. -/
  | colon
  deriving Inhabited

/-- Characters that may stand between tokens. -/
def isGap (c : Char) : Bool := c == ' ' || c == '\t' || c == '\n' || c == '\r'

/-! ## Strings -/

/-- A piece of a string as written: a character, or a UTF-16 unit given by its number. -/
inductive Piece where
  /-- A character. -/
  | char (c : Char)
  /-- A UTF-16 unit. -/
  | unit (value : Nat)
  deriving DecidableEq

/-- The character that a letter after a backslash stands for. -/
def unescape? (letter : Char) : Option Char :=
  if letter = '/' then some '/'
  else (shortEscapes.find? (fun entry => entry.2 == letter)).map Prod.fst

/-- The pieces of a string up to its closing quote, and the text after the quote. -/
def pieces? : List Char → Option (List Piece × List Char)
  | [] => none
  | '"' :: rest => some ([], rest)
  | '\\' :: 'u' :: a :: b :: c :: d :: rest =>
    match Text.hexNumber? [a, b, c, d], pieces? rest with
    | some value, some (pieces, after) => some (.unit value :: pieces, after)
    | _, _ => none
  | '\\' :: letter :: rest =>
    match unescape? letter, pieces? rest with
    | some c, some (pieces, after) => some (.char c :: pieces, after)
    | _, _ => none
  | c :: rest =>
    if c.toNat < 0x20 then none
    else (pieces? rest).map (fun (pieces, after) => (.char c :: pieces, after))

/-- The first unit of a surrogate pair. -/
def isHighUnit (value : Nat) : Bool := decide (0xD800 ≤ value ∧ value < 0xDC00)

/-- The second unit of a surrogate pair. -/
def isLowUnit (value : Nat) : Bool := decide (0xDC00 ≤ value ∧ value < 0xE000)

/-- The characters that pieces spell; nothing where a unit of a surrogate pair stands without its other half. -/
def spell? : List Piece → Option (List Char)
  | [] => some []
  | .char c :: rest => (spell? rest).map (c :: ·)
  | .unit high :: .unit low :: rest =>
    if isHighUnit high then
      if isLowUnit low then
        (spell? rest).map (Char.ofNat (0x10000 + (high - 0xD800) * 0x400 + (low - 0xDC00)) :: ·)
      else none
    else if isLowUnit high then none
    else (spell? (.unit low :: rest)).map (Char.ofNat high :: ·)
  | .unit value :: rest =>
    if isHighUnit value || isLowUnit value then none else (spell? rest).map (Char.ofNat value :: ·)

/-! ## Numerals -/

/-- The decimal digits at the start of a text, and what follows them. -/
def digitRun (source : List Char) : List Char × List Char := source.span Char.isDigit

/-- The digits before the point: a single zero, or digits of which the first is not zero. -/
def wholeDigits? (source : List Char) : Option (List Char × List Char) :=
  match digitRun source with
  | ([], _) => none
  | (['0'], after) => some (['0'], after)
  | ('0' :: _, _) => none
  | (digits, after) => some (digits, after)

/-- The digits after a point, if a point follows: at least one. Says whether there was a point. -/
def fractionDigits? : List Char → Option (Bool × List Char × List Char)
  | '.' :: source =>
    match digitRun source with
    | ([], _) => none
    | (digits, after) => some (true, digits, after)
  | source => some (false, [], source)

/-- The exponent, if an exponent mark follows: at least one digit, with or without a sign. Says whether there was a mark. -/
def exponentPart? : List Char → Option (Bool × Int × List Char)
  | [] => some (false, 0, [])
  | mark :: source =>
    if mark = 'e' ∨ mark = 'E' then
      let (minus, unsigned) :=
        match source with
        | '-' :: rest => (true, rest)
        | '+' :: rest => (false, rest)
        | rest => (false, rest)
      match digitRun unsigned with
      | ([], _) => none
      | (digits, after) =>
        let size : Int := Numeral.valueOf digits
        some (true, if minus then -size else size, after)
    else some (false, 0, mark :: source)

/-- A numeral without its sign at the start of a text, and what follows it. -/
def numeral? (negative : Bool) (source : List Char) : Option (Numeral × List Char) :=
  match wholeDigits? source with
  | none => none
  | some (whole, afterWhole) =>
    match fractionDigits? afterWhole with
    | none => none
    | some (point, fraction, afterFraction) =>
      match exponentPart? afterFraction with
      | none => none
      | some (mark, exponent, after) => some (⟨negative, whole, fraction, exponent, !point && !mark⟩, after)

/-! ## Tokens -/

/-- The token of a numeral. -/
def numberToken (n : Numeral) : Token := .leaf ((n.number?.map Document.number).getD .unreadable)

/-- The token at the start of a text, and what follows it. -/
def token? : List Char → Option (Token × List Char)
  | '[' :: rest => some (.openList, rest)
  | ']' :: rest => some (.closeList, rest)
  | '{' :: rest => some (.openRecord, rest)
  | '}' :: rest => some (.closeRecord, rest)
  | ',' :: rest => some (.comma, rest)
  | ':' :: rest => some (.colon, rest)
  | 'n' :: 'u' :: 'l' :: 'l' :: rest => some (.leaf .null, rest)
  | 't' :: 'r' :: 'u' :: 'e' :: rest => some (.leaf (.bool true), rest)
  | 'f' :: 'a' :: 'l' :: 's' :: 'e' :: rest => some (.leaf (.bool false), rest)
  | '"' :: rest => (pieces? rest).map (fun (pieces, after) => (.text ((spell? pieces).map String.ofList), after))
  | '-' :: rest => (numeral? true rest).map (fun (n, after) => (numberToken n, after))
  | source => (numeral? false source).map (fun (n, after) => (numberToken n, after))

/-- A quote starts a string. -/
theorem token?_quote (rest : List Char) :
    token? ('"' :: rest) = (pieces? rest).map (fun (pieces, after) => (.text ((spell? pieces).map String.ofList), after)) := rfl

/-- A minus sign starts a numeral. -/
theorem token?_minus (rest : List Char) :
    token? ('-' :: rest) = (numeral? true rest).map (fun (n, after) => (numberToken n, after)) := rfl

/-- The tokens of a text of at most a given number of characters. -/
def tokensWithin? : Nat → List Char → Option (List Token)
  | 0, _ => some []
  | size + 1, source =>
    match source.dropWhile isGap with
    | [] => some []
    | start =>
      match token? start with
      | none => none
      | some (token, rest) => (tokensWithin? size rest).map (token :: ·)

/-- The tokens of a text. Each token takes at least one character, so the length of the text bounds their number. -/
def tokens? (source : List Char) : Option (List Token) := tokensWithin? (source.length + 1) source

end TestDouble.Json
