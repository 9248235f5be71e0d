import TestDouble.Json

/-!
# The compact text of a data value

The text has no white space. In a string only the quote, the backslash and the control characters below the space are
escaped, the five usual ones by a letter and the others by their code point; all other characters stand for themselves. The
canonical text of a value is the compact text of its sorted form, so it does not depend on the order in which objects list
their members.
-/

namespace TestDouble.Json

/-- The characters that a letter after a backslash stands for, with the letter. -/
def shortEscapes : List (Char × Char) :=
  [('"', '"'), ('\\', '\\'), ('\x08', 'b'), ('\x0c', 'f'), ('\n', 'n'), ('\r', 'r'), ('\t', 't')]

/-- A character of a string, escaped where it has to be. -/
def escapeChar (c : Char) : List Char :=
  match shortEscapes.lookup c with
  | some letter => ['\\', letter]
  | none =>
    if c.toNat < 0x20 then ['\\', 'u', '0', '0', Nat.digitChar (c.toNat / 16), Nat.digitChar (c.toNat % 16)]
    else [c]

/-- A string in quotes. -/
def writeText (text : String) : List Char := '"' :: text.toList.flatMap escapeChar ++ ['"']

mutual

/-- The text of a value, the members of objects in the order they are listed. -/
def write : Json → List Char
  | .null => ['n', 'u', 'l', 'l']
  | .bool true => ['t', 'r', 'u', 'e']
  | .bool false => ['f', 'a', 'l', 's', 'e']
  | .number value => value.text
  | .text value => writeText value
  | .array items => '[' :: writeItems items ++ [']']
  | .object members => '{' :: writeMembers members ++ ['}']

/-- The items of an array, with commas between them. -/
def writeItems : List Json → List Char
  | [] => []
  | [item] => write item
  | item :: next :: rest => write item ++ ',' :: writeItems (next :: rest)

/-- The members of an object, with commas between them. -/
def writeMembers : List (String × Json) → List Char
  | [] => []
  | [(name, value)] => writeText name ++ ':' :: write value
  | (name, value) :: next :: rest => writeText name ++ ':' :: write value ++ ',' :: writeMembers (next :: rest)

end

/-- The compact text of a value, the members of objects in the order they are listed. -/
def compactText (value : Json) : String := String.ofList (write value)

/-- The canonical text of a value: its compact text with the members of every object in the order of their names. -/
def canonicalText (value : Json) : String := compactText value.sorted

end TestDouble.Json
