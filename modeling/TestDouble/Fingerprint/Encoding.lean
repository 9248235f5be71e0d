import TestDouble.Fingerprint

/-!
# The bytes of a fingerprint

A fingerprint is written as bytes for hashing. Counts and lengths take eight bytes, the lowest first, and stand in front of
what they count; a text is its UTF-8 form; what may be absent or of several kinds starts with one byte that says which. So no
field can run into the next one.
-/

namespace TestDouble.Fingerprint

/-- The lowest bytes of a number, a given number of them, the lowest first. -/
def lowBytes : Nat → Nat → List UInt8
  | 0, _ => []
  | count + 1, value => UInt8.ofNat (value % 256) :: lowBytes count (value / 256)

/-- A count or length. -/
def countBytes (count : Nat) : List UInt8 := lowBytes 8 count

/-- A line number. -/
def lineBytes (line : UInt32) : List UInt8 := lowBytes 4 line.toNat

/-- A text with its length. -/
def textBytes (text : String) : List UInt8 :=
  let bytes := text.toUTF8.data.toList
  countBytes bytes.length ++ bytes

/-- A text that may be absent. -/
def optionBytes : Option String → List UInt8
  | none => [0]
  | some text => 1 :: textBytes text

/-- A truth value. -/
def flagByte (flag : Bool) : UInt8 := if flag then 1 else 0

/-- A list with its length. -/
def listBytes {α : Type} (bytes : α → List UInt8) (items : List α) : List UInt8 :=
  countBytes items.length ++ items.flatMap bytes

/-- A table: its entries, a name before its content. -/
def tableBytes {α : Type} (bytes : α → List UInt8) (table : SortedMap α) : List UInt8 :=
  listBytes (fun entry => textBytes entry.1 ++ bytes entry.2) table.entries

/-- A callable that may be absent. -/
def callableBytes : Option (Callable String) → List UInt8
  | none => [0]
  | some (.named reference) => 1 :: textBytes reference
  | some (.closure site) => 2 :: textBytes site.file ++ lineBytes site.startLine ++ lineBytes site.endLine

/-- A parameter. -/
def parameterBytes (p : Parameter) : List UInt8 :=
  textBytes p.name ++ [flagByte p.byReference, flagByte p.hasDefault, flagByte p.isVariadic] ++ optionBytes p.typeHint

/-- A custom method. -/
def methodBytes (m : CustomMethod String) : List UInt8 :=
  callableBytes m.callable ++ listBytes parameterBytes m.parameters ++ optionBytes m.returnType

/-- A fingerprint. -/
def bytes (f : Fingerprint) : List UInt8 :=
  listBytes textBytes f.types ++ tableBytes methodBytes f.methods ++ tableBytes methodBytes f.staticMethods ++
    tableBytes textBytes f.properties ++ tableBytes textBytes f.staticProperties ++ tableBytes textBytes f.constants ++
    optionBytes f.typeName

end TestDouble.Fingerprint
