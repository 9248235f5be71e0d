import TestDouble.Document

/-!
# Reading values and records off documents

A reader takes a document to a value or fails. A record may be written as a record, with its fields in any order, or as a
list that holds its fields in their fixed order. Fields that the record does not know are passed over. A field that is
written twice, or whose name is no text, makes the record unreadable. What a field that is absent means is said by the reader
that asks for it: `required`, `withDefault` and `optional`.
-/

namespace TestDouble

/-- In what two formats of documents differ. -/
structure Dialect where
  /-- A list that stands for a record holds no more items than the record has fields. -/
  exactLists : Bool
  /-- Every part of a field that is passed over must have a value. -/
  readsUnknown : Bool
  deriving DecidableEq

namespace Dialect

/-- JSON text: lists are exact, and what is passed over need only be well formed. -/
def json : Dialect := ⟨true, false⟩

/-- TOML text: items beyond the fields of a record are left alone, and unknown fields must have a value. -/
def toml : Dialect := ⟨false, true⟩

end Dialect

/-- The fields of a record that are present, as far as the record knows them. -/
structure Fields where
  /-- The record was written with names, not as a list. -/
  named : Bool
  /-- The fields that are present. -/
  present : List (String × Document)

namespace Document

/-- The fields that a record knows among those written; nothing where a name is no text, a known field is written twice, or the
dialect asks for the value of an unknown field that has none. -/
def knownFields? (dialect : Dialect) (known : List String) :
    List (Option String × Document) → Option (List (String × Document))
  | [] => some []
  | (none, _) :: _ => none
  | (some name, value) :: rest =>
    match knownFields? dialect known rest with
    | none => none
    | some later =>
      if known.contains name then
        if (later.map Prod.fst).contains name then none else some ((name, value) :: later)
      else if dialect.readsUnknown && !value.isReadable then none
      else some later

/-- The fields of a document that stands for a record with known fields. -/
def fields? (dialect : Dialect) (known : List String) : Document → Option Fields
  | .record fields => (knownFields? dialect known fields).map (fun present => ⟨true, present⟩)
  | .list items =>
    if dialect.exactLists && decide (known.length < items.length) then none else some ⟨false, known.zip items⟩
  | .moment => some ⟨true, []⟩
  | _ => none

/-- A truth value. -/
def bool? : Document → Option Bool
  | .bool value => some value
  | _ => none

/-- A string. -/
def text? : Document → Option String
  | .text value => some value
  | _ => none

/-- A whole number of thirty-two bits. -/
def word? : Document → Option UInt32
  | .number (.integer value) => if 0 ≤ value ∧ value < Int.pow 2 32 then some (UInt32.ofNat value.toNat) else none
  | _ => none

/-- A list, each item read alike. -/
def list? {α : Type} (read : Document → Option α) : Document → Option (List α)
  | .list items => items.mapM read
  | _ => none

/-- A value that may be `null`. -/
def orNull? {α : Type} (read : Document → Option α) : Document → Option (Option α)
  | .null => some none
  | document => (read document).map some

/-- A choice among named alternatives: the name alone, or a record of the name and what belongs to it. -/
def choice? : Document → Option (String × Option Document)
  | .text name => some (name, none)
  | .record [(some name, content)] => some (name, some content)
  | _ => none

/-- A choice among names to which nothing belongs; `null` may stand for that nothing. -/
def name? (document : Document) : Option String :=
  match document.choice? with
  | some (name, none) => some name
  | some (name, some .null) => some name
  | _ => none

end Document

namespace Fields

variable {α : Type}

/-- The value of a field that must be present. -/
def required (fields : Fields) (name : String) (read : Document → Option α) : Option α :=
  (fields.present.lookup name).bind read

/-- The value of a field that has a default. -/
def withDefault (fields : Fields) (name : String) (default : α) (read : Document → Option α) : Option α :=
  match fields.present.lookup name with
  | none => some default
  | some value => read value

/-- The value of a field that may be `null`, and that may be absent where fields have names. -/
def optional (fields : Fields) (name : String) (read : Document → Option α) : Option (Option α) :=
  match fields.present.lookup name with
  | none => if fields.named then some none else none
  | some value => value.orNull? read

end Fields

end TestDouble
