import TestDouble.Json

/-!
# Documents

A document is the tree that the text of a descriptor or a configuration spells, before anything is asked of it. It keeps what
matters to a reader of records and a data value no longer has: fields that are written twice, and parts that are well formed
but stand for no value, which a reader may pass over as long as it has no use for them.
-/

namespace TestDouble

/-- A tree as written. -/
inductive Document where
  /-- The value `null`. -/
  | null
  /-- A truth value. -/
  | bool (value : Bool)
  /-- A number. -/
  | number (value : Number)
  /-- An infinity, or what is not a number. -/
  | notFinite
  /-- A string. -/
  | text (value : String)
  /-- A date or a time. Read as a record, it has no field that any record knows. -/
  | moment
  /-- A well-formed part without a value: a number out of range, or a string with half a surrogate pair. -/
  | unreadable
  /-- A list of items. -/
  | list (items : List Document)
  /-- Fields with their names, in the order written; a name without a value is absent. -/
  | record (fields : List (Option String × Document))
  deriving Inhabited

namespace Document

mutual

/-- Whether every part of a document has a value. -/
def isReadable : Document → Bool
  | .unreadable => false
  | .list items => areReadable items
  | .record fields => fieldsReadable fields
  | _ => true

/-- Whether every item has a value. -/
def areReadable : List Document → Bool
  | [] => true
  | item :: rest => isReadable item && areReadable rest

/-- Whether every field has a name and a value. -/
def fieldsReadable : List (Option String × Document) → Bool
  | [] => true
  | (name, value) :: rest => name.isSome && isReadable value && fieldsReadable rest

end

mutual

/-- The document of a data value. -/
def ofJson : Json → Document
  | .null => .null
  | .bool value => .bool value
  | .number value => .number value
  | .text value => .text value
  | .array items => .list (ofJsonItems items)
  | .object members => .record (ofJsonMembers members)

/-- The documents of the items of an array. -/
def ofJsonItems : List Json → List Document
  | [] => []
  | item :: rest => ofJson item :: ofJsonItems rest

/-- The fields of the members of an object. -/
def ofJsonMembers : List (String × Json) → List (Option String × Document)
  | [] => []
  | (name, value) :: rest => (some name, ofJson value) :: ofJsonMembers rest

end

mutual

/-- The data value that a document spells, if every part of it has a value that data can hold. Of members with one name the last
one counts. -/
def toJson? : Document → Option Json
  | .null => some .null
  | .bool value => some (.bool value)
  | .number value => some (.number value)
  | .text value => some (.text value)
  | .list items => (toJsonItems? items).map Json.array
  | .record fields => (toJsonMembers? fields).map (fun members => Json.object (OrderedMap.ofList members).entries)
  | .notFinite => none
  | .moment => none
  | .unreadable => none

/-- The data values of the items of a list. -/
def toJsonItems? : List Document → Option (List Json)
  | [] => some []
  | item :: rest =>
    match toJson? item, toJsonItems? rest with
    | some value, some values => some (value :: values)
    | _, _ => none

/-- The members that fields spell, in the order written. -/
def toJsonMembers? : List (Option String × Document) → Option (List (String × Json))
  | [] => some []
  | (name, value) :: rest =>
    match name, toJson? value, toJsonMembers? rest with
    | some name, some value, some members => some ((name, value) :: members)
    | _, _, _ => none

end

end Document

end TestDouble
