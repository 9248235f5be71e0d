import TestDouble.SortedMap
import TestDouble.Number.Layout

/-!
# Data values

A data value is a JSON value. The order in which an object lists its members carries no meaning: `Json.sorted` lists the
members of every object in the order of their names, and two values are the same when their sorted forms agree. Numbers agree
as `Number.same` says: an integer is never a binary64 number, and the two zeros of binary64 are one.
-/

namespace TestDouble

/-- A JSON value. -/
inductive Json where
  /-- The value `null`. -/
  | null
  /-- A truth value. -/
  | bool (value : Bool)
  /-- A number. -/
  | number (value : Number)
  /-- A string. -/
  | text (value : String)
  /-- An array. -/
  | array (items : List Json)
  /-- An object: members with their names. -/
  | object (members : List (String × Json))
  deriving Inhabited

namespace Json

mutual

/-- The value with the members of every object, at any depth, in the order of their names. -/
def sorted : Json → Json
  | .null => .null
  | .bool value => .bool value
  | .number value => .number value
  | .text value => .text value
  | .array items => .array (sortedItems items)
  | .object members => .object (sortEntries (sortedMembers members))

/-- Each item of an array in sorted form. -/
def sortedItems : List Json → List Json
  | [] => []
  | item :: rest => sorted item :: sortedItems rest

/-- Each member of an object in sorted form, the members in the order they have. -/
def sortedMembers : List (String × Json) → List (String × Json)
  | [] => []
  | (name, value) :: rest => (name, sorted value) :: sortedMembers rest

end

mutual

/-- Whether two values agree, members of objects taken in the order they are listed. -/
def agrees : Json → Json → Bool
  | .null, .null => true
  | .bool a, .bool b => a == b
  | .number a, .number b => a.same b
  | .text a, .text b => a == b
  | .array a, .array b => agreeItems a b
  | .object a, .object b => agreeMembers a b
  | _, _ => false

/-- Whether two arrays agree item by item. -/
def agreeItems : List Json → List Json → Bool
  | [], [] => true
  | a :: as, b :: bs => agrees a b && agreeItems as bs
  | _, _ => false

/-- Whether two lists of members agree one by one, names included. -/
def agreeMembers : List (String × Json) → List (String × Json) → Bool
  | [], [] => true
  | (n, a) :: as, (m, b) :: bs => n == m && agrees a b && agreeMembers as bs
  | _, _ => false

end

/-- Whether two values are the same data, in whatever order their objects list their members. -/
def same (a b : Json) : Bool := a.sorted.agrees b.sorted

end Json

end TestDouble
