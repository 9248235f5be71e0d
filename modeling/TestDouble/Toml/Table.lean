import TestDouble.Document
import TestDouble.OrderedMap

/-!
# The tables of a TOML text

While a text is read its tables grow, and how a table came to be decides what may still be added to it. A table with a header
of its own takes names under that header only. One that is implied by the header of a table below it may still get a header.
One that stands in front of a dotted key takes more dotted keys, and headers of tables below it, but no header of its own.
The tables of a list are closed except the latest. A value, inline tables and lists in brackets included, takes nothing.
-/

namespace TestDouble.Toml

/-- How a table came to be. -/
inductive Standing where
  /-- It has a header. -/
  | headed
  /-- It stands above a table with a header and has none. -/
  | implied
  /-- It stands in front of a dotted key. -/
  | dotted
  /-- It is the latest of a list of tables; these are the earlier ones. -/
  | listed (earlier : List Document)

/-- What stands under a name. -/
inductive Node where
  /-- A value, which is complete. -/
  | value (document : Document)
  /-- A table and what it holds so far. -/
  | table (standing : Standing) (entries : List (String × Node))

/-- What a table holds: names, each with what stands under it. -/
abbrev Entries := List (String × Node)

/-- A dotted key: the names in front, and the last one. -/
structure Key where
  /-- The names before the last one, in the order written. -/
  front : List String
  /-- The last name. -/
  name : String

/-! ## Reaching a table -/

/-- Which tables a path may go through, and how those come to be that are missing on its way. -/
structure Way where
  /-- The standing of a table that is made. -/
  made : Standing
  /-- Whether the path may go on from a table. -/
  passes : Standing → Bool
  /-- Whether the path may end at a table. -/
  ends : Standing → Bool

/-- The way of a header: through every table. -/
def Way.header : Way := ⟨.implied, fun _ => true, fun _ => true⟩

/-- The way of the front of a dotted key: through tables without a header, to a table that dotted keys made. -/
def Way.dotted : Way where
  made := .dotted
  passes
    | .headed => false
    | _ => true
  ends
    | .dotted => true
    | _ => false

/-- Changes the table at the end of a path; nothing where the path does not lead to a table that the way admits. -/
def changeAt? (way : Way) (change : Entries → Option Entries) : List String → Entries → Option Entries
  | [], entries => change entries
  | name :: rest, entries =>
    match entries.lookup name with
    | none => (changeAt? way change rest []).map (fun below => putEntry name (.table way.made below) entries)
    | some (.value _) => none
    | some (.table standing within) =>
      if (if rest.isEmpty then way.ends standing else way.passes standing) then
        (changeAt? way change rest within).map (fun below => putEntry name (.table standing below) entries)
      else none

/-! ## Documents -/

mutual

/-- The document of what stands under a name. -/
def Node.toDocument : Node → Document
  | .value document => document
  | .table (.listed earlier) entries => .list (earlier ++ [.record (fieldsOf entries)])
  | .table _ entries => .record (fieldsOf entries)

/-- The fields that entries stand for. -/
def fieldsOf : List (String × Node) → List (Option String × Document)
  | [] => []
  | (name, node) :: rest => (some name, node.toDocument) :: fieldsOf rest

end

/-- The document of a table that is complete. -/
def Entries.toDocument (entries : Entries) : Document := .record (fieldsOf entries)

/-! ## Growing a table -/

/-- Gives a value to a dotted key; nothing if its last name is taken or its front leads to no table for dotted keys. -/
def Entries.assign? (key : Key) (value : Document) (entries : Entries) : Option Entries :=
  changeAt? .dotted
    (fun table =>
      match table.lookup key.name with
      | none => some (putEntry key.name (.value value) table)
      | some _ => none)
    key.front entries

/-- What a header makes of what stands under its last name. -/
def headed? : Option Node → Option Node
  | none => some (.table .headed [])
  | some (.table .implied entries) => some (.table .headed entries)
  | some _ => none

/-- What a header of a list of tables makes of what stands under its last name. -/
def listed? : Option Node → Option Node
  | none => some (.table (.listed []) [])
  | some (.table (.listed earlier) entries) => some (.table (.listed (earlier ++ [Entries.toDocument entries])) [])
  | some _ => none

/-- Opens the table that a header names, in the way that `opened?` says. -/
def Entries.open? (opened? : Option Node → Option Node) (key : Key) (entries : Entries) : Option Entries :=
  changeAt? .header
    (fun table => (opened? (table.lookup key.name)).map (fun node => putEntry key.name node table))
    key.front entries

end TestDouble.Toml
