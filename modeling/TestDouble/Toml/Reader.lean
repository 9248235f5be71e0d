import TestDouble.Toml.Statement

/-!
# Reading TOML text

The statements of a text are carried out one after another on a table that is empty at first. A key belongs to the table that
the latest header named, or to the outermost table where no header came before. A text is a document when all of its
statements can be carried out.
-/

namespace TestDouble.Toml

/-- The tables of a text as far as it has been read. -/
structure Progress where
  /-- What the outermost table holds. -/
  root : Entries := []
  /-- The names that lead to the table of the latest header. -/
  path : List String := []

namespace Progress

/-- Opens the table of a header. -/
def opened? (kind : Option Node → Option Node) (key : Key) (p : Progress) : Option Progress :=
  (p.root.open? kind key).map (fun root => ⟨root, key.front ++ [key.name]⟩)

/-- Carries out a statement. -/
def after? (p : Progress) : Statement → Option Progress
  | .header key => p.opened? headed? key
  | .listHeader key => p.opened? listed? key
  | .assignment key value =>
    (changeAt? .header (Entries.assign? key value) p.path p.root).map (fun root => { p with root })

end Progress

/-- The document that a text spells, if it is TOML. -/
def document? (text : String) : Option Document :=
  match (tokens? text.toList).bind statements? with
  | none => none
  | some statements => (statements.foldlM Progress.after? {}).map (fun p => p.root.toDocument)

end TestDouble.Toml
