import TestDouble.Toml.Bare
import TestDouble.Toml.Table
import TestDouble.Toml.Token

/-!
# The statements of TOML text

A text is a sequence of statements: headers, and keys with their values, each on a line of its own. It is read token by
token. What has been read of a statement is a stage: some part is due next, or a part has just ended, below the lists and
inline tables that are still open. Lines may end inside the brackets of a list and of an inline table, though not inside a
key, and a comma may stand after the last item of either.
-/

namespace TestDouble.Toml

/-- A statement. -/
inductive Statement where
  /-- A header: the keys that follow belong to this table. -/
  | header (key : Key)
  /-- A header of a list of tables: the keys that follow belong to a new table at the end of this list. -/
  | listHeader (key : Key)
  /-- A key with its value. -/
  | assignment (key : Key) (value : Document)

/-- What is open around a value. -/
inductive Open where
  /-- A line of its own, and its key. -/
  | line (key : Key)
  /-- A list, and its items, the latest first. -/
  | list (items : List Document)
  /-- An inline table, what it holds, and the key of the value. -/
  | table (entries : Entries) (key : Key)

/-- What a key is read for. -/
inductive Purpose where
  /-- A header. -/
  | header
  /-- A header of a list of tables. -/
  | listHeader
  /-- A value on a line of its own. -/
  | line
  /-- A value in an inline table that holds these entries. -/
  | entry (entries : Entries) (above : List Open)

/-- How far a text has been read; `above` is what is open around a value, the innermost first. -/
inductive Stage where
  /-- A statement is due, or the end of the text. -/
  | lineStart
  /-- The end of the line is due. -/
  | lineOver
  /-- A square bracket has opened a header. -/
  | headerOpen
  /-- A name is due, after these. -/
  | nameDue (purpose : Purpose) (front : List String)
  /-- A name has just ended. -/
  | named (purpose : Purpose) (key : Key)
  /-- The line has ended after a key in an inline table that holds these entries, and the equals sign is due. -/
  | equalsDue (entries : Entries) (key : Key) (above : List Open)
  /-- The first of the two brackets that close the header of a list of tables has been read. -/
  | headerClosing (key : Key)
  /-- A value is due. -/
  | valueDue (above : List Open)
  /-- A bare value is being read. -/
  | bare (chars : List Char) (above : List Open)
  /-- Blanks follow a bare value, and another part of the value may be yet to come, as a time follows its date. -/
  | bareGap (chars : List Char) (blanks : List Char) (above : List Open)
  /-- A value has just ended. -/
  | ended (value : Document) (above : List Open)

/-- The greatest number of lists and inline tables around a value, and of names in front of a key. -/
def depthLimit : Nat := 80

/-- Whether a character may stand in a name without quotes. -/
def isNameChar (c : Char) : Bool := c.isAlphanum || c == '_' || c == '-'

/-- The name that a token spells. -/
def name? : Token → Option String
  | .text value => some value
  | .bare chars => if chars.all isNameChar then some (String.ofList chars) else none
  | _ => none

namespace Stage

/-- A stage without a new statement. -/
def without (stage : Stage) : List Statement × Stage := ([], stage)

/-- The stage after a token where a name is due. -/
def nextName? (purpose : Purpose) (front : List String) (token : Token) : Option (List Statement × Stage) :=
  match purpose, front, token with
  | _, _, .gap _ => some (without (.nameDue purpose front))
  | .entry _ _, [], .lineEnd => some (without (.nameDue purpose front))
  | .entry entries above, [], .closeCurly => some (without (.ended entries.toDocument above))
  | _, _, _ => (name? token).map (fun name => without (.named purpose ⟨front, name⟩))

/-- The stage after a token that follows a key. -/
def afterKey? : Purpose → Key → Token → Option (List Statement × Stage)
  | .header, key, .closeSquare => some ([.header key], .lineOver)
  | .listHeader, key, .closeSquare => some (without (.headerClosing key))
  | .line, key, .equals => some (without (.valueDue [.line key]))
  | .entry entries above, key, .equals => some (without (.valueDue (.table entries key :: above)))
  | .entry entries above, key, .lineEnd => some (without (.equalsDue entries key above))
  | _, _, _ => none

/-- The stage after a token where an equals sign is due. -/
def nextEquals? (entries : Entries) (key : Key) (above : List Open) : Token → Option (List Statement × Stage)
  | .gap _ => some (without (.equalsDue entries key above))
  | .lineEnd => some (without (.equalsDue entries key above))
  | .equals => some (without (.valueDue (.table entries key :: above)))
  | _ => none

/-- Whether one more list or inline table may be opened; the line around them all is no part of their number. -/
def mayOpen (above : List Open) : Bool := decide (above.length ≤ depthLimit)

/-- The stage after a token where a value is due. -/
def nextValue? : List Open → Token → Option (List Statement × Stage)
  | above, .gap _ => some (without (.valueDue above))
  | .list items :: above, .lineEnd => some (without (.valueDue (.list items :: above)))
  | .table entries key :: above, .lineEnd => some (without (.valueDue (.table entries key :: above)))
  | .list items :: above, .closeSquare => some (without (.ended (.list items.reverse) above))
  | above, .openSquare => if mayOpen above then some (without (.valueDue (.list [] :: above))) else none
  | above, .openCurly => if mayOpen above then some (without (.nameDue (.entry [] above) [])) else none
  | above, .text value => some (without (.ended (.text value) above))
  | above, .lines value => some (without (.ended (.text value) above))
  | above, .bare chars => some (without (.bare chars above))
  | above, .dot => some (without (.bare ['.'] above))
  | _, _ => none

/-- The stage after a token that follows a value. -/
def afterValue? (value : Document) : List Open → Token → Option (List Statement × Stage)
  | above, .gap _ => some (without (.ended value above))
  | .line key :: _, .lineEnd => some ([.assignment key value], .lineStart)
  | above, .lineEnd => some (without (.ended value above))
  | .list items :: above, .comma => some (without (.valueDue (.list (value :: items) :: above)))
  | .list items :: above, .closeSquare => some (without (.ended (.list (value :: items).reverse) above))
  | .table entries key :: above, .comma =>
    (entries.assign? key value).map (fun later => without (.nameDue (.entry later above) []))
  | .table entries key :: above, .closeCurly =>
    (entries.assign? key value).map (fun later => without (.ended later.toDocument above))
  | _, _ => none

/-- The stage after a token, and the statement that the token ends. -/
def next? : Stage → Token → Option (List Statement × Stage)
  | .lineStart, .gap _ => some (without .lineStart)
  | .lineStart, .lineEnd => some (without .lineStart)
  | .lineStart, .openSquare => some (without .headerOpen)
  | .lineStart, token => nextName? .line [] token
  | .lineOver, .gap _ => some (without .lineOver)
  | .lineOver, .lineEnd => some (without .lineStart)
  | .lineOver, _ => none
  | .headerOpen, .openSquare => some (without (.nameDue .listHeader []))
  | .headerOpen, token => nextName? .header [] token
  | .nameDue purpose front, token => nextName? purpose front token
  | .named purpose key, .gap _ => some (without (.named purpose key))
  | .named purpose key, .dot =>
    if key.front.length + 1 < depthLimit then some (without (.nameDue purpose (key.front ++ [key.name]))) else none
  | .named purpose key, token => afterKey? purpose key token
  | .equalsDue entries key above, token => nextEquals? entries key above token
  | .headerClosing key, .closeSquare => some ([.listHeader key], .lineOver)
  | .headerClosing _, _ => none
  | .valueDue above, token => nextValue? above token
  | .bare chars above, .bare more => some (without (.bare (chars ++ more) above))
  | .bare chars above, .dot => some (without (.bare (chars ++ ['.']) above))
  | .bare chars above, .gap blanks => some (without (.bareGap chars blanks above))
  | .bare chars above, token => (bare? chars).bind (fun value => afterValue? value above token)
  | .bareGap chars blanks above, .bare more => some (without (.bare (chars ++ blanks ++ more) above))
  | .bareGap chars _ above, token => (bare? chars).bind (fun value => afterValue? value above token)
  | .ended value above, token => afterValue? value above token

end Stage

/-- The statements that tokens spell, from a stage on; the tokens must end where a statement may start. -/
def statementsFrom? : Stage → List Token → Option (List Statement)
  | .lineStart, [] => some []
  | _, [] => none
  | stage, token :: rest =>
    match stage.next? token with
    | none => none
    | some (ended, later) => (statementsFrom? later rest).map (ended ++ ·)

/-- The statements that tokens spell. The last line need not have an end. -/
def statements? (tokens : List Token) : Option (List Statement) := statementsFrom? .lineStart (tokens ++ [.lineEnd])

end TestDouble.Toml
