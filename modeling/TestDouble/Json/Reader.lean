import TestDouble.Json.Token

/-!
# Reading JSON text

A text is read token by token. What has been read so far is a stage: either some part is due next, or a part has just ended,
always below the lists and records that are still open. A text is a document when its tokens lead from the first stage, where
one value is due, to the end of that value with nothing left open.
-/

namespace TestDouble.Json

/-- A list or record that is open, with what it holds so far, the latest first. -/
inductive Open where
  /-- A list and its items. -/
  | list (items : List Document)
  /-- A record, its fields, and the name whose value is being read. -/
  | record (fields : List (Option String × Document)) (name : Option String)

/-- How far a text has been read; `above` are the open parts, the innermost first. -/
inductive Stage where
  /-- A value is due. -/
  | valueDue (above : List Open)
  /-- A list has just been opened: an item or the end is due. -/
  | firstItem (above : List Open)
  /-- A record has just been opened: a name or the end is due. -/
  | firstName (above : List Open)
  /-- A name is due in a record with these fields. -/
  | nameDue (fields : List (Option String × Document)) (above : List Open)
  /-- A colon is due after a name. -/
  | colonDue (fields : List (Option String × Document)) (name : Option String) (above : List Open)
  /-- A value has just ended. -/
  | ended (value : Document) (above : List Open)

namespace Stage

/-- The stage after a token that starts a value. -/
def start? (above : List Open) : Token → Option Stage
  | .leaf value => some (.ended value above)
  | .text value => some (.ended ((value.map Document.text).getD .unreadable) above)
  | .openList => some (.firstItem above)
  | .openRecord => some (.firstName above)
  | _ => none

/-- The stage after a token. -/
def next? : Stage → Token → Option Stage
  | .valueDue above, token => start? above token
  | .firstItem above, .closeList => some (.ended (.list []) above)
  | .firstItem above, token => start? (.list [] :: above) token
  | .firstName above, .closeRecord => some (.ended (.record []) above)
  | .firstName above, .text name => some (.colonDue [] name above)
  | .nameDue fields above, .text name => some (.colonDue fields name above)
  | .colonDue fields name above, .colon => some (.valueDue (.record fields name :: above))
  | .ended value (.list items :: above), .comma => some (.valueDue (.list (value :: items) :: above))
  | .ended value (.list items :: above), .closeList => some (.ended (.list (value :: items).reverse) above)
  | .ended value (.record fields name :: above), .comma => some (.nameDue ((name, value) :: fields) above)
  | .ended value (.record fields name :: above), .closeRecord =>
    some (.ended (.record ((name, value) :: fields).reverse) above)
  | _, _ => none

end Stage

/-- The document that a text spells, if it is JSON. -/
def document? (text : String) : Option Document :=
  match (tokens? text.toList).bind (fun tokens => tokens.foldlM Stage.next? (.valueDue [])) with
  | some (.ended value []) => some value
  | _ => none

/-- The data value that a text spells, if it is JSON and every part of it has a value. -/
def value? (text : String) : Option Json := (document? text).bind Document.toJson?

end TestDouble.Json
