import TestDouble.Members
import TestDouble.Proofs.Reading

/-!
# Entries taken one by one

An entry is taken in place: it puts its member into a table, or it is refused and puts none (`on_take`). A definition that is
refused midway has filled tables of its own by then, which are given up. So a definition comes to the same as reading all its
members first and inserting them then (`ofDefinition_eq`, `ofJson_eq`).
-/

namespace TestDouble

namespace Members

/-! ## One entry -/

/-- A member that is read is put into its table; where none is read the tables are as they were. -/
theorem on_take (read : Except Refusal Member) (m : Members) :
    (take read).on m =
      match read with
      | .error refusal => (.error refusal, m)
      | .ok member => (.ok (), m.insert member) := by
  cases read with
  | error refusal => exact Edit.on_bind_of_error (Edit.on_lift _ m) _
  | ok member => exact Edit.on_bind_of_ok (Edit.on_lift _ m) _

/-- The answer to an entry and the tables after it. -/
theorem respond_eq (m : Members) (key : String) (value : EntryValue) :
    m.respond key value =
      match Member.ofEntry key value with
      | .error refusal => (.error refusal, m)
      | .ok member => (.ok (), m.insert member) :=
  on_take (Member.ofEntry key value) m

/-- The tables after a member is read are those with it inserted. -/
theorem edited_take (read : Except Refusal Member) (m : Members) : (take read).edited m = read.map m.insert := by
  rw [Edit.edited, on_take]
  cases read <;> rfl

/-- The tables with one more entry are those with its member inserted. -/
theorem addEntry_eq (m : Members) (key : String) (value : EntryValue) :
    m.addEntry key value = (Member.ofEntry key value).map m.insert :=
  edited_take (Member.ofEntry key value) m

/-! ## One entry after another -/

/-- Members that are taken as they are read leave the same as members that are all read and inserted then. -/
theorem edited_forM_take {α : Type} (read : α → Except Refusal Member) (items : List α) (m : Members) :
    (items.forM (fun item => take (read item))).edited m = (items.mapM read).map m.insertAll := by
  rw [Edit.edited_forM]
  simp only [edited_take]
  exact foldlM_map read insert m items

/-- The members of an ad-hoc definition; the first entry that is refused makes the whole definition refused. -/
def listOfDefinition (entries : List (String × EntryValue)) : Except Refusal (List Member) :=
  entries.mapM (fun entry => Member.ofEntry entry.1 entry.2)

/-- The members of an ad-hoc definition given as data: an object, its members taken in the order of their keys. -/
def listOfJson : Json → Except Refusal (List Member)
  | .object fields => (sortEntries fields).mapM (fun field => Member.ofField field.1 field.2)
  | value => .error (.malformedEntry value.canonicalText .notAnObject)

/-- The tables of an ad-hoc definition are those of its members. -/
theorem ofDefinition_eq (entries : List (String × EntryValue)) :
    ofDefinition entries = (listOfDefinition entries).map ofList :=
  edited_forM_take (fun entry : String × EntryValue => Member.ofEntry entry.1 entry.2) entries {}

/-- The tables of an ad-hoc definition given as data are those of its members. -/
theorem ofJson_eq (definition : Json) : ofJson definition = (listOfJson definition).map ofList := by
  cases definition with
  | object fields => exact edited_forM_take (fun field : String × Json => Member.ofField field.1 field.2) (sortEntries fields) {}
  | _ => rfl

end Members

end TestDouble
