import TestDouble.Descriptor.Written
import TestDouble.Edit
import TestDouble.Json.Writer
import TestDouble.Members.Key
import TestDouble.OrderedMap

/-!
# Custom members

The members that the user of a test double supplies stand in five tables: methods, static methods, properties, static
properties and constants. An ad-hoc definition is a list of entries, each a key with a method or a data value. An entry is
first turned into one `Member`, which says the table, the name and the content; nothing that is in the tables matters for
that. The member is then put into its table, and replaces an earlier one of the same name there. An entry that spells no member is
refused.
-/

namespace TestDouble

/-- The value side of an entry. -/
inductive EntryValue where
  /-- A method. -/
  | method (method : CustomMethod)
  /-- Plain data. -/
  | data (value : Json)
  deriving Inhabited

/-- The table that a member stands in. -/
inductive MemberKind where
  /-- Methods of instances. -/
  | method
  /-- Methods of the type. -/
  | staticMethod
  /-- Properties of instances. -/
  | property
  /-- Properties of the type. -/
  | staticProperty
  /-- Constants. -/
  | constant
  deriving DecidableEq, Inhabited

/-- One member: its table, its name and its content. -/
inductive Member where
  /-- A method of instances. -/
  | method (name : String) (method : CustomMethod)
  /-- A method of the type. -/
  | staticMethod (name : String) (method : CustomMethod)
  /-- A property of instances. -/
  | property (name : String) (value : Json)
  /-- A property of the type. -/
  | staticProperty (name : String) (value : Json)
  /-- A constant. -/
  | constant (name : String) (value : Json)
  deriving Inhabited

namespace MemberKey

/-- Whether a key with a value asks for a method: the modifiers say so, or say nothing and the value is a method. -/
def asksMethod (key : MemberKey) : EntryValue → Bool
  | .method _ => key.isFunction || !key.isProperty
  | .data _ => key.isFunction

/-- The table that a key with a value asks for. -/
def kind (key : MemberKey) (value : EntryValue) : MemberKind :=
  if key.isConstant then .constant
  else if key.asksMethod value then (if key.isStatic then .staticMethod else .method)
  else if key.isStatic then .staticProperty
  else .property

end MemberKey

/-- A method kept as plain data: the reference it calls, or else its written form, if it has one. -/
def CustomMethod.asData (m : CustomMethod) : Except Flaw Json :=
  match m.callable with
  | some (.named reference) => .ok (.text reference)
  | _ =>
    match m.toJson? with
    | some written => .ok written
    | none => .error .unwritablePath

/-- The data of a value, methods turned into data. -/
def EntryValue.asData : EntryValue → Except Flaw Json
  | .method m => m.asData
  | .data value => .ok value

namespace Member

/-- The member that a key with a value asks for, or what is wrong with the two together. -/
def ofKey (key : MemberKey) (value : EntryValue) : Except Flaw Member :=
  match key.kind value, value with
  | .method, .method m => .ok (.method key.name m)
  | .staticMethod, .method m => .ok (.staticMethod key.name m)
  | .method, .data _ => .error .dataForMethod
  | .staticMethod, .data _ => .error .dataForMethod
  | .constant, .method _ => .error .methodForConstant
  | .constant, .data data => .ok (.constant key.name data)
  | .property, value => value.asData.map (.property key.name)
  | .staticProperty, value => value.asData.map (.staticProperty key.name)

/-- The member that an entry spells. A refusal quotes the whole key. -/
def ofEntry (text : String) (value : EntryValue) : Except Refusal Member :=
  match MemberKey.parse text with
  | .error refusal => .error refusal
  | .ok key => (ofKey key value).mapError (Refusal.malformedEntry text)

/-- The member that a member of a JSON object spells. Data cannot hold a callable, so a method is named by a string. -/
def ofField (text : String) (value : Json) : Except Refusal Member :=
  match MemberKey.parse text with
  | .error refusal => .error refusal
  | .ok key =>
    if key.isFunction then
      match value with
      | .text reference => (ofKey key (.method (CustomMethod.named reference))).mapError (Refusal.malformedEntry text)
      | _ => .error (.malformedEntry text .unnamedCallable)
    else (ofKey key (.data value)).mapError (Refusal.malformedEntry text)

end Member

/-- The members that a user supplies. -/
structure Members where
  /-- Methods of instances. -/
  methods : OrderedMap CustomMethod := ∅
  /-- Methods of the type. -/
  staticMethods : OrderedMap CustomMethod := ∅
  /-- Properties of instances. -/
  properties : OrderedMap Json := ∅
  /-- Properties of the type. -/
  staticProperties : OrderedMap Json := ∅
  /-- Constants. -/
  constants : OrderedMap Json := ∅
  deriving Inhabited

namespace Members

/-- Puts a member into its table, in place of one of the same name there. -/
def insert (m : Members) : Member → Members
  | .method name value => { m with methods := m.methods.insert name value }
  | .staticMethod name value => { m with staticMethods := m.staticMethods.insert name value }
  | .property name value => { m with properties := m.properties.insert name value }
  | .staticProperty name value => { m with staticProperties := m.staticProperties.insert name value }
  | .constant name value => { m with constants := m.constants.insert name value }

/-- Puts members into their tables, one after another. -/
def insertAll (m : Members) (added : List Member) : Members := added.foldl insert m

/-- The tables of the members in a list. -/
def ofList (added : List Member) : Members := insertAll {} added

/-- Puts the member that is read into its table. -/
def take (read : Except Refusal Member) : Edit Members Unit := do
  let member ← read
  modify (fun m => m.insert member)

/-- Takes one more entry of an ad-hoc definition. -/
def takeEntry (key : String) (value : EntryValue) : Edit Members Unit := take (Member.ofEntry key value)

/-- The answer to one more entry of an ad-hoc definition, and the tables after it. -/
def respond (m : Members) (key : String) (value : EntryValue) : Except Refusal Unit × Members :=
  (takeEntry key value).on m

/-- The tables with one more entry of an ad-hoc definition. -/
def addEntry (m : Members) (key : String) (value : EntryValue) : Except Refusal Members :=
  (takeEntry key value).edited m

/-- The tables of an ad-hoc definition. They are filled entry by entry; the first entry that is refused makes the whole definition
refused. -/
def ofDefinition (entries : List (String × EntryValue)) : Except Refusal Members :=
  (entries.forM (fun entry => takeEntry entry.1 entry.2)).edited {}

/-- The tables of an ad-hoc definition given as data: an object, its members taken in the order of their keys. -/
def ofJson : Json → Except Refusal Members
  | .object fields => ((sortEntries fields).forM (fun field => take (Member.ofField field.1 field.2))).edited {}
  | value => .error (.malformedEntry value.canonicalText .notAnObject)

/-- Adds the members of other tables to these, table by table; the added ones win. -/
def merge (m added : Members) : Members where
  methods := m.methods.insertAll added.methods.entries
  staticMethods := m.staticMethods.insertAll added.staticMethods.entries
  properties := m.properties.insertAll added.properties.entries
  staticProperties := m.staticProperties.insertAll added.staticProperties.entries
  constants := m.constants.insertAll added.constants.entries

/-- Whether there is no member. -/
def isEmpty (m : Members) : Bool :=
  m.methods.isEmpty && m.staticMethods.isEmpty && m.properties.isEmpty && m.staticProperties.isEmpty &&
    m.constants.isEmpty

/-- Whether two sets of members are the same: the same names in each table, whatever their order, with methods and data that
are the same. -/
def sameAs (a b : Members) : Bool :=
  a.methods.sameBy CustomMethod.sameAs b.methods && a.staticMethods.sameBy CustomMethod.sameAs b.staticMethods &&
    a.properties.sameBy Json.same b.properties && a.staticProperties.sameBy Json.same b.staticProperties &&
    a.constants.sameBy Json.same b.constants

end Members

end TestDouble
