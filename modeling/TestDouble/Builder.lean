import TestDouble.Config
import TestDouble.Label
import TestDouble.Registry
import TestDouble.Resolution

/-!
# Builders

A builder gathers the types, members and name of one test double until it is finalized; after that it refuses every change. A
change is taken in place, all its checks before what it changes. Asking for the request, the resolution or the name finalizes the
builder. The name is the explicit one, or a default name, which is drawn once and kept; a drawn name is no part of the
request. A copy of a builder is open, and draws a default name of its own.
-/

namespace TestDouble

/-- What builders are made with: the types that names refer to, and a configuration. -/
structure Workshop where
  /-- The types that may be referred to. -/
  registry : Registry
  /-- The configuration. -/
  config : Config
  deriving Inhabited

/-- A test double in the making. -/
structure Builder where
  /-- The types it is made like, in order. -/
  types : List SourceType := []
  /-- The members supplied so far. -/
  members : Members := {}
  /-- The name asked for, if one is. -/
  explicitName : Option String := none
  /-- The default name, once it is drawn. -/
  drawnName : Option String := none
  /-- No change is accepted any more. -/
  finalized : Bool := false
  deriving Inhabited

/-- A change of a builder. -/
inductive Change where
  /-- Adds types by name. -/
  | likeNames (names : List String)
  /-- Adds types. -/
  | likeTypes (types : List SourceType)
  /-- Adds the members of an ad-hoc definition. -/
  | likeDefinition (entries : List (String × EntryValue))
  /-- Adds the members of an ad-hoc definition given as data. -/
  | likeJson (definition : Json)
  /-- Adds one member as it is. -/
  | addMember (member : Member)
  /-- Sets the explicit name. -/
  | setName (name : String)
  deriving Inhabited

namespace Builder

/-- The first of some types that differs from the first type listed under its name. -/
def conflict? (listed incoming : List SourceType) : Option SourceType :=
  incoming.find? (fun t => (listed.find? (fun seen => seen.name == t.name)).any (fun first => first != t))

/-- The types of a builder with more types. Two different types of one name are refused, and so are types that cannot be
placed together. -/
def joinTypes (types incoming : List SourceType) : Except Refusal (List SourceType) :=
  match conflict? (types ++ incoming) incoming with
  | some t => .error (.conflictingTypes t.name)
  | none => (Classified.ofTypes (types ++ incoming)).map (fun _ => SourceType.distinct (types ++ incoming))

/-- Refuses a builder that is finalized. -/
def ensureOpen : Edit Builder Unit := do
  if (← get).finalized then throw .finalized

/-- Takes more types. -/
def takeTypes (incoming : List SourceType) : Edit Builder Unit := do
  let types ← joinTypes (← get).types incoming
  modify (fun b => { b with types := types })

/-- Takes the members that are read. -/
def takeMembers (read : Except Refusal Members) : Edit Builder Unit := do
  let added ← read
  modify (fun b => { b with members := b.members.merge added })

/-- Takes the name asked for. -/
def takeName (rules : IdentifierRules) (name : String) : Edit Builder Unit :=
  if rules.allowsType name then modify (fun b => { b with explicitName := some name }) else throw (.illegalName name)

/-- Takes a change, finalized or not. -/
def take (w : Workshop) : Change → Edit Builder Unit
  | .likeNames names => do
    let types ← w.registry.resolve names
    takeTypes types
  | .likeTypes types => takeTypes types
  | .likeDefinition entries => takeMembers (Members.ofDefinition entries)
  | .likeJson definition => takeMembers (Members.ofJson definition)
  | .addMember member => modify (fun b => { b with members := b.members.insert member })
  | .setName name => takeName w.config.identifiers name

/-- Takes a change unless the builder is finalized. -/
def edit (w : Workshop) (c : Change) : Edit Builder Unit := do
  ensureOpen
  take w c

/-- The builder after a change, which is refused if the builder is finalized. -/
def apply (w : Workshop) (b : Builder) (c : Change) : Except Refusal Builder := (edit w c).edited b

/-- The builder, closed to changes. -/
def finalize (b : Builder) : Builder := { b with finalized := true }

/-- The request that a builder stands for. -/
def request (b : Builder) : Request := Request.ofTypes b.types b.members b.explicitName

/-- A copy of a builder: open, and without a drawn name. -/
def copy (b : Builder) : Builder := { b with drawnName := none, finalized := false }

/-- The name of the test double, with the builder and the counter after asking. A label is drawn only if there is neither an
explicit name nor one drawn before. -/
def nameWith (w : Workshop) (b : Builder) (counter : LabelCounter) :
    Except Refusal String × Builder × LabelCounter :=
  match b.explicitName <|> b.drawnName with
  | some name => (.ok name, b.finalize, counter)
  | none =>
    match Classified.ofTypes b.types with
    | .error refusal => (.error refusal, b.finalize, counter)
    | .ok types =>
      let (label, later) := counter.draw
      let name := defaultName w.config.naming.start types label
      (.ok name, { b.finalize with drawnName := some name }, later)

end Builder

end TestDouble
