import TestDouble.Builder

/-!
# Sessions

A session holds builders that share a workshop and a label counter. It starts with one fresh builder; copies get the places
after it. Each command is given to the builder in one place and yields an answer or a refusal.
-/

namespace TestDouble

/-- What a builder can be told. -/
inductive Command where
  /-- Change. -/
  | change (c : Change)
  /-- Accept no more changes. -/
  | finalize
  /-- Give the request. -/
  | request
  /-- Give the resolution. -/
  | resolve
  /-- Give the name. -/
  | name
  /-- Draw a label, for no builder. -/
  | label
  /-- Put a copy in a new place. -/
  | copy
  deriving Inhabited

/-- What a command yields. -/
inductive Answer where
  /-- It is done. -/
  | done
  /-- A request. -/
  | request (r : Request)
  /-- A resolution. -/
  | resolution (r : Resolution)
  /-- A name. -/
  | name (text : String)
  /-- A label. -/
  | label (value : UInt64)
  /-- The place of a copy. -/
  | place (index : Nat)

/-- Builders with what they share. -/
structure Session where
  /-- The registry and the configuration. -/
  workshop : Workshop
  /-- The label counter. -/
  counter : LabelCounter := {}
  /-- The builders, by place. -/
  builders : List Builder := [{}]
  deriving Inhabited

namespace Session

/-- The session with another builder in a place. -/
def setBuilder (s : Session) (place : Nat) (b : Builder) : Session := { s with builders := s.builders.set place b }

/-- The answer to a command for the builder in a place, and the session after it. -/
def stepWith (s : Session) (place : Nat) (b : Builder) : Command → Except Refusal Answer × Session
  | .change c =>
    let (answer, changed) := (Builder.edit s.workshop c).on b
    (answer.map (fun _ => .done), s.setBuilder place changed)
  | .finalize => (.ok .done, s.setBuilder place b.finalize)
  | .request => (.ok (.request b.request), s.setBuilder place b.finalize)
  | .resolve =>
    ((Resolution.ofRequest s.workshop.config.identifiers b.request).map Answer.resolution,
      s.setBuilder place b.finalize)
  | .name =>
    let (answer, named, counter) := b.nameWith s.workshop s.counter
    (answer.map Answer.name, { s.setBuilder place named with counter := counter })
  | .label =>
    let (label, counter) := s.counter.draw
    (.ok (.label label), { s with counter := counter })
  | .copy => (.ok (.place s.builders.length), { s with builders := s.builders ++ [b.copy] })

/-- The answer to a command for a place, and the session after it; nothing where the place is empty. -/
def step? (s : Session) (place : Nat) (command : Command) : Option (Except Refusal Answer × Session) :=
  (s.builders[place]?).map (fun b => s.stepWith place b command)

end Session

end TestDouble
