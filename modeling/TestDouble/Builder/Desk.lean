import TestDouble.Builder.Bench

/-!
# Desks

A desk is a bench with what its builders share: the rules of one resolver and one label counter. Each builder still has a
workshop of its own. What a builder is told at a desk has an answer, and a run of steps is the list of what they were answered.
-/

namespace TestDouble

/-- A bench with the rules of a resolver and a label counter. -/
structure Desk where
  /-- The rules of the resolver. -/
  rules : IdentifierRules := {}
  /-- The label counter. -/
  counter : LabelCounter := {}
  /-- The builders. -/
  bench : Bench := {}

/-- What happens at a desk. -/
inductive Step where
  /-- A fresh builder takes a new place. -/
  | fresh (w : Workshop)
  /-- The builder in a place is told something. -/
  | tell (place : Nat) (command : Command)

/-- A step with its answer. -/
structure Reply where
  /-- The step. -/
  step : Step
  /-- What it yields. -/
  answer : Except Refusal Answer

/-- Whether a step was not refused. -/
def Reply.accepted (reply : Reply) : Bool := reply.answer.isOk

namespace Desk

/-- The answer of the builder in a place to a call, and the desk after it. -/
def call (d : Desk) (place : Nat) (seat : Seat) (c : Call) : Except Refusal Answer × Desk :=
  ((seat.builder.respond seat.workshop c).1, { d with bench := d.bench.step (.call place c) })

/-- The answer of the builder in a place to a command, and the desk after it. Asking for the name is the only call that may
draw a label. -/
def tell (d : Desk) (place : Nat) (seat : Seat) : Command → Except Refusal Answer × Desk
  | .change c => d.call place seat (.change c)
  | .finalize => d.call place seat .finalize
  | .request => d.call place seat .request
  | .resolve => d.call place seat (.resolve d.rules)
  | .name =>
    let (answer, later) := d.call place seat (.name d.counter)
    (answer, { later with counter := (seat.builder.nameWith seat.workshop d.counter).2.2 })
  | .label =>
    let (label, counter) := d.counter.draw
    (.ok (.label label), { d with counter := counter })
  | .copy => (.ok (.place d.bench.seats.length), { d with bench := d.bench.step (.copy place) })

/-- The answer to a step, and the desk after it; nothing where the place is empty. -/
def step? (d : Desk) : Step → Option (Except Refusal Answer × Desk)
  | .fresh w => some (.ok (.place d.bench.seats.length), { d with bench := d.bench.step (.fresh w) })
  | .tell place command => (d.bench.seats[place]?).map (fun seat => d.tell place seat command)

/-- The replies to steps taken one after another, and the desk after them; nothing where a step is for an empty place. -/
def run? (d : Desk) : List Step → Option (List Reply × Desk)
  | [] => some ([], d)
  | step :: rest =>
    match d.step? step with
    | none => none
    | some (answer, later) => (later.run? rest).map (fun (replies, last) => (⟨step, answer⟩ :: replies, last))

end Desk

end TestDouble
