import TestDouble.Builder.Session

/-!
# Benches

A bench holds builders that have nothing in common: each was made in a workshop of its own, and whatever a call needs beyond
that, the rules of a resolver or a label counter, is handed to it with the call. A builder comes to the bench fresh or as a
copy of one that is there. A session is a bench whose builders share one workshop and whose calls are handed the rules and the
counter of the session.
-/

namespace TestDouble

/-- What one builder can be asked, with what it is handed for it. -/
inductive Call where
  /-- Change. -/
  | change (c : Change)
  /-- Accept no more changes. -/
  | finalize
  /-- Give the request. -/
  | request
  /-- Give the resolution under some rules for names. -/
  | resolve (rules : IdentifierRules)
  /-- Give the name, with a counter to draw a label from. -/
  | name (counter : LabelCounter)
  deriving Inhabited

/-- Whether a call closes the builder to changes: every call does that is no change. -/
def Call.closes : Call → Bool
  | .change _ => false
  | _ => true

/-- The answer of a builder to a call, and the builder after it. -/
def Builder.respond (w : Workshop) (b : Builder) : Call → Except Refusal Answer × Builder
  | .change c =>
    let (answer, changed) := (edit w c).on b
    (answer.map (fun _ => .done), changed)
  | .finalize => (.ok .done, b.finalize)
  | .request => (.ok (.request b.request), b.finalize)
  | .resolve rules => ((Resolution.ofRequest rules b.request).map Answer.resolution, b.finalize)
  | .name counter =>
    let (answer, named, _) := b.nameWith w counter
    (answer.map Answer.name, named)

/-- A builder with the workshop it was made in. -/
structure Seat where
  /-- The workshop. -/
  workshop : Workshop
  /-- The builder. -/
  builder : Builder := {}

/-- Builders side by side. -/
structure Bench where
  /-- The builders, by place. -/
  seats : List Seat := []

/-- What happens at a bench. -/
inductive Move where
  /-- A fresh builder takes a new place. -/
  | fresh (w : Workshop)
  /-- A copy of the builder in a place takes a new place. -/
  | copy (place : Nat)
  /-- The builder in a place is called. -/
  | call (place : Nat) (c : Call)

/-- The place of the builder that is called, if one is. -/
def Move.target? : Move → Option Nat
  | .call place _ => some place
  | _ => none

namespace Bench

/-- The bench after a move. A move for an empty place does nothing. -/
def step (bench : Bench) : Move → Bench
  | .fresh w => ⟨bench.seats ++ [{ workshop := w }]⟩
  | .copy place =>
    match bench.seats[place]? with
    | none => bench
    | some seat => ⟨bench.seats ++ [{ seat with builder := seat.builder.copy }]⟩
  | .call place c =>
    match bench.seats[place]? with
    | none => bench
    | some seat => ⟨bench.seats.set place { seat with builder := (seat.builder.respond seat.workshop c).2 }⟩

/-- The bench after moves, one after another. -/
def run (bench : Bench) (moves : List Move) : Bench := moves.foldl step bench

/-- What the builder in a place answers to a call. -/
def answer? (bench : Bench) (place : Nat) (c : Call) : Option (Except Refusal Answer) :=
  (bench.seats[place]?).map (fun seat => (seat.builder.respond seat.workshop c).1)

end Bench

end TestDouble
