import TestDouble.Builder.Desk

/-!
# A session is a desk

The builders of a session are seated at a desk, all with the workshop of the session, and the rules of the resolver are those of
its configuration (`Session.toDesk`). What a builder is told in the session it is told at the desk, with the same answer, and the
desk after it is that of the session after it (`toDesk_step?`). So what holds of every desk holds of sessions.
-/

namespace TestDouble

namespace Session

/-- The desk of a session. -/
def toDesk (s : Session) : Desk where
  rules := s.workshop.config.identifiers
  counter := s.counter
  bench := ⟨s.builders.map (fun b => ⟨s.workshop, b⟩)⟩

variable {s : Session} {place : Nat} {b : Builder}

/-- The seats at the desk are those of the builders. -/
theorem getElem?_toDesk (s : Session) (place : Nat) :
    s.toDesk.bench.seats[place]? = (s.builders[place]?).map (fun b => ⟨s.workshop, b⟩) :=
  List.getElem?_map ..

/-- A builder of a session is seated in its place at the desk. -/
theorem seat_toDesk (hb : s.builders[place]? = some b) : s.toDesk.bench.seats[place]? = some ⟨s.workshop, b⟩ := by
  rw [getElem?_toDesk, hb, Option.map_some]

/-- A call of a builder at the desk puts the builder that it leaves in its place in the session. -/
theorem toDesk_setBuilder (hb : s.builders[place]? = some b) (c : Call) :
    (s.setBuilder place (b.respond s.workshop c).2).toDesk = (s.toDesk.call place ⟨s.workshop, b⟩ c).2 := by
  rw [Desk.call, Bench.step, seat_toDesk hb]
  simp only [toDesk, setBuilder, List.map_set]

/-- What a builder is told in a session it is told at the desk. -/
theorem toDesk_stepWith (hb : s.builders[place]? = some b) (command : Command) :
    s.toDesk.tell place ⟨s.workshop, b⟩ command =
      ((s.stepWith place b command).1, (s.stepWith place b command).2.toDesk) := by
  cases command with
  | change c => exact Prod.ext rfl (toDesk_setBuilder hb (.change c)).symm
  | finalize => exact Prod.ext rfl (toDesk_setBuilder hb .finalize).symm
  | request => exact Prod.ext rfl (toDesk_setBuilder hb .request).symm
  | resolve => exact Prod.ext rfl (toDesk_setBuilder hb (.resolve s.workshop.config.identifiers)).symm
  | name =>
    let later := (b.nameWith s.workshop s.counter).2.2
    have hset := toDesk_setBuilder hb (.name s.counter)
    exact Prod.ext rfl (congrArg (fun d : Desk => { d with counter := later }) hset.symm)
  | label => rfl
  | copy =>
    rw [Desk.tell, Bench.step, seat_toDesk hb]
    simp only [stepWith, toDesk, List.length_map, List.map_append, List.map_cons, List.map_nil]

/-- A step of a session is a step at its desk, with the same answer. -/
theorem toDesk_step? (s : Session) (place : Nat) (command : Command) :
    s.toDesk.step? (.tell place command) =
      (s.step? place command).map (fun (answer, later) => (answer, later.toDesk)) := by
  rw [Desk.step?, step?, getElem?_toDesk]
  cases hb : s.builders[place]? with
  | none => rfl
  | some b => exact congrArg some (toDesk_stepWith hb command)

end Session

end TestDouble
