import TestDouble.Proofs.Builder.Soundness

/-!
# A closed builder stays as it is

Every call that is no change closes a builder. From then on its types, members and explicit name stay as they are, every change
is refused, and it answers the same request and, under the same rules, the same resolution, whatever else happens at the bench
(`Bench.FrozenAt`). The name that it answers once it answers for good, and a drawn name is no part of its request. A copy has
the definition of the builder but is open and stands for itself (`finalized_for_good`).
-/

namespace TestDouble

namespace Builder

variable {w : Workshop} {old b : Builder}

/-! ## Closed builders -/

/-- A builder is frozen as it was at some time: it is closed, and its definition is the one that it had then. -/
structure FrozenAs (old b : Builder) : Prop where
  finalized : b.finalized = true
  types : b.types = old.types
  members : b.members = old.members
  explicitName : b.explicitName = old.explicitName

/-- A call that is no change freezes a builder that has the definition of an earlier time. -/
theorem frozenAs_respond_of_closes {c : Call} (hc : c.closes = true) (htypes : b.types = old.types)
    (hmembers : b.members = old.members) (hname : b.explicitName = old.explicitName) :
    old.FrozenAs (b.respond w c).2 := by
  rcases respond_of_closes hc w b with hclosed | ⟨name, -, hdrawn⟩
  · rw [hclosed]
    exact ⟨rfl, htypes, hmembers, hname⟩
  · rw [hdrawn]
    exact ⟨rfl, htypes, hmembers, hname⟩

/-- A closed builder refuses every change. -/
theorem respond_change_of_finalized (h : b.finalized = true) (w : Workshop) (c : Change) :
    b.respond w (.change c) = (.error .finalized, b) := by
  rw [respond_change_eq, apply_eq, if_pos h]

/-- Every call keeps a builder frozen. -/
theorem FrozenAs.respond (h : old.FrozenAs b) (c : Call) : old.FrozenAs (b.respond w c).2 := by
  rcases closes_or_change c with hc | ⟨change, rfl⟩
  · exact frozenAs_respond_of_closes hc h.types h.members h.explicitName
  · rw [respond_change_of_finalized h.finalized]
    exact h

/-- A frozen builder stands for the request that it stood for. -/
theorem FrozenAs.request (h : old.FrozenAs b) : b.request = old.request := by
  rw [Builder.request, Builder.request, h.types, h.members, h.explicitName]

/-- A closed builder with a name keeps it through every call. -/
theorem name?_respond_of_finalized {name : String} (h : b.finalized = true ∧ b.name? = some name) (c : Call) :
    (b.respond w c).2.finalized = true ∧ (b.respond w c).2.name? = some name := by
  rcases closes_or_change c with hc | ⟨change, rfl⟩
  · rcases respond_of_closes hc w b with hclosed | ⟨other, hnone, -⟩
    · rw [hclosed]
      exact ⟨rfl, h.2⟩
    · rw [h.2] at hnone
      cases hnone
  · rw [respond_change_of_finalized h.1]
    exact h

/-- The name that a sound builder answers is its name from then on. -/
theorem Sound.respond_name (h : b.Sound w) (counter : LabelCounter) :
    ∃ name, (b.respond w (.name counter)).1 = .ok (.name name) ∧
      (b.respond w (.name counter)).2.finalized = true ∧ (b.respond w (.name counter)).2.name? = some name := by
  obtain ⟨name, hanswer, hname⟩ := h.exists_name counter
  have hfrozen : b.FrozenAs (b.respond w (.name counter)).2 := frozenAs_respond_of_closes rfl rfl rfl rfl
  refine ⟨name, ?_, hfrozen.finalized, hname⟩
  rw [Builder.respond]
  simp only [hanswer]
  rfl

/-- A drawn name is no part of the request of a sound builder. -/
theorem Sound.request_of_drawn (h : b.Sound w) {name : String} (hdrawn : b.drawnName = some name) :
    b.request.typeName = none :=
  (h.drawnLate name hdrawn).2

end Builder

/-! ## At the bench -/

namespace Bench

variable {bench : Bench} {place : Nat} {seat : Seat}

/-- The builder in a place is frozen as it was at some time: it is closed, it refuses every change for that, its request is the
one that the builder stood for, and its resolution is that of this request under all rules for names. -/
structure FrozenAt (bench : Bench) (place : Nat) (seat : Seat) : Prop where
  kept : ∃ b, bench.seats[place]? = some ⟨seat.workshop, b⟩ ∧ seat.builder.FrozenAs b
  changes : ∀ c, bench.answer? place (.change c) = some (.error .finalized)
  request : bench.answer? place .request = some (.ok (.request seat.builder.request))
  resolution : ∀ rules, ∃ r, Resolution.ofRequest rules seat.builder.request = .ok r ∧
    bench.answer? place (.resolve rules) = some (.ok (.resolution r))

/-- A builder in a place that has the definition of an earlier time, when it could be resolved, and is closed, is frozen there. -/
theorem frozenAt_of_frozenAs (hsound : seat.builder.Sound seat.workshop) {b : Builder}
    (hseat : bench.seats[place]? = some ⟨seat.workshop, b⟩) (hfrozen : seat.builder.FrozenAs b) :
    bench.FrozenAt place seat where
  kept := ⟨b, hseat, hfrozen⟩
  changes c := by
    rw [answer?, hseat, Option.map_some, Builder.respond_change_of_finalized hfrozen.finalized]
  request := by
    rw [answer?, hseat, Option.map_some, Builder.respond, hfrozen.request]
  resolution rules := by
    refine ⟨_, hsound.resolution rules, ?_⟩
    rw [answer?, hseat, Option.map_some, Builder.respond, hfrozen.request, hsound.resolution rules]
    rfl

/-- After a call that is no change a builder is frozen, whatever follows. -/
theorem frozenAt_run (hsound : seat.builder.Sound seat.workshop) (hseat : bench.seats[place]? = some seat) {c : Call}
    (hc : c.closes = true) (after : List Move) : ((bench.step (.call place c)).run after).FrozenAt place seat := by
  have hkeeps : ∀ (w : Workshop) (b : Builder) (call : Call),
      seat.builder.FrozenAs b → seat.builder.FrozenAs (b.respond w call).2 := fun _ _ call h => h.respond call
  have hstart : seat.builder.FrozenAs (seat.builder.respond seat.workshop c).2 :=
    Builder.frozenAs_respond_of_closes hc rfl rfl rfl
  obtain ⟨b, hb, hfrozen⟩ := run_keeps hkeeps (getElem?_step_call hseat c) hstart after
  exact frozenAt_of_frozenAs hsound hb hfrozen

/-- The name that a builder answers it answers again, whatever follows and whatever counter it is handed. -/
theorem answer?_name_run (hsound : seat.builder.Sound seat.workshop) (hseat : bench.seats[place]? = some seat)
    (counter : LabelCounter) :
    ∃ name, bench.answer? place (.name counter) = some (.ok (.name name)) ∧
      ∀ after counter', ((bench.step (.call place (.name counter))).run after).answer? place (.name counter') =
        some (.ok (.name name)) := by
  obtain ⟨name, hanswer, hkept⟩ := hsound.respond_name counter
  refine ⟨name, by rw [answer?, hseat, Option.map_some, hanswer], fun after counter' => ?_⟩
  have hkeeps : ∀ (w : Workshop) (b : Builder) (call : Call), b.finalized = true ∧ b.name? = some name →
      (b.respond w call).2.finalized = true ∧ (b.respond w call).2.name? = some name :=
    fun _ _ call h => Builder.name?_respond_of_finalized h call
  obtain ⟨b, hb, -, hname⟩ := run_keeps hkeeps (getElem?_step_call hseat (.name counter)) hkept after
  rw [answer?, hb, Option.map_some, Builder.respond, Builder.nameWith_of_name? hname]
  rfl

/-- A copy takes the place after the last one. -/
theorem getElem?_step_copy (hseat : bench.seats[place]? = some seat) :
    (bench.step (.copy place)).seats[bench.seats.length]? = some ⟨seat.workshop, seat.builder.copy⟩ := by
  rw [seats_step_copy hseat, List.getElem?_append_right (Nat.le_refl _), Nat.sub_self]
  rfl

end Bench

/-- Finalization freezes a definition for good. Take any builder at a bench after any run of moves. Once a call that is no change
is made on it, it is frozen as it was, after every continuation: its definition never changes, every change is refused, and
the request and the resolution are always the same. The name that it answers, however early, it answers after every
continuation, whatever counter it is handed. A drawn name is neither part of its request nor of a resolution or the fingerprint.
A copy has its types, members and explicit name, is open, and moves that do not call the builder itself, those of the copy
among them, leave it as it was. -/
theorem finalized_for_good (before : List Move) (place : Nat) (seat : Seat)
    (hseat : (Bench.run {} before).seats[place]? = some seat) :
    let bench := Bench.run {} before
    (∀ c, c.closes = true → ∀ after, ((bench.step (.call place c)).run after).FrozenAt place seat) ∧
      (∀ counter, ∃ name, bench.answer? place (.name counter) = some (.ok (.name name)) ∧
        ∀ after counter', ((bench.step (.call place (.name counter))).run after).answer? place (.name counter') =
          some (.ok (.name name))) ∧
      (∀ name, seat.builder.drawnName = some name →
        seat.builder.request.typeName = none ∧ (Fingerprint.ofRequest seat.builder.request).typeName = none ∧
          ∀ rules r, Resolution.ofRequest rules seat.builder.request = .ok r →
            r.typeName = none ∧ r.fingerprint.typeName = none) ∧
      ∃ copy : Builder, (bench.step (.copy place)).seats[bench.seats.length]? = some ⟨seat.workshop, copy⟩ ∧
        copy.types = seat.builder.types ∧ copy.members = seat.builder.members ∧
        copy.explicitName = seat.builder.explicitName ∧ copy.finalized = false ∧
        ∀ moves, (∀ move ∈ moves, move.target? ≠ some place) →
          ((bench.step (.copy place)).run moves).seats[place]? = some seat := by
  intro bench
  have hsound := Bench.sound_run before seat (List.mem_of_getElem? hseat)
  refine ⟨fun c hc after => Bench.frozenAt_run hsound hseat hc after,
    fun counter => Bench.answer?_name_run hsound hseat counter, fun name hdrawn => ?_, ?_⟩
  · have hnone := hsound.request_of_drawn hdrawn
    refine ⟨hnone, hnone, fun rules r hr => ?_⟩
    rw [hsound.resolution rules] at hr
    rw [← Except.ok.inj hr]
    exact ⟨hnone, hnone⟩
  · refine ⟨seat.builder.copy, Bench.getElem?_step_copy hseat, rfl, rfl, rfl, rfl, fun moves hmoves => ?_⟩
    have htarget : (Move.copy place).target? ≠ some place := by simp [Move.target?]
    have hcopied := Bench.getElem?_step_of_target_ne hseat htarget
    exact Bench.getElem?_run_of_target_ne hcopied hmoves

namespace FinalizedExample

/-- A builder of which the name is asked, while its copy has an explicit one. -/
def moves : List Move := SoundnessExample.moves ++ [.call 0 (.name ⟨7⟩)]

/-- The builder in the end. -/
def animal : Seat where
  workshop := SoundnessExample.workshop
  builder :=
    { types := [{ name := "Animal", kind := .extensible }, { name := "Loud", kind := .mixin }]
      drawnName := some "Mock_Animal_7"
      finalized := true }

end FinalizedExample

/-- The builder in the example is frozen after a change that it is told to make, answers the name that it has drawn although its
request has none, and is not touched when its copy is named. -/
theorem finalized_for_good_animal :
    let bench := Bench.run {} FinalizedExample.moves
    bench.seats[0]? = some FinalizedExample.animal ∧
      ((bench.step (.call 0 .finalize)).run [.call 0 (.change (.setName "Cat"))]).FrozenAt 0 FinalizedExample.animal ∧
      FinalizedExample.animal.builder.request.typeName = none ∧
      ((bench.step (.copy 0)).run [.call 2 (.change (.setName "Cat"))]).seats[0]? = some FinalizedExample.animal := by
  intro bench
  have hseat : bench.seats[0]? = some FinalizedExample.animal := by with_unfolding_all rfl
  obtain ⟨hfrozen, -, hdrawn, copy, -, -, -, -, -, hcopy⟩ :=
    finalized_for_good FinalizedExample.moves 0 FinalizedExample.animal hseat
  exact ⟨hseat, hfrozen .finalize rfl _, (hdrawn "Mock_Animal_7" rfl).1, hcopy _ (by simp [Move.target?])⟩

end TestDouble
