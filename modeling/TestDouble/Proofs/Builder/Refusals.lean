import TestDouble.Builder.Desk
import TestDouble.Proofs.Builder.Faults

/-!
# What is refused leaves no trace

A call that a builder refuses leaves it as it was. For a change this is so at any time, for it is made in place but behind all its
checks (`Builder.atomic_edit`); that no other call is refused takes a sound builder, for asking for a resolution or a name closes a
builder even where it is refused. So at a desk that started empty a
refused step leaves the desk as it was (`Sound.eq_of_refused`), and a run can be cut down to the steps that were accepted
(`refused_steps_invisible`).
-/

namespace TestDouble

/-! ## Calls -/

/-- A sound builder is left as it was by a call that it refuses. -/
theorem Builder.Sound.respond_of_refused {w : Workshop} {b : Builder} (h : b.Sound w) {c : Call} {refusal : Refusal}
    (hrefused : (b.respond w c).1 = .error refusal) : (b.respond w c).2 = b := by
  cases c with
  | change change =>
    rw [Builder.respond_change_eq] at hrefused ⊢
    cases hchange : b.apply w change with
    | error refusal => rfl
    | ok changed =>
      rw [hchange] at hrefused
      cases hrefused
  | finalize => cases hrefused
  | request => cases hrefused
  | resolve rules =>
    rw [Builder.respond, h.resolution rules] at hrefused
    cases hrefused
  | name counter =>
    obtain ⟨name, hname, -⟩ := h.exists_name counter
    simp only [Builder.respond, hname] at hrefused
    cases hrefused

/-- A call that leaves the builder as it was leaves the bench as it was. -/
theorem Bench.step_call_of_kept {bench : Bench} {place : Nat} {seat : Seat} (hseat : bench.seats[place]? = some seat)
    {c : Call} (hkept : (seat.builder.respond seat.workshop c).2 = seat.builder) : bench.step (.call place c) = bench := by
  obtain ⟨hplace, hget⟩ := List.getElem?_eq_some_iff.mp hseat
  have hsame : bench.seats.set place seat = bench.seats := by rw [← hget, List.set_getElem_self hplace]
  rw [step, hseat]
  simp only [hkept, hsame]

namespace Desk

variable {d later last : Desk} {place : Nat} {seat : Seat} {step : Step} {answer : Except Refusal Answer}
  {refusal : Refusal}

/-! ## One step -/

/-- All builders at a desk are sound. -/
def Sound (d : Desk) : Prop := ∀ seat ∈ d.bench.seats, seat.builder.Sound seat.workshop

/-- What happens at the bench when a builder is told something: it is called, or copied, or nothing. -/
theorem tell_bench (d : Desk) (place : Nat) (seat : Seat) (command : Command) :
    (d.tell place seat command).2.bench = d.bench ∨ ∃ move, (d.tell place seat command).2.bench = d.bench.step move := by
  cases command with
  | change c => exact .inr ⟨.call place (.change c), rfl⟩
  | finalize => exact .inr ⟨.call place .finalize, rfl⟩
  | request => exact .inr ⟨.call place .request, rfl⟩
  | resolve => exact .inr ⟨.call place (.resolve d.rules), rfl⟩
  | name => exact .inr ⟨.call place (.name d.counter), rfl⟩
  | label => exact .inl rfl
  | copy => exact .inr ⟨.copy place, rfl⟩

/-- A step at a desk is a move at the bench, or none. -/
theorem step?_bench (h : d.step? step = some (answer, later)) :
    later.bench = d.bench ∨ ∃ move, later.bench = d.bench.step move := by
  cases step with
  | fresh w =>
    cases h
    exact .inr ⟨.fresh w, rfl⟩
  | tell place command =>
    obtain ⟨seat, -, htold⟩ := Option.map_eq_some_iff.mp h
    have hlater : later = (d.tell place seat command).2 := by rw [htold]
    rw [hlater]
    exact tell_bench d place seat command

/-- Every step keeps a desk sound. -/
theorem Sound.step? (h : d.Sound) (hstep : d.step? step = some (answer, later)) : later.Sound := by
  rcases step?_bench hstep with hbench | ⟨move, hbench⟩
  · rwa [Sound, hbench]
  · rw [Sound, hbench]
    exact Bench.forall_step Builder.sound_fresh (fun _ _ h => h.copy) (fun _ _ c h => h.respond c) h move

/-- A call that is refused at a sound desk leaves the desk as it was. -/
theorem Sound.call_of_refused (h : d.Sound) (hseat : d.bench.seats[place]? = some seat) {c : Call}
    (hrefused : (d.call place seat c).1 = .error refusal) : (d.call place seat c).2 = d := by
  have hkept := (h seat (List.mem_of_getElem? hseat)).respond_of_refused hrefused
  rw [call, Bench.step_call_of_kept hseat hkept]

/-- A step that is refused at a sound desk leaves the desk as it was. -/
theorem Sound.eq_of_refused (h : d.Sound) (hstep : d.step? step = some (.error refusal, later)) : later = d := by
  cases step with
  | fresh w => cases hstep
  | tell place command =>
    obtain ⟨seat, hseat, htold⟩ := Option.map_eq_some_iff.mp hstep
    have hcall : ∀ c, d.call place seat c = (.error refusal, later) → later = d := by
      intro c hc
      have hkept := h.call_of_refused hseat (congrArg Prod.fst hc)
      rwa [hc] at hkept
    cases command with
    | change c => exact hcall (.change c) htold
    | finalize => exact hcall .finalize htold
    | request => exact hcall .request htold
    | resolve => exact hcall (.resolve d.rules) htold
    | name =>
      obtain ⟨name, hname, -⟩ := (h seat (List.mem_of_getElem? hseat)).exists_name d.counter
      have hanswer := congrArg Prod.fst htold
      simp only [tell, call, Builder.respond, hname] at hanswer
      cases hanswer
    | label => cases htold
    | copy => cases htold

/-- A change of a builder at a desk is refused, and leaves the desk as it was, exactly when the builder is closed or the change
is faulty. -/
theorem Sound.refused_iff (h : d.Sound) (hseat : d.bench.seats[place]? = some seat) (c : Change) :
    (∃ refusal, d.step? (.tell place (.change c)) = some (.error refusal, d)) ↔
      seat.builder.finalized = true ∨ c.Faulty seat.workshop seat.builder := by
  have hstep : d.step? (.tell place (.change c)) = some (d.call place seat (.change c)) := by
    rw [Desk.step?, hseat]
    rfl
  rw [← Builder.isOk_apply_iff (h seat (List.mem_of_getElem? hseat)).distinct, hstep]
  cases hchange : seat.builder.apply seat.workshop c with
  | error refusal =>
    have hrefused : (d.call place seat (.change c)).1 = .error refusal := by rw [call, Builder.respond_change_eq, hchange]
    have hkept := h.call_of_refused hseat hrefused
    exact iff_of_true ⟨refusal, congrArg some (Prod.ext hrefused hkept)⟩ rfl
  | ok changed =>
    refine iff_of_false ?_ (by simp [Except.isOk, Except.toBool])
    rintro ⟨refusal, hrefused⟩
    have hanswer := congrArg Prod.fst (Option.some.inj hrefused)
    rw [call, Builder.respond_change_eq, hchange] at hanswer
    cases hanswer

/-! ## A run of steps -/

/-- A run goes on after a step that is taken. -/
theorem run?_cons (hstep : d.step? step = some (answer, later)) (rest : List Step) :
    d.run? (step :: rest) = (later.run? rest).map (fun (replies, last) => (⟨step, answer⟩ :: replies, last)) := by
  rw [run?, hstep]

/-- A run that has a first step takes it and goes on. -/
theorem exists_of_run?_cons {rest : List Step} {replies : List Reply}
    (hrun : d.run? (step :: rest) = some (replies, last)) :
    ∃ answer later others, d.step? step = some (answer, later) ∧ later.run? rest = some (others, last) ∧
      replies = ⟨step, answer⟩ :: others := by
  cases hstep : d.step? step with
  | none =>
    rw [run?, hstep] at hrun
    cases hrun
  | some taken =>
    obtain ⟨answer, later⟩ := taken
    rw [run?_cons hstep] at hrun
    obtain ⟨⟨others, last⟩, hrest, hall⟩ := Option.map_eq_some_iff.mp hrun
    cases hall
    exact ⟨answer, later, others, rfl, hrest, rfl⟩

/-- A run replies to each of its steps. -/
theorem map_step_of_run? {steps : List Step} {replies : List Reply} (hrun : d.run? steps = some (replies, last)) :
    replies.map (·.step) = steps := by
  induction steps generalizing d replies with
  | nil =>
    cases hrun
    rfl
  | cons step rest ih =>
    obtain ⟨answer, later, others, -, hrest, rfl⟩ := exists_of_run?_cons hrun
    rw [List.map_cons, ih hrest]

/-- A run keeps a desk sound. -/
theorem Sound.run? {steps : List Step} {replies : List Reply} (h : d.Sound)
    (hrun : d.run? steps = some (replies, last)) : last.Sound := by
  induction steps generalizing d replies with
  | nil =>
    cases hrun
    exact h
  | cons step rest ih =>
    obtain ⟨answer, later, others, hstep, hrest, -⟩ := exists_of_run?_cons hrun
    exact ih (h.step? hstep) hrest

/-- The accepted steps of a run at a sound desk, taken alone, get the same answers and lead to the same desk. -/
theorem Sound.run?_accepted {steps : List Step} {replies : List Reply} (h : d.Sound)
    (hrun : d.run? steps = some (replies, last)) :
    d.run? ((replies.filter (·.accepted)).map (·.step)) = some (replies.filter (·.accepted), last) := by
  induction steps generalizing d replies with
  | nil =>
    cases hrun
    rfl
  | cons step rest ih =>
    obtain ⟨answer, later, others, hstep, hrest, rfl⟩ := exists_of_run?_cons hrun
    have hothers := ih (h.step? hstep) hrest
    cases answer with
    | error refusal =>
      have hrefused : (⟨step, .error refusal⟩ : Reply).accepted = false := rfl
      rw [List.filter_cons_of_neg (by simp [hrefused])]
      rwa [h.eq_of_refused hstep] at hothers
    | ok answer =>
      have haccepted : (⟨step, .ok answer⟩ : Reply).accepted = true := rfl
      rw [List.filter_cons_of_pos haccepted, List.map_cons, run?_cons hstep, hothers]
      rfl

end Desk

/-- What is refused leaves no trace. Take any run of steps at a desk, over any number of builders, made fresh in any workshops or
copied, that share the rules of a resolver and a label counter. It replies to each step. The steps that were not refused, taken
alone, get the same answers and lead to the same builders and the same counter. In particular, whatever has happened, a change
that is faulty is refused and leaves everything as it was, and so is any change of a closed builder; no other change is
refused. -/
theorem refused_steps_invisible (rules : IdentifierRules) (counter : LabelCounter) (steps : List Step)
    (replies : List Reply) (last : Desk) (hrun : Desk.run? ⟨rules, counter, {}⟩ steps = some (replies, last)) :
    replies.map (·.step) = steps ∧
      Desk.run? ⟨rules, counter, {}⟩ ((replies.filter (·.accepted)).map (·.step)) =
        some (replies.filter (·.accepted), last) ∧
      ∀ place seat, last.bench.seats[place]? = some seat → ∀ c : Change,
        (∃ refusal, last.step? (.tell place (.change c)) = some (.error refusal, last)) ↔
          seat.builder.finalized = true ∨ c.Faulty seat.workshop seat.builder := by
  have hempty : Desk.Sound ⟨rules, counter, {}⟩ := by simp [Desk.Sound]
  exact ⟨Desk.map_step_of_run? hrun, hempty.run?_accepted hrun, fun _ _ hseat c => (hempty.run? hrun).refused_iff hseat c⟩

namespace RefusalsExample

open SoundnessExample

/-- A run in which a name that means no type, a definition with a good entry and one without a name, and a change of a closed
builder are refused. -/
def replies : List Reply :=
  [⟨.fresh workshop, .ok (.place 0)⟩,
    ⟨.tell 0 (.change (.likeNames ["Animal"])), .ok .done⟩,
    ⟨.tell 0 (.change (.likeNames ["Loud", "Nowhere"])), .error (.unknownType "Nowhere")⟩,
    ⟨.tell 0 (.change (.likeDefinition [("sound", .data (.text "low")), ("", .data .null)])),
      .error (.malformedEntry "" .missingName)⟩,
    ⟨.tell 0 .name, .ok (.name "Mock_Animal_0")⟩,
    ⟨.tell 0 (.change (.setName "Dog")), .error .finalized⟩]

/-- The desk in the end. -/
def last : Desk where
  counter := ⟨1⟩
  bench := ⟨[{
    workshop := workshop
    builder :=
      { types := [{ name := "Animal", kind := .extensible }]
        drawnName := some "Mock_Animal_0"
        finalized := true } }]⟩

end RefusalsExample

open RefusalsExample in
/-- The run in the example leads to the same desk when only its first two steps and the one that asks for the name are taken, and
the closed builder refuses to be named again. -/
theorem refused_steps_invisible_animal :
    Desk.run? ⟨{}, {}, {}⟩ (replies.map (·.step)) = some (replies, last) ∧
      Desk.run? ⟨{}, {}, {}⟩ [.fresh SoundnessExample.workshop, .tell 0 (.change (.likeNames ["Animal"])), .tell 0 .name] =
        some (replies.filter (·.accepted), last) ∧
      ∃ refusal, last.step? (.tell 0 (.change (.setName "Dog"))) = some (.error refusal, last) := by
  have hrun : Desk.run? ⟨{}, {}, {}⟩ (replies.map (·.step)) = some (replies, last) := by with_unfolding_all rfl
  obtain ⟨-, haccepted, hrefused⟩ := refused_steps_invisible {} {} (replies.map (·.step)) replies last hrun
  exact ⟨hrun, haccepted, (hrefused 0 _ rfl (.setName "Dog")).mpr (.inl rfl)⟩

end TestDouble
