import Mathlib.Algebra.Group.Nat.Defs
import TestDouble.Proofs.Builder.Finalized
import TestDouble.Proofs.Builder.Refusals
import TestDouble.Proofs.Label.Recovered

/-!
# The ledger of draws

The builders at a desk draw their labels from one counter, and labels are drawn from it for no builder as well. A run of steps
leaves a list of draws behind it (`Desk.draws`). Whatever happens at the desk, the labels in this list count up from where the
counter started, no builder stands in it twice, and every drawn name is the answer of a draw (`Desk.Ledger`). One step adds to
the ledger what it draws, and so does a run (`Ledger.step?`, `Ledger.run?`).
-/

namespace TestDouble

/-- A label that was drawn, with the step that drew it and the answer of that step. -/
structure Draw where
  reply : Reply
  label : UInt64

/-- Whether a reply is to one who asked for a label, for no builder. -/
def Reply.asksLabel (reply : Reply) : Bool :=
  match reply.step with
  | .tell _ .label => true
  | _ => false

namespace Draw

/-- The place of the builder that a label was drawn for, unless it was drawn for none. -/
def taker? (draw : Draw) : Option Nat :=
  match draw.reply.step with
  | .tell place .name => some place
  | _ => none

/-- A label that was drawn is what the step answers: the label itself, or a default name made of it. -/
inductive HandedOver : Draw → Prop
  | label (place : Nat) (label : UInt64) : HandedOver ⟨⟨.tell place .label, .ok (.label label)⟩, label⟩
  | name (place : Nat) (start : String) (types : Classified) (label : UInt64) :
    HandedOver ⟨⟨.tell place .name, .ok (.name (defaultName start types label))⟩, label⟩

/-- The label of a draw is read back from the name that it was answered in. -/
theorem HandedOver.labelValue_eq {draw : Draw} (h : draw.HandedOver) {place : Nat} {name : String}
    (hreply : draw.reply = ⟨.tell place .name, .ok (.name name)⟩) : labelValue name = draw.label.toNat := by
  cases h with
  | label other label => cases hreply
  | name other start types label =>
    cases hreply
    exact labelValue_defaultName start types label

end Draw

/-! ## Names of the builders at a bench -/

namespace Bench

/-- The default name that the builder in a place has drawn, if it has. -/
def drawnName? (bench : Bench) (place : Nat) : Option String := (bench.seats[place]?).bind (·.builder.drawnName)

variable {bench : Bench} {place : Nat} {seat : Seat}

/-- A builder that has drawn nothing adds no drawn name when it takes a new place. -/
theorem drawnName?_append (bench : Bench) {seat : Seat} (h : seat.builder.drawnName = none) (place : Nat) :
    (⟨bench.seats ++ [seat]⟩ : Bench).drawnName? place = bench.drawnName? place := by
  unfold drawnName?
  rcases Nat.lt_or_ge place bench.seats.length with hplace | hplace
  · rw [List.getElem?_append_left hplace]
  · rw [List.getElem?_append_right hplace, List.getElem?_eq_none hplace]
    cases place - bench.seats.length with
    | zero => exact h
    | succ n => rfl

/-- A call changes the drawn name of the builder that is called, and of no other. -/
theorem drawnName?_step_call (hseat : bench.seats[place]? = some seat) (c : Call) (other : Nat) :
    (bench.step (.call place c)).drawnName? other =
      if other = place then (seat.builder.respond seat.workshop c).2.drawnName else bench.drawnName? other := by
  unfold drawnName?
  by_cases h : other = place
  · subst h
    rw [getElem?_step_call hseat, if_pos rfl]
    rfl
  · rw [seats_step_call hseat, List.getElem?_set_ne (fun e => h e.symm), if_neg h]

/-- The drawn name of a builder is looked up in its place. -/
theorem drawnName?_of_seat (hseat : bench.seats[place]? = some seat) :
    bench.drawnName? place = seat.builder.drawnName := by
  rw [drawnName?, hseat]
  rfl

/-- A call that keeps the drawn name of its builder keeps all of them. -/
theorem drawnName?_step_call_of_kept (hseat : bench.seats[place]? = some seat) {c : Call}
    (hkept : (seat.builder.respond seat.workshop c).2.drawnName = seat.builder.drawnName) (other : Nat) :
    (bench.step (.call place c)).drawnName? other = bench.drawnName? other := by
  rw [drawnName?_step_call hseat, hkept]
  split
  · rename_i he
    rw [he, drawnName?_of_seat hseat]
  · rfl

/-- A place with a drawn name is that of a builder that has drawn it. -/
theorem exists_seat_of_drawnName? {name : String} (h : bench.drawnName? place = some name) :
    ∃ seat, bench.seats[place]? = some seat ∧ seat.builder.drawnName = some name :=
  Option.bind_eq_some_iff.mp h

end Bench

namespace Builder

variable {w : Workshop} {b : Builder}

/-- A change leaves the drawn name as it was. -/
theorem drawnName_respond_change (w : Workshop) (b : Builder) (c : Change) :
    (b.respond w (.change c)).2.drawnName = b.drawnName := by
  rcases respond_change w b c with hkept | ⟨-, hchanged⟩
  · rw [hkept]
  · rcases change_cases hchanged with ⟨types, h, -, -⟩ | ⟨members, h⟩ | ⟨name, h, -⟩
    · rw [h]
    · rw [h]
    · rw [h]

/-- A builder without a name has drawn none. -/
theorem drawnName_of_no_name (h : b.name? = none) : b.drawnName = none := by
  have hexplicit := explicitName_of_no_name h
  unfold name? at h
  rw [hexplicit] at h
  exact h

/-- What asking a sound builder for its name does. A builder that has a name answers it and draws nothing. A builder without
one draws a label, and answers and keeps the default name made of it. -/
theorem Sound.nameWith_cases (h : b.Sound w) (counter : LabelCounter) :
    (∃ name, b.nameWith w counter = (.ok name, b.finalize, counter)) ∨
      ∃ types, b.drawnName = none ∧ b.nameWith w counter =
        (.ok (defaultName w.config.naming.start types counter.next),
          { b.finalize with drawnName := some (defaultName w.config.naming.start types counter.next) },
          counter.draw.2) := by
  cases hname : b.name? with
  | some name => exact .inl ⟨name, nameWith_of_name? hname w counter⟩
  | none => exact .inr ⟨_, drawnName_of_no_name hname, nameWith_of_no_name hname h.ofTypes w counter⟩

end Builder

/-! ## What a step draws -/

/-- A counter that has handed out a label is not where it was. -/
theorem LabelCounter.draw_ne (counter : LabelCounter) : counter.draw.2 ≠ counter := by
  intro h
  have hnext : counter.next + 1 = counter.next := congrArg LabelCounter.next h
  simp at hnext

namespace Desk

/-- What is drawn in one step: the label that the counter was about to hand out, if the counter has moved on. -/
def drawn (d : Desk) (reply : Reply) (later : Desk) : List Draw :=
  if later.counter = d.counter then [] else [⟨reply, d.counter.next⟩]

/-- The draws of a run of steps, in order. -/
def draws (d : Desk) : List Step → List Draw
  | [] => []
  | step :: rest =>
    match d.step? step with
    | none => []
    | some (answer, later) => d.drawn ⟨step, answer⟩ later ++ later.draws rest

variable {d later last : Desk} {place : Nat} {step : Step} {answer : Except Refusal Answer}

/-- Nothing is drawn where the counter stays. -/
theorem drawn_of_counter_eq (reply : Reply) (h : later.counter = d.counter) : d.drawn reply later = [] := by
  rw [drawn, if_pos h]

/-- A label is drawn where the counter moves on. -/
theorem drawn_of_counter_draw (reply : Reply) (h : later.counter = d.counter.draw.2) :
    d.drawn reply later = [⟨reply, d.counter.next⟩] := by
  have hmoved : later.counter ≠ d.counter := by
    rw [h]
    exact d.counter.draw_ne
  rw [drawn, if_neg hmoved]

/-- The draws of a run are those of its first step and those of the rest. -/
theorem draws_cons (hstep : d.step? step = some (answer, later)) (rest : List Step) :
    d.draws (step :: rest) = d.drawn ⟨step, answer⟩ later ++ later.draws rest := by
  rw [draws, hstep]

/-- A step at a sound desk draws nothing and leaves all drawn names as they were. Or it draws a label for no builder. Or it
draws one for a builder that had drawn none, and this builder keeps the default name made of it. -/
theorem Sound.step?_draws (h : d.Sound) (hstep : d.step? step = some (answer, later)) :
    (later.counter = d.counter ∧ Reply.asksLabel ⟨step, answer⟩ = false ∧
        ∀ place, later.bench.drawnName? place = d.bench.drawnName? place) ∨
      (∃ place, step = .tell place .label ∧ answer = .ok (.label d.counter.next) ∧
        later = { d with counter := d.counter.draw.2 }) ∨
      ∃ place start types, step = .tell place .name ∧
        answer = .ok (.name (defaultName start types d.counter.next)) ∧ later.counter = d.counter.draw.2 ∧
        d.bench.drawnName? place = none ∧
        ∀ other, later.bench.drawnName? other =
          if other = place then some (defaultName start types d.counter.next) else d.bench.drawnName? other := by
  cases step with
  | fresh w =>
    cases hstep
    exact .inl ⟨rfl, rfl, Bench.drawnName?_append d.bench rfl⟩
  | tell place command =>
    obtain ⟨seat, hseat, htold⟩ := Option.map_eq_some_iff.mp hstep
    have hquiet := fun c => Bench.drawnName?_step_call_of_kept (c := c) hseat
    cases command with
    | change c =>
      cases htold
      exact .inl ⟨rfl, rfl, hquiet _ (Builder.drawnName_respond_change _ _ c)⟩
    | finalize =>
      cases htold
      exact .inl ⟨rfl, rfl, hquiet _ rfl⟩
    | request =>
      cases htold
      exact .inl ⟨rfl, rfl, hquiet _ rfl⟩
    | resolve =>
      cases htold
      exact .inl ⟨rfl, rfl, hquiet _ rfl⟩
    | label =>
      cases htold
      exact .inr (.inl ⟨place, rfl, rfl, rfl⟩)
    | copy =>
      cases htold
      refine .inl ⟨rfl, rfl, fun other => ?_⟩
      rw [Bench.step, hseat]
      exact Bench.drawnName?_append d.bench rfl other
    | name =>
      rcases (h seat (List.mem_of_getElem? hseat)).nameWith_cases d.counter with ⟨name, hname⟩ | ⟨types, hnone, hname⟩
      · simp only [tell, call, hname] at htold
        cases htold
        refine .inl ⟨rfl, rfl, hquiet _ ?_⟩
        simp only [Builder.respond, hname]
        rfl
      · simp only [tell, call, Builder.respond, hname] at htold
        cases htold
        refine .inr (.inr ⟨place, seat.workshop.config.naming.start, types, rfl, rfl, rfl, ?_, fun other => ?_⟩)
        · rw [Bench.drawnName?_of_seat hseat, hnone]
        · rw [Bench.drawnName?_step_call hseat, Builder.respond]
          simp only [hname]

/-! ## The ledger -/

/-- What the draws up to now and the desk have to do with each other, where the counter started with a label. The counter is as
many labels further as there are draws, and the labels count up from the first one. Every label was answered, no builder has
drawn twice, a builder that has drawn a label has drawn its name, and that name is what the draw was answered. -/
structure Ledger (first : UInt64) (draws : List Draw) (d : Desk) : Prop where
  counter : d.counter.next.toNat = (first.toNat + draws.length) % 2 ^ 64
  labels : ∀ i draw, draws[i]? = some draw → draw.label.toNat = (first.toNat + i) % 2 ^ 64
  handedOver : ∀ draw ∈ draws, draw.HandedOver
  once : (draws.filterMap Draw.taker?).Nodup
  kept : ∀ place ∈ draws.filterMap Draw.taker?, d.bench.drawnName? place ≠ none
  answered : ∀ place name, d.bench.drawnName? place = some name →
    ∃ draw ∈ draws, draw.reply = ⟨.tell place .name, .ok (.name name)⟩

namespace Ledger

variable {first : UInt64} {draws : List Draw}

/-- Nothing is drawn at first. -/
theorem start (rules : IdentifierRules) (first : UInt64) : Ledger first [] ⟨rules, ⟨first⟩, {}⟩ where
  counter := (Nat.mod_eq_of_lt first.toNat_lt).symm
  labels := by simp
  handedOver := by simp
  once := List.nodup_nil
  kept := by simp
  answered := by simp [Bench.drawnName?]

/-- A ledger stays right while the counter and the drawn names stay. -/
theorem quiet (h : Ledger first draws d) (hcounter : later.counter = d.counter)
    (hnames : ∀ place, later.bench.drawnName? place = d.bench.drawnName? place) : Ledger first draws later where
  counter := hcounter ▸ h.counter
  labels := h.labels
  handedOver := h.handedOver
  once := h.once
  kept place hplace := by
    rw [hnames]
    exact h.kept place hplace
  answered place name hname := by
    rw [hnames] at hname
    exact h.answered place name hname

/-- A ledger goes on with the label that the counter hands out next, for no builder or for one that has drawn none. -/
theorem draw (h : Ledger first draws d) {reply : Reply} (hcounter : later.counter = d.counter.draw.2)
    (hhanded : Draw.HandedOver ⟨reply, d.counter.next⟩)
    (htaker : ∀ place, Draw.taker? ⟨reply, d.counter.next⟩ = some place →
      d.bench.drawnName? place = none ∧ later.bench.drawnName? place ≠ none)
    (hkept : ∀ place, d.bench.drawnName? place ≠ none → later.bench.drawnName? place ≠ none)
    (hanswered : ∀ place name, later.bench.drawnName? place = some name →
      d.bench.drawnName? place = some name ∨ reply = ⟨.tell place .name, .ok (.name name)⟩) :
    Ledger first (draws ++ [⟨reply, d.counter.next⟩]) later where
  counter := by
    have hone : (1 : UInt64).toNat = 1 := rfl
    rw [hcounter, LabelCounter.draw, UInt64.toNat_add, h.counter, hone, List.length_append, List.length_singleton]
    omega
  labels i draw hdraw := by
    rcases Nat.lt_or_ge i draws.length with hi | hi
    · rw [List.getElem?_append_left hi] at hdraw
      exact h.labels i draw hdraw
    · rw [List.getElem?_append_right hi, List.getElem?_singleton] at hdraw
      split at hdraw
      · obtain rfl := Option.some.inj hdraw
        have hlast : i = draws.length := by omega
        rw [hlast]
        exact h.counter
      · cases hdraw
  handedOver := List.forall_mem_append.mpr ⟨h.handedOver, List.forall_mem_singleton.mpr hhanded⟩
  once := by
    rw [List.filterMap_append, List.nodup_append]
    refine ⟨h.once, ?_, fun place hplace other hother => ?_⟩
    · cases htake : Draw.taker? ⟨reply, d.counter.next⟩ <;> simp [htake]
    · rintro rfl
      have htake : Draw.taker? ⟨reply, d.counter.next⟩ = some place := by simpa using hother
      exact h.kept place hplace (htaker place htake).1
  kept place hplace := by
    rw [List.filterMap_append, List.mem_append] at hplace
    rcases hplace with hplace | hplace
    · exact hkept place (h.kept place hplace)
    · have htake : Draw.taker? ⟨reply, d.counter.next⟩ = some place := by simpa using hplace
      exact (htaker place htake).2
  answered place name hname := by
    rcases hanswered place name hname with hbefore | hnow
    · obtain ⟨draw, hdraw, hreply⟩ := h.answered place name hbefore
      exact ⟨draw, List.mem_append_left _ hdraw, hreply⟩
    · exact ⟨⟨reply, d.counter.next⟩, List.mem_append_right _ List.mem_cons_self, hnow⟩

/-- A step at a sound desk adds to the ledger what it draws. -/
theorem step? (h : Ledger first draws d) (hsound : d.Sound) (hstep : d.step? step = some (answer, later)) :
    Ledger first (draws ++ d.drawn ⟨step, answer⟩ later) later := by
  rcases hsound.step?_draws hstep with ⟨hcounter, -, hnames⟩ | ⟨place, rfl, rfl, rfl⟩ |
    ⟨place, start, types, rfl, rfl, hcounter, hnone, hnames⟩
  · rw [drawn_of_counter_eq _ hcounter, List.append_nil]
    exact h.quiet hcounter hnames
  · rw [drawn_of_counter_draw _ rfl]
    exact h.draw rfl (.label place _) nofun (fun _ hkept => hkept) (fun _ _ hname => .inl hname)
  · rw [drawn_of_counter_draw _ hcounter]
    refine h.draw hcounter (.name place start types _) ?_ ?_ ?_
    · intro other hother
      obtain rfl : place = other := Option.some.inj hother
      refine ⟨hnone, ?_⟩
      rw [hnames, if_pos rfl]
      exact Option.some_ne_none _
    · intro other hother
      rw [hnames]
      split
      · exact Option.some_ne_none _
      · exact hother
    · intro other name hname
      rw [hnames] at hname
      split at hname
      · rename_i he
        rw [he, Option.some.inj hname]
        exact .inr rfl
      · exact .inl hname

end Ledger

/-- A run at a sound desk adds to the ledger what its steps draw. -/
theorem Ledger.run? {first : UInt64} {draws : List Draw} {steps : List Step} {replies : List Reply}
    (h : Ledger first draws d) (hsound : d.Sound) (hrun : d.run? steps = some (replies, last)) :
    Ledger first (draws ++ d.draws steps) last := by
  induction steps generalizing d draws replies with
  | nil =>
    cases hrun
    rw [Desk.draws, List.append_nil]
    exact h
  | cons step rest ih =>
    obtain ⟨answer, later, others, hstep, hrest, -⟩ := exists_of_run?_cons hrun
    rw [draws_cons hstep, ← List.append_assoc]
    exact ih (h.step? hsound hstep) (hsound.step? hstep) hrest

end Desk

end TestDouble
