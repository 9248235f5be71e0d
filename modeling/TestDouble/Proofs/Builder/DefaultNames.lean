import Mathlib.Algebra.Group.Nat.Defs
import TestDouble.Proofs.Builder.Batch
import TestDouble.Proofs.Builder.Draws

/-!
# No label is handed out twice

The draws of a run are found among its replies. A default name that is answered is the answer of a draw, and it tells its label.
So builders with default names have different ones until the counter starts over (`labels_never_repeat`).
-/

namespace TestDouble

/-! ## Explicit names -/

/-- The explicit name of the builder in a place, if it has one. -/
def Bench.explicitName? (bench : Bench) (place : Nat) : Option String := (bench.seats[place]?).bind (·.builder.explicitName)

/-- A builder with an explicit name has one after every call. -/
theorem Builder.explicitName_respond {w : Workshop} {b : Builder} (h : b.explicitName ≠ none) (c : Call) :
    (b.respond w c).2.explicitName ≠ none := by
  rw [(gathered_respond w b c).explicitName]
  exact fun hnone => h (Option.or_eq_none_iff.mp hnone).2

namespace Desk

variable {d later last : Desk} {place : Nat} {step : Step} {answer : Except Refusal Answer}

/-! ## Runs and their replies -/

/-- A run at a desk is a run of moves at its bench. -/
theorem exists_moves_of_run? {steps : List Step} {replies : List Reply} (hrun : d.run? steps = some (replies, last)) :
    ∃ moves, last.bench = d.bench.run moves := by
  induction steps generalizing d replies with
  | nil =>
    cases hrun
    exact ⟨[], rfl⟩
  | cons step rest ih =>
    obtain ⟨answer, later, others, hstep, hrest, -⟩ := exists_of_run?_cons hrun
    obtain ⟨moves, hmoves⟩ := ih hrest
    rcases step?_bench hstep with hkept | ⟨move, hmoved⟩
    · exact ⟨moves, by rw [hmoves, hkept]⟩
    · exact ⟨move :: moves, by rw [hmoves, hmoved]; rfl⟩

/-- A run can be cut in two. -/
theorem exists_of_run?_append {before after : List Step} {replies replies' : List Reply} {middle : Desk}
    (hrun : d.run? (before ++ after) = some (replies, last)) (hbefore : d.run? before = some (replies', middle)) :
    ∃ others, middle.run? after = some (others, last) := by
  induction before generalizing d replies replies' with
  | nil =>
    cases hbefore
    exact ⟨replies, hrun⟩
  | cons step rest ih =>
    obtain ⟨answer, later, others, hstep, hrest, -⟩ := exists_of_run?_cons hrun
    obtain ⟨answer', later', others', hstep', hrest', -⟩ := exists_of_run?_cons hbefore
    rw [hstep] at hstep'
    cases hstep'
    exact ih hrest hrest'

/-- The draws of a run are among its replies, in their order. -/
theorem sublist_replies_draws {steps : List Step} {replies : List Reply}
    (hrun : d.run? steps = some (replies, last)) : ((d.draws steps).map (·.reply)).Sublist replies := by
  induction steps generalizing d replies with
  | nil =>
    cases hrun
    exact List.Sublist.refl []
  | cons step rest ih =>
    obtain ⟨answer, later, others, hstep, hrest, rfl⟩ := exists_of_run?_cons hrun
    have hfirst : ((d.drawn ⟨step, answer⟩ later).map (·.reply)).Sublist [⟨step, answer⟩] := by
      unfold drawn
      split
      · exact List.nil_sublist _
      · exact List.Sublist.refl _
    rw [draws_cons hstep, List.map_append]
    exact hfirst.append (ih hrest)

/-- The draws for no builder are the replies to those who asked for a label, in their order. -/
theorem Sound.map_reply_draws {steps : List Step} {replies : List Reply} (h : d.Sound)
    (hrun : d.run? steps = some (replies, last)) :
    ((d.draws steps).filter (·.taker?.isNone)).map (·.reply) = replies.filter (·.asksLabel) := by
  induction steps generalizing d replies with
  | nil =>
    cases hrun
    rfl
  | cons step rest ih =>
    obtain ⟨answer, later, others, hstep, hrest, rfl⟩ := exists_of_run?_cons hrun
    rw [draws_cons hstep, List.filter_append, List.map_append, ih (h.step? hstep) hrest]
    rcases h.step?_draws hstep with ⟨hcounter, hasks, -⟩ | ⟨place, rfl, -, rfl⟩ |
      ⟨place, start, types, rfl, -, hcounter, -⟩
    · rw [drawn_of_counter_eq _ hcounter, List.filter_cons_of_neg (by simp [hasks])]
      rfl
    · rw [drawn_of_counter_draw _ rfl]
      rfl
    · rw [drawn_of_counter_draw _ hcounter]
      rfl

/-- A builder at a sound desk that answers its name is closed, and the answer is its name. -/
theorem Sound.named_of_step? (h : d.Sound) {name : String}
    (hstep : d.step? (.tell place .name) = some (.ok (.name name), later)) :
    ∃ seat, later.bench.seats[place]? = some seat ∧ seat.builder.finalized = true ∧
      seat.builder.name? = some name := by
  obtain ⟨seat, hseat, htold⟩ := Option.map_eq_some_iff.mp hstep
  obtain ⟨other, hanswer, hclosed, hname⟩ := (h seat (List.mem_of_getElem? hseat)).respond_name d.counter
  have hlater : later.bench = d.bench.step (.call place (.name d.counter)) := congrArg (·.2.bench) htold.symm
  have hsame : other = name := by
    have hfirst := congrArg Prod.fst htold
    simp only [tell, call, hanswer] at hfirst
    cases hfirst
    rfl
  rw [hlater, Bench.getElem?_step_call hseat]
  exact ⟨_, rfl, hclosed, hsame ▸ hname⟩

/-- The name that a builder answers at a sound desk is its name from then on. -/
theorem Sound.exists_name_of_reply {steps : List Step} {replies : List Reply} (h : d.Sound)
    (hrun : d.run? steps = some (replies, last)) {name : String}
    (hreply : ⟨.tell place .name, .ok (.name name)⟩ ∈ replies) :
    ∃ seat, last.bench.seats[place]? = some seat ∧ seat.builder.name? = some name := by
  induction steps generalizing d replies with
  | nil =>
    cases hrun
    cases hreply
  | cons step rest ih =>
    obtain ⟨answer, later, others, hstep, hrest, rfl⟩ := exists_of_run?_cons hrun
    rcases List.mem_cons.mp hreply with he | hlater
    · cases he
      obtain ⟨⟨w, b⟩, hseat, hnamed⟩ := h.named_of_step? hstep
      obtain ⟨moves, hmoves⟩ := exists_moves_of_run? hrest
      have hkeeps : ∀ (w : Workshop) (b : Builder) (c : Call), b.finalized = true ∧ b.name? = some name →
          (b.respond w c).2.finalized = true ∧ (b.respond w c).2.name? = some name :=
        fun _ _ c hb => Builder.name?_respond_of_finalized hb c
      obtain ⟨b', hb', -, hname⟩ := Bench.run_keeps hkeeps hseat hnamed moves
      rw [hmoves, hb']
      exact ⟨_, rfl, hname⟩
    · exact ih (h.step? hstep) hrest hlater

/-- A builder that has an explicit name at some time of a run has one in the end. -/
theorem explicitName?_run {steps : List Step} {replies : List Reply} (hrun : d.run? steps = some (replies, last))
    (h : d.bench.explicitName? place ≠ none) : last.bench.explicitName? place ≠ none := by
  obtain ⟨moves, hmoves⟩ := exists_moves_of_run? hrun
  obtain ⟨name, hname⟩ := Option.ne_none_iff_exists'.mp h
  obtain ⟨⟨w, b⟩, hseat, hb⟩ := Option.bind_eq_some_iff.mp hname
  have hnamed : b.explicitName ≠ none := by
    intro hnone
    cases hnone.symm.trans hb
  obtain ⟨b', hb', hkept⟩ :=
    Bench.run_keeps (P := fun _ b => b.explicitName ≠ none) (fun _ _ c hc => Builder.explicitName_respond hc c) hseat
      hnamed moves
  rw [hmoves, Bench.explicitName?, hb']
  exact hkept

end Desk

/-! ## Labels and default names of a run -/

/-- Labels that count up from one start are different as long as there are not more of them than labels. -/
theorem Desk.Ledger.label_ne {first : UInt64} {draws : List Draw} {d : Desk} (h : Desk.Ledger first draws d)
    (hlength : draws.length < 2 ^ 64) {draw draw' : Draw} (hdraw : draw ∈ draws) (hdraw' : draw' ∈ draws)
    (hne : draw ≠ draw') : draw.label ≠ draw'.label := by
  obtain ⟨i, hi⟩ := List.mem_iff_getElem?.mp hdraw
  obtain ⟨j, hj⟩ := List.mem_iff_getElem?.mp hdraw'
  have hi' := (List.getElem?_eq_some_iff.mp hi).1
  have hj' := (List.getElem?_eq_some_iff.mp hj).1
  have hij : i ≠ j := by
    rintro rfl
    exact hne (Option.some.inj (hi.symm.trans hj))
  intro hlabel
  have hsame := congrArg UInt64.toNat hlabel
  rw [h.labels i draw hi, h.labels j draw' hj] at hsame
  omega

/-- Default names are never given twice. Take any run of steps at a desk whose counter starts with a label, over any number of
builders, made fresh in any workshops or copied. The labels drawn in it count up from the first one, starting over after the
last number of sixty-four bits, and each is answered, as it is or in a default name. The draws are among the replies in their
order; those for no builder are the replies to all who asked for a label, and every default name that is answered is the answer
of a draw. No builder draws twice, and none that has an explicit name at any time draws at all. If fewer labels are drawn than
there are, builders in different places never answer the same default name. -/
theorem labels_never_repeat (rules : IdentifierRules) (first : UInt64) (steps : List Step) (replies : List Reply)
    (last : Desk) (hrun : Desk.run? ⟨rules, ⟨first⟩, {}⟩ steps = some (replies, last)) :
    let draws := Desk.draws ⟨rules, ⟨first⟩, {}⟩ steps
    (∀ i draw, draws[i]? = some draw → draw.label.toNat = (first.toNat + i) % 2 ^ 64 ∧ draw.HandedOver) ∧
      (draws.map (·.reply)).Sublist replies ∧
      (draws.filter (·.taker?.isNone)).map (·.reply) = replies.filter (·.asksLabel) ∧
      (∀ place name, ⟨.tell place .name, .ok (.name name)⟩ ∈ replies → last.bench.explicitName? place = none →
        ∃ draw ∈ draws, draw.reply = ⟨.tell place .name, .ok (.name name)⟩) ∧
      (draws.filterMap Draw.taker?).Nodup ∧
      (∀ before after replies' middle, steps = before ++ after →
        Desk.run? ⟨rules, ⟨first⟩, {}⟩ before = some (replies', middle) →
        ∀ place, middle.bench.explicitName? place ≠ none → place ∉ draws.filterMap Draw.taker?) ∧
      (draws.length < 2 ^ 64 → ∀ place other name name', place ≠ other →
        ⟨.tell place .name, .ok (.name name)⟩ ∈ replies → ⟨.tell other .name, .ok (.name name')⟩ ∈ replies →
        last.bench.explicitName? place = none → last.bench.explicitName? other = none → name ≠ name') := by
  intro draws
  have hempty : Desk.Sound ⟨rules, ⟨first⟩, {}⟩ := by simp [Desk.Sound]
  have hledger : Desk.Ledger first draws last := (Desk.Ledger.start rules first).run? hempty hrun
  have hdefault : ∀ place name, ⟨.tell place .name, .ok (.name name)⟩ ∈ replies →
      last.bench.explicitName? place = none →
      ∃ draw ∈ draws, draw.reply = ⟨.tell place .name, .ok (.name name)⟩ := by
    intro place name hreply hexplicit
    obtain ⟨seat, hseat, hname⟩ := hempty.exists_name_of_reply hrun hreply
    have hnone : seat.builder.explicitName = none := by rwa [Bench.explicitName?, hseat] at hexplicit
    have hdrawn : seat.builder.drawnName = some name := by rwa [Builder.name?, hnone] at hname
    exact hledger.answered place name ((Bench.drawnName?_of_seat hseat).trans hdrawn)
  refine ⟨fun i draw hdraw => ⟨hledger.labels i draw hdraw, hledger.handedOver draw (List.mem_of_getElem? hdraw)⟩,
    Desk.sublist_replies_draws hrun, hempty.map_reply_draws hrun, hdefault, hledger.once, ?_, ?_⟩
  · rintro before after replies' middle rfl hbefore place hexplicit htaken
    obtain ⟨others, hafter⟩ := Desk.exists_of_run?_append hrun hbefore
    obtain ⟨name, hname⟩ := Option.ne_none_iff_exists'.mp (hledger.kept place htaken)
    obtain ⟨seat, hseat, hdrawn⟩ := Bench.exists_seat_of_drawnName? hname
    have hsound := hempty.run? hrun seat (List.mem_of_getElem? hseat)
    have hlast := Desk.explicitName?_run hafter hexplicit
    rw [Bench.explicitName?, hseat] at hlast
    exact hlast (hsound.drawnLate name hdrawn).2
  · rintro hlength place other name name' hne hreply hreply' hexplicit hexplicit' rfl
    obtain ⟨draw, hdraw, he⟩ := hdefault place name hreply hexplicit
    obtain ⟨draw', hdraw', he'⟩ := hdefault other name hreply' hexplicit'
    have hdraws : draw ≠ draw' := by
      rintro rfl
      rw [he] at he'
      cases he'
      exact hne rfl
    apply hledger.label_ne hlength hdraw hdraw' hdraws
    apply UInt64.toNat_inj.mp
    rw [← (hledger.handedOver draw hdraw).labelValue_eq he, (hledger.handedOver draw' hdraw').labelValue_eq he']

namespace DrawsExample

open SoundnessExample

/-- A workshop whose default names begin like those of animals made in another workshop. -/
def animals : Workshop := { registry := Registry.empty, config := { naming := { start := "Mock_Animal" } } }

/-- A run with the last label as the first one. Three builders get default names with the same beginning, one of them is a copy,
one is asked twice, and one label is drawn for none of them. -/
def replies : List Reply :=
  [⟨.fresh workshop, .ok (.place 0)⟩,
    ⟨.tell 0 (.change (.likeNames ["Animal"])), .ok .done⟩,
    ⟨.fresh animals, .ok (.place 1)⟩,
    ⟨.tell 0 .name, .ok (.name "Mock_Animal_18446744073709551615")⟩,
    ⟨.tell 0 .copy, .ok (.place 2)⟩,
    ⟨.tell 1 .name, .ok (.name "Mock_Animal_0")⟩,
    ⟨.tell 1 .label, .ok (.label 1)⟩,
    ⟨.tell 0 .name, .ok (.name "Mock_Animal_18446744073709551615")⟩,
    ⟨.tell 2 .name, .ok (.name "Mock_Animal_2")⟩]

/-- The desk in the end. -/
def last : Desk where
  counter := ⟨3⟩
  bench := ⟨[
    { workshop := workshop
      builder :=
        { types := [{ name := "Animal", kind := .extensible }]
          drawnName := some "Mock_Animal_18446744073709551615"
          finalized := true } },
    { workshop := animals, builder := { drawnName := some "Mock_Animal_0", finalized := true } },
    { workshop := workshop
      builder :=
        { types := [{ name := "Animal", kind := .extensible }]
          drawnName := some "Mock_Animal_2"
          finalized := true } }]⟩

/-- The desk at first. -/
def first : Desk := ⟨{}, ⟨18446744073709551615⟩, {}⟩

end DrawsExample

open DrawsExample in
/-- In the example four labels are drawn, by three builders and for none, and the builder and its copy have different names. -/
theorem labels_never_repeat_animals :
    Desk.run? DrawsExample.first (replies.map (·.step)) = some (replies, last) ∧
      ((DrawsExample.first.draws (replies.map (·.step))).map (fun draw => (draw.taker?, draw.label)) =
        [(some 0, 18446744073709551615), (some 1, 0), (none, 1), (some 2, 2)]) ∧
      ((DrawsExample.first.draws (replies.map (·.step))).filterMap Draw.taker?).Nodup ∧
      "Mock_Animal_18446744073709551615" ≠ "Mock_Animal_2" := by
  have hrun : Desk.run? DrawsExample.first (replies.map (·.step)) = some (replies, last) := by with_unfolding_all rfl
  have hdraws : (DrawsExample.first.draws (replies.map (·.step))).map (fun draw => (draw.taker?, draw.label)) =
      [(some 0, 18446744073709551615), (some 1, 0), (none, 1), (some 2, 2)] := by with_unfolding_all rfl
  obtain ⟨-, -, -, -, honce, -, hnames⟩ :=
    labels_never_repeat {} 18446744073709551615 _ replies last hrun
  have hlength : (DrawsExample.first.draws (replies.map (·.step))).length < 2 ^ 64 := by
    rw [← List.length_map, hdraws]
    decide
  have hreply : ∀ n reply, replies[n]? = some reply → reply ∈ replies := fun _ _ => List.mem_of_getElem?
  exact ⟨hrun, hdraws, honce, hnames hlength 0 2 _ _ (by decide) (hreply 3 _ rfl) (hreply 8 _ rfl) rfl rfl⟩

end TestDouble
