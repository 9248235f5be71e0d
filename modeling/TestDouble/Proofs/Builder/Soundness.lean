import TestDouble.Proofs.Builder.Calls

/-!
# A builder never holds what cannot be resolved

The types of a builder have distinct names and fit together, its explicit name is legal, and a name is drawn only for a closed
builder without an explicit one (`Builder.Sound`). Fresh builders and copies are so, and every call keeps it, refused or not. So
whatever has happened at a bench, its builders can be resolved and have a name (`reachable_sound`).
-/

namespace TestDouble

open SourceType

/-- What is true of a builder at any time: its types have distinct names and fit together, its explicit name is legal under the
rules of the workshop, and where a name was drawn it is closed and has no explicit one. -/
structure Builder.Sound (w : Workshop) (b : Builder) : Prop where
  distinct : (b.types.map (·.name)).Nodup
  fit : FitTogether b.types
  legalName : ∀ name, b.explicitName = some name → w.config.identifiers.allowsType name = true
  drawnLate : ∀ name, b.drawnName = some name → b.finalized = true ∧ b.explicitName = none

namespace Builder

variable {w : Workshop} {b : Builder}

/-! ## Every call keeps a builder sound -/

/-- A fresh builder is sound. -/
theorem sound_fresh (w : Workshop) : Sound w {} where
  distinct := List.nodup_nil
  fit := fitTogether_nil
  legalName := nofun
  drawnLate := nofun

/-- A copy of a sound builder is sound. -/
theorem Sound.copy (h : b.Sound w) : b.copy.Sound w where
  distinct := h.distinct
  fit := h.fit
  legalName := h.legalName
  drawnLate := nofun

/-- A sound builder is sound when it is closed. -/
theorem Sound.finalize (h : b.Sound w) : b.finalize.Sound w where
  distinct := h.distinct
  fit := h.fit
  legalName := h.legalName
  drawnLate name hname := ⟨rfl, (h.drawnLate name hname).2⟩

/-- A sound builder without a name is sound when it is closed with a drawn one. -/
theorem Sound.draw (h : b.Sound w) (hnone : b.name? = none) (name : String) :
    Sound w { b.finalize with drawnName := some name } where
  distinct := h.distinct
  fit := h.fit
  legalName := h.legalName
  drawnLate _ _ := ⟨rfl, show b.explicitName = none from explicitName_of_no_name hnone⟩

/-- A sound builder is sound after a change that it accepts while open. -/
theorem Sound.change {c : Change} {b' : Builder} (h : b.Sound w) (hopen : b.finalized = false)
    (hchange : b.change w c = .ok b') : b'.Sound w := by
  have hundrawn : ∀ name, b.drawnName ≠ some name := by
    intro name hname
    rw [(h.drawnLate name hname).1] at hopen
    cases hopen
  rcases change_cases hchange with ⟨types, rfl, hdistinct, hfit⟩ | ⟨members, rfl⟩ | ⟨name, rfl, hlegal⟩
  · exact ⟨hdistinct, hfit, h.legalName, h.drawnLate⟩
  · exact ⟨h.distinct, h.fit, h.legalName, h.drawnLate⟩
  · refine ⟨h.distinct, h.fit, fun other hother => ?_, fun other hother => absurd hother (hundrawn other)⟩
    rw [← Option.some.inj hother]
    exact hlegal

/-- Every call keeps a builder sound. -/
theorem Sound.respond (h : b.Sound w) (c : Call) : (b.respond w c).2.Sound w := by
  rcases closes_or_change c with hc | ⟨change, rfl⟩
  · rcases respond_of_closes hc w b with hclosed | ⟨name, hnone, hdrawn⟩
    · rw [hclosed]
      exact h.finalize
    · rw [hdrawn]
      exact h.draw hnone name
  · rcases respond_change w b change with hrefused | ⟨hopen, hchanged⟩
    · rw [hrefused]
      exact h
    · exact h.change hopen hchanged

/-! ## A sound builder can be resolved and has a name -/

/-- The types of a sound builder can be placed. -/
theorem Sound.ofTypes (h : b.Sound w) : Classified.ofTypes b.types = .ok (Classified.parts b.types) :=
  Classified.ofTypes_of_fitTogether h.distinct h.fit

/-- The request of a sound builder lists its types as they are. -/
theorem Sound.request_types (h : b.Sound w) : b.request.types = b.types := distinct_eq_self h.distinct

/-- A sound builder can be resolved under all rules for names. -/
theorem Sound.resolution (h : b.Sound w) (rules : IdentifierRules) :
    Resolution.ofRequest rules b.request =
      .ok (Resolution.ofClassified rules (Classified.parts b.types) b.request) := by
  rw [Resolution.ofRequest, h.request_types, h.ofTypes]
  rfl

/-- A sound builder has a name, whatever counter it is handed. -/
theorem Sound.exists_name (h : b.Sound w) (counter : LabelCounter) :
    ∃ name, (b.nameWith w counter).1 = .ok name ∧ (b.nameWith w counter).2.1.name? = some name := by
  cases hname : b.name? with
  | some name =>
    rw [nameWith_of_name? hname]
    exact ⟨name, rfl, hname⟩
  | none =>
    rw [nameWith_of_no_name hname h.ofTypes]
    exact ⟨_, rfl, name?_draw hname _⟩

end Builder

/-- Every builder at a bench that started empty is sound. -/
theorem Bench.sound_run (moves : List Move) :
    ∀ seat ∈ (run {} moves).seats, seat.builder.Sound seat.workshop :=
  forall_run Builder.sound_fresh (fun _ _ h => h.copy) (fun _ _ c h => h.respond c) (by simp) moves

/-- A builder never holds a definition that cannot be resolved. Take any run of moves at a bench, with builders made fresh in any
workshops or copied, and calls in any order. Every builder there is sound: its types have distinct names, at most one of them
is extensible and that one is not sealed, and its explicit name, if set, is legal under the rules of its workshop. So it answers
a resolution under all rules for names, and a name whatever counter it is handed. -/
theorem reachable_sound (moves : List Move) (place : Nat) (seat : Seat)
    (hseat : (Bench.run {} moves).seats[place]? = some seat) :
    seat.builder.Sound seat.workshop ∧
      (∀ rules, ∃ r, (Bench.run {} moves).answer? place (.resolve rules) = some (.ok (.resolution r))) ∧
      ∀ counter, ∃ name, (Bench.run {} moves).answer? place (.name counter) = some (.ok (.name name)) := by
  have hsound := Bench.sound_run moves seat (List.mem_of_getElem? hseat)
  refine ⟨hsound, fun rules => ?_, fun counter => ?_⟩
  · refine ⟨Resolution.ofClassified rules (Classified.parts seat.builder.types) seat.builder.request, ?_⟩
    rw [Bench.answer?, hseat, Option.map_some, Builder.respond, hsound.resolution rules]
    rfl
  · obtain ⟨name, hname, -⟩ := hsound.exists_name counter
    refine ⟨name, ?_⟩
    rw [Bench.answer?, hseat, Option.map_some, Builder.respond]
    simp only [hname]
    rfl

namespace SoundnessExample

/-- A workshop with two classes, a sealed one and a mixin. -/
def workshop : Workshop where
  registry := Registry.ofList
    [{ name := "Animal", kind := .extensible }, { name := "Vehicle", kind := .extensible },
      { name := "Locked", kind := .extensible, isSealed := true }, { name := "Loud", kind := .mixin }]
  config := {}

/-- A builder that is told to take a second base, a sealed one and an illegal name, and its copy, that gets a name. -/
def moves : List Move :=
  [.fresh workshop, .call 0 (.change (.likeNames ["Animal", "Loud"])), .call 0 (.change (.likeNames ["Vehicle"])),
    .call 0 (.change (.likeNames ["Locked"])), .call 0 (.change (.setName "1")), .call 0 .request, .copy 0,
    .call 1 (.change (.setName "Dog"))]

/-- The copy in the end. -/
def dog : Seat where
  workshop := workshop
  builder :=
    { types := [{ name := "Animal", kind := .extensible }, { name := "Loud", kind := .mixin }]
      explicitName := some "Dog" }

end SoundnessExample

/-- The copy in the example holds one base and a legal name, can be resolved and has a name. -/
theorem reachable_sound_dog :
    (Bench.run {} SoundnessExample.moves).seats[1]? = some SoundnessExample.dog ∧
      SoundnessExample.dog.builder.Sound SoundnessExample.workshop ∧
      (∃ r, (Bench.run {} SoundnessExample.moves).answer? 1 (.resolve {}) = some (.ok (.resolution r))) ∧
      ∃ name, (Bench.run {} SoundnessExample.moves).answer? 1 (.name {}) = some (.ok (.name name)) := by
  have hseat : (Bench.run {} SoundnessExample.moves).seats[1]? = some SoundnessExample.dog := by with_unfolding_all rfl
  obtain ⟨hsound, hresolution, hname⟩ := reachable_sound SoundnessExample.moves 1 SoundnessExample.dog hseat
  exact ⟨hseat, hsound, hresolution {}, hname {}⟩

end TestDouble
