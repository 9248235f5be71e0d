import TestDouble.Proofs.Builder.Changes
import TestDouble.Proofs.Classified.Placement

/-!
# What a call does

A change that is accepted replaces the types, the members or the explicit name of a builder and leaves the rest
(`change_cases`). A call that is no change closes the builder, and leaves the rest too, except that asking a builder without a
name for its name draws one (`respond_of_closes`). At a bench a move works on one place only, so what every call keeps of a
builder is kept by every run of moves (`run_keeps`, `forall_run`).
-/

namespace TestDouble

open SourceType

namespace Builder

/-! ## Changes -/

/-- Types that are joined are the distinct ones of both lists, and they fit together. -/
theorem joinTypes_eq_ok {types incoming joined : List SourceType} (h : joinTypes types incoming = .ok joined) :
    joined = distinct (types ++ incoming) ∧ FitTogether joined := by
  rw [joinTypes] at h
  split at h
  · cases h
  · cases hplaced : Classified.ofTypes (types ++ incoming) with
    | error refusal =>
      rw [hplaced] at h
      cases h
    | ok c =>
      rw [hplaced] at h
      have hjoined : distinct (types ++ incoming) = joined := Except.ok.inj h
      exact ⟨hjoined.symm, hjoined ▸ ((Classified.ofTypes_eq_ok_iff _ c).mp hplaced).1⟩

/-- Types that are added leave the distinct ones of both lists, which fit together, and nothing else changes. -/
theorem addTypes_kept {b b' : Builder} {incoming : List SourceType} (h : b.addTypes incoming = .ok b') :
    b' = { b with types := distinct (b.types ++ incoming) } ∧ FitTogether (distinct (b.types ++ incoming)) := by
  rw [addTypes] at h
  cases hjoined : joinTypes b.types incoming with
  | error refusal =>
    rw [hjoined] at h
    cases h
  | ok types =>
    rw [hjoined] at h
    obtain ⟨rfl, hfit⟩ := joinTypes_eq_ok hjoined
    exact ⟨(Except.ok.inj h).symm, hfit⟩

/-- Types that are added are distinct and fit together with those that were there, and nothing else changes. -/
theorem addTypes_eq_ok {b b' : Builder} {incoming : List SourceType} (h : b.addTypes incoming = .ok b') :
    ∃ types, b' = { b with types := types } ∧ (types.map (·.name)).Nodup ∧ FitTogether types := by
  obtain ⟨rfl, hfit⟩ := addTypes_kept h
  exact ⟨_, rfl, nodup_names_distinct _, hfit⟩

/-- Members that are read and added change nothing but the members. -/
theorem addMembers_eq_ok {b b' : Builder} {read : Except Refusal Members} (h : read.map b.addMembers = .ok b') :
    ∃ members, b' = { b with members := members } := by
  cases read with
  | error refusal => cases h
  | ok added => exact ⟨b.members.merge added, (Except.ok.inj h).symm⟩

/-- What an accepted change does to a builder: it replaces the types, by distinct ones that fit together, or the members, or the
explicit name, by a legal one. -/
theorem change_cases {w : Workshop} {b b' : Builder} {c : Change} (h : b.change w c = .ok b') :
    (∃ types, b' = { b with types := types } ∧ (types.map (·.name)).Nodup ∧ FitTogether types) ∨
      (∃ members, b' = { b with members := members }) ∨
        ∃ name, b' = { b with explicitName := some name } ∧ w.config.identifiers.allowsType name = true := by
  cases c with
  | likeNames names =>
    rw [change] at h
    split at h
    · cases h
    · exact .inl (addTypes_eq_ok h)
  | likeTypes types => exact .inl (addTypes_eq_ok h)
  | likeDefinition entries => exact .inr (.inl (addMembers_eq_ok h))
  | likeJson definition => exact .inr (.inl (addMembers_eq_ok h))
  | addMember member => exact .inr (.inl ⟨b.members.insert member, (Except.ok.inj h).symm⟩)
  | setName name =>
    rw [change] at h
    split at h
    · rename_i hlegal
      exact .inr (.inr ⟨name, (Except.ok.inj h).symm, hlegal⟩)
    · cases h

/-! ## Names -/

/-- The name of a builder: the explicit one, or else the one that was drawn. -/
def name? (b : Builder) : Option String := b.explicitName <|> b.drawnName

/-- A builder without a name has no explicit one. -/
theorem explicitName_of_no_name {b : Builder} (h : b.name? = none) : b.explicitName = none := by
  cases hexplicit : b.explicitName with
  | none => rfl
  | some name =>
    rw [name?, hexplicit] at h
    cases h

/-- A name that is drawn for a builder without a name is its name. -/
theorem name?_draw {b : Builder} (h : b.name? = none) (name : String) :
    name? { b.finalize with drawnName := some name } = some name := by
  have hexplicit : b.finalize.explicitName = none := explicitName_of_no_name h
  simp only [name?, hexplicit]
  rfl

/-- A builder with a name answers it, and no label is drawn. -/
theorem nameWith_of_name? {b : Builder} {name : String} (h : b.name? = some name) (w : Workshop)
    (counter : LabelCounter) : b.nameWith w counter = (.ok name, b.finalize, counter) := by
  have hname : (b.explicitName <|> b.drawnName) = some name := h
  rw [nameWith, hname]

/-- A builder without a name whose types can be placed draws a label and keeps the name made of it. -/
theorem nameWith_of_no_name {b : Builder} (h : b.name? = none) {types : Classified}
    (htypes : Classified.ofTypes b.types = .ok types) (w : Workshop) (counter : LabelCounter) :
    b.nameWith w counter =
      (.ok (defaultName w.config.naming.start types counter.draw.1),
        { b.finalize with drawnName := some (defaultName w.config.naming.start types counter.draw.1) },
        counter.draw.2) := by
  have hname : (b.explicitName <|> b.drawnName) = none := h
  rw [nameWith, hname]
  simp only [htypes]

/-- Asking for the name closes a builder; a builder without a name may keep a drawn one. -/
theorem nameWith_builder (w : Workshop) (b : Builder) (counter : LabelCounter) :
    (b.nameWith w counter).2.1 = b.finalize ∨
      ∃ name, b.name? = none ∧ (b.nameWith w counter).2.1 = { b.finalize with drawnName := some name } := by
  cases hname : b.name? with
  | some name => exact .inl (by rw [nameWith_of_name? hname])
  | none =>
    cases htypes : Classified.ofTypes b.types with
    | error refusal =>
      have hnone : (b.explicitName <|> b.drawnName) = none := hname
      exact .inl (by rw [nameWith, hnone]; simp only [htypes])
    | ok types => exact .inr ⟨_, rfl, by rw [nameWith_of_no_name hname htypes]⟩

/-! ## Calls -/

/-- A call closes the builder or is a change. -/
theorem closes_or_change (c : Call) : c.closes = true ∨ ∃ change, c = .change change := by
  cases c with
  | change change => exact .inr ⟨change, rfl⟩
  | _ => exact .inl rfl

/-- What a call that is no change does to a builder: it closes it, and may leave a drawn name where there was no name. -/
theorem respond_of_closes {c : Call} (hc : c.closes = true) (w : Workshop) (b : Builder) :
    (b.respond w c).2 = b.finalize ∨
      ∃ name, b.name? = none ∧ (b.respond w c).2 = { b.finalize with drawnName := some name } := by
  cases c with
  | change change => cases hc
  | finalize => exact .inl rfl
  | request => exact .inl rfl
  | resolve rules => exact .inl rfl
  | name counter => exact nameWith_builder w b counter

/-- What a change does to a builder when called for: it leaves it as it was, or the builder was open and takes the change. -/
theorem respond_change (w : Workshop) (b : Builder) (c : Change) :
    (b.respond w (.change c)).2 = b ∨ b.finalized = false ∧ b.change w c = .ok (b.respond w (.change c)).2 := by
  rw [respond_change_eq, apply_eq]
  cases hfinal : b.finalized with
  | true => exact .inl rfl
  | false =>
    cases hchange : b.change w c with
    | error refusal => exact .inl rfl
    | ok changed => exact .inr ⟨rfl, rfl⟩

end Builder

/-! ## Moves -/

namespace Bench

variable {bench : Bench} {place : Nat} {seat : Seat}

/-- The builder that is called is the one that the call leaves. -/
theorem seats_step_call (hseat : bench.seats[place]? = some seat) (c : Call) :
    (bench.step (.call place c)).seats =
      bench.seats.set place { seat with builder := (seat.builder.respond seat.workshop c).2 } := by
  rw [step, hseat]

/-- A copy takes the place after the last one. -/
theorem seats_step_copy (hseat : bench.seats[place]? = some seat) :
    (bench.step (.copy place)).seats = bench.seats ++ [{ seat with builder := seat.builder.copy }] := by
  rw [step, hseat]

/-- After a call the builder in its place is the one that the call leaves. -/
theorem getElem?_step_call (hseat : bench.seats[place]? = some seat) (c : Call) :
    (bench.step (.call place c)).seats[place]? =
      some { seat with builder := (seat.builder.respond seat.workshop c).2 } := by
  have hplace := (List.getElem?_eq_some_iff.mp hseat).1
  rw [seats_step_call hseat, List.getElem?_set_self hplace]

/-- A move for another place leaves a builder as it was. -/
theorem getElem?_step_of_target_ne (hseat : bench.seats[place]? = some seat) {move : Move}
    (hmove : move.target? ≠ some place) : (bench.step move).seats[place]? = some seat := by
  have hplace := (List.getElem?_eq_some_iff.mp hseat).1
  cases move with
  | fresh w => rw [step, List.getElem?_append_left hplace, hseat]
  | copy other =>
    rw [step]
    split
    · exact hseat
    · rw [List.getElem?_append_left hplace, hseat]
  | call other c =>
    have hne : other ≠ place := fun e => hmove (congrArg some e)
    rw [step]
    split
    · exact hseat
    · rw [List.getElem?_set_ne hne, hseat]

/-- Moves for other places leave a builder as it was. -/
theorem getElem?_run_of_target_ne (hseat : bench.seats[place]? = some seat) {moves : List Move}
    (hmoves : ∀ move ∈ moves, move.target? ≠ some place) : (bench.run moves).seats[place]? = some seat := by
  induction moves generalizing bench with
  | nil => exact hseat
  | cons move rest ih =>
    exact ih (getElem?_step_of_target_ne hseat (hmoves move List.mem_cons_self))
      (fun later hlater => hmoves later (List.mem_cons_of_mem move hlater))

/-- What every call keeps of a builder is kept by a move. -/
theorem step_keeps {P : Workshop → Builder → Prop} (hcall : ∀ w b c, P w b → P w (b.respond w c).2) {w : Workshop}
    {b : Builder} (hseat : bench.seats[place]? = some ⟨w, b⟩) (h : P w b) (move : Move) :
    ∃ b', (bench.step move).seats[place]? = some ⟨w, b'⟩ ∧ P w b' := by
  by_cases hmove : move.target? = some place
  · obtain ⟨c, rfl⟩ : ∃ c, move = .call place c := by
      cases move with
      | fresh w => cases hmove
      | copy other => cases hmove
      | call other c => exact ⟨c, by rw [Option.some.inj hmove]⟩
    exact ⟨_, getElem?_step_call hseat c, hcall w b c h⟩
  · exact ⟨b, getElem?_step_of_target_ne hseat hmove, h⟩

/-- What every call keeps of a builder is kept by a run of moves. -/
theorem run_keeps {P : Workshop → Builder → Prop} (hcall : ∀ w b c, P w b → P w (b.respond w c).2) {w : Workshop}
    {b : Builder} (hseat : bench.seats[place]? = some ⟨w, b⟩) (h : P w b) (moves : List Move) :
    ∃ b', (bench.run moves).seats[place]? = some ⟨w, b'⟩ ∧ P w b' := by
  induction moves generalizing bench b with
  | nil => exact ⟨b, hseat, h⟩
  | cons move rest ih =>
    obtain ⟨b', hb', hkept⟩ := step_keeps hcall hseat h move
    exact ih hb' hkept

/-- What holds of fresh builders, of copies and after calls holds of all builders after a move. -/
theorem forall_step {P : Workshop → Builder → Prop} (hfresh : ∀ w, P w {}) (hcopy : ∀ w b, P w b → P w b.copy)
    (hcall : ∀ w b c, P w b → P w (b.respond w c).2) (h : ∀ seat ∈ bench.seats, P seat.workshop seat.builder)
    (move : Move) : ∀ seat ∈ (bench.step move).seats, P seat.workshop seat.builder := by
  cases move with
  | fresh w => exact List.forall_mem_append.mpr ⟨h, List.forall_mem_singleton.mpr (hfresh w)⟩
  | copy place =>
    rw [step]
    split
    · exact h
    · rename_i seat hseat
      refine List.forall_mem_append.mpr ⟨h, List.forall_mem_singleton.mpr ?_⟩
      exact hcopy _ _ (h seat (List.mem_of_getElem? hseat))
  | call place c =>
    rw [step]
    split
    · exact h
    · rename_i seat hseat
      intro later hlater
      rcases List.mem_or_eq_of_mem_set hlater with hlater | rfl
      · exact h later hlater
      · exact hcall _ _ c (h seat (List.mem_of_getElem? hseat))

/-- What holds of fresh builders, of copies and after calls holds of all builders after a run of moves. -/
theorem forall_run {P : Workshop → Builder → Prop} (hfresh : ∀ w, P w {}) (hcopy : ∀ w b, P w b → P w b.copy)
    (hcall : ∀ w b c, P w b → P w (b.respond w c).2) (h : ∀ seat ∈ bench.seats, P seat.workshop seat.builder)
    (moves : List Move) : ∀ seat ∈ (bench.run moves).seats, P seat.workshop seat.builder := by
  induction moves generalizing bench with
  | nil => exact h
  | cons move rest ih => exact ih (forall_step hfresh hcopy hcall h move)

end Bench

end TestDouble
