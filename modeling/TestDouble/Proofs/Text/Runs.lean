import TestDouble.Text.Blank

/-!
# Words are maximal runs

`Runs` says what the maximal runs of characters between breaks are, without a word about cutting: a run goes on up to a break or
to the end of the text, and a break belongs to no run. A text has exactly one list of runs, and cutting it at every break finds
them (`runs_iff`); for white space these are the words of the text (`maximalRuns_iff`).
-/

namespace TestDouble.Text

variable {isBreak : Char → Bool}

/-- The maximal runs of characters of a text that are no breaks, from left to right. A run is not empty, holds no break, and
goes on up to a break or to the end of the text. -/
inductive Runs (isBreak : Char → Bool) : List Char → List (List Char) → Prop where
  | nil : Runs isBreak [] []
  | skip {c : Char} {rest : List Char} {runs : List (List Char)} (hc : isBreak c = true) (hrest : Runs isBreak rest runs) :
      Runs isBreak (c :: rest) runs
  | run {run rest : List Char} {runs : List (List Char)} (hne : run ≠ []) (hrun : ∀ c ∈ run, isBreak c = false)
      (hend : ∀ c ∈ rest.head?, isBreak c = true) (hrest : Runs isBreak rest runs) : Runs isBreak (run ++ rest) (run :: runs)

/-- A break in front belongs to no word. -/
theorem wordsAt_cons_break {c : Char} (hc : isBreak c = true) (rest : List Char) :
    wordsAt isBreak (c :: rest) = wordsAt isBreak rest :=
  wordsAt_append_break [] hc rest

/-- A run in front is the first word. -/
theorem wordsAt_run_append {run rest : List Char} (hne : run ≠ []) (hrun : ∀ c ∈ run, isBreak c = false)
    (hend : ∀ c ∈ rest.head?, isBreak c = true) : wordsAt isBreak (run ++ rest) = run :: wordsAt isBreak rest := by
  cases rest with
  | nil =>
    rw [List.append_nil, wordsAt_of_no_break hne hrun]
    rfl
  | cons c rest =>
    have hc : isBreak c = true := hend c rfl
    rw [wordsAt_append_break run hc, wordsAt_of_no_break hne hrun, wordsAt_cons_break hc, List.singleton_append]

/-- Cutting a text at every break finds its maximal runs. -/
theorem runs_wordsAt (text : List Char) : Runs isBreak text (wordsAt isBreak text) := by
  cases text with
  | nil => exact .nil
  | cons c rest =>
    by_cases hc : isBreak c = true
    · rw [wordsAt_cons_break hc]
      exact .skip hc (runs_wordsAt rest)
    · obtain ⟨run, after, hsplit, hrun, hend⟩ : ∃ run after, rest = run ++ after ∧ (∀ d ∈ run, isBreak d = false) ∧
          ∀ d ∈ after.head?, isBreak d = true := by
        refine ⟨rest.takeWhile (fun d => !isBreak d), rest.dropWhile (fun d => !isBreak d),
          List.takeWhile_append_dropWhile.symm, fun d hd => ?_, fun d hd => ?_⟩
        · simpa using List.all_eq_true.mp List.all_takeWhile d hd
        · have hstop := List.head?_dropWhile_not (fun d => !isBreak d) rest
          rw [Option.mem_def.mp hd] at hstop
          simpa using hstop
      have hrun' : ∀ d ∈ c :: run, isBreak d = false := List.forall_mem_cons.mpr ⟨by simpa using hc, hrun⟩
      rw [hsplit, ← List.cons_append, wordsAt_run_append (List.cons_ne_nil c run) hrun' hend]
      exact .run (List.cons_ne_nil c run) hrun' hend (runs_wordsAt after)
termination_by text.length
decreasing_by
  · simp
  · simp only [hsplit, List.length_cons, List.length_append]
    omega

/-- A text has exactly one list of maximal runs: those that cutting it at every break finds. -/
theorem runs_iff (text : List Char) (runs : List (List Char)) : Runs isBreak text runs ↔ wordsAt isBreak text = runs := by
  constructor
  · intro h
    induction h with
    | nil => rfl
    | skip hc _ ih => rw [wordsAt_cons_break hc, ih]
    | run hne hrun hend _ ih => rw [wordsAt_run_append hne hrun hend, ih]
  · rintro rfl
    exact runs_wordsAt text

/-- Texts are the maximal runs of a text between white space. -/
def MaximalRuns (text : String) (listed : List String) : Prop := Runs isBlank text.toList (listed.map String.toList)

/-- The words of a text are its maximal runs between white space. -/
theorem maximalRuns_iff (text : String) (listed : List String) : MaximalRuns text listed ↔ words text = listed := by
  rw [MaximalRuns, runs_iff, words]
  constructor
  · intro h
    rw [h, List.map_map]
    exact List.map_id'' (fun _ => String.ofList_toList) listed
  · rintro rfl
    rw [List.map_map]
    exact (List.map_id'' (fun _ => String.toList_ofList) _).symm

end TestDouble.Text
