/-!
# Cutting a text at single characters

`segments` cuts a text at every character that a test marks as a break: the breaks are dropped and what stands between them
is kept, empty pieces included. `wordsAt` keeps the non-empty pieces only, so that any run of breaks separates two words. What the
characters are does not matter: they may be bytes as well.
-/

namespace TestDouble.Text

variable {α : Type}

/-- The pieces between the breaks of a text; there is one piece more than there are breaks. -/
def segments (isBreak : α → Bool) : List α → List (List α)
  | [] => [[]]
  | c :: rest =>
    if isBreak c then [] :: segments isBreak rest
    else
      match segments isBreak rest with
      | [] => [[c]]
      | piece :: pieces => (c :: piece) :: pieces

/-- The maximal runs of characters that are no breaks. -/
def wordsAt (isBreak : α → Bool) (text : List α) : List (List α) :=
  (segments isBreak text).filter (fun piece => !piece.isEmpty)

/-- A text has at least one piece. -/
theorem segments_ne_nil (isBreak : α → Bool) (text : List α) : segments isBreak text ≠ [] := by
  cases text with
  | nil => simp [segments]
  | cons c rest =>
    unfold segments
    split
    · simp
    · split <;> simp

/-- The pieces of a text are those that the library's function for cutting lists gives. -/
theorem segments_eq_splitOnP (isBreak : α → Bool) (text : List α) : segments isBreak text = text.splitOnP isBreak := by
  induction text with
  | nil => rfl
  | cons c rest ih =>
    rw [List.splitOnP_cons_eq_if_modifyHead, ← ih, segments]
    cases hs : segments isBreak rest with
    | nil => exact absurd hs (segments_ne_nil isBreak rest)
    | cons piece pieces => rfl

/-- A text without breaks is its own only piece. -/
theorem segments_of_no_break {isBreak : α → Bool} {text : List α} (h : ∀ c ∈ text, isBreak c = false) :
    segments isBreak text = [text] := by
  rw [segments_eq_splitOnP, List.splitOnP_eq_singleton h]

/-- At a break the pieces of what stands before it and of what stands after it meet. -/
theorem segments_append_break {isBreak : α → Bool} (before : List α) {c : α} (hc : isBreak c = true)
    (after : List α) :
    segments isBreak (before ++ c :: after) = segments isBreak before ++ segments isBreak after := by
  simp only [segments_eq_splitOnP, List.splitOnP_append_cons before after hc]

/-- When characters are replaced, and the breaks stay breaks and no other character becomes one, the pieces are those that they
were, with their characters replaced. -/
theorem segments_map {isBreak : α → Bool} {f : α → α} (h : ∀ c, isBreak (f c) = isBreak c) (text : List α) :
    segments isBreak (text.map f) = (segments isBreak text).map (List.map f) := by
  induction text with
  | nil => rfl
  | cons c rest ih =>
    rw [List.map_cons, segments, segments, h, ih]
    cases isBreak c with
    | true => rfl
    | false =>
      cases segments isBreak rest with
      | nil => rfl
      | cons piece pieces => rfl

/-- No piece holds a break. -/
theorem not_isBreak_of_mem_segments {isBreak : α → Bool} {text piece : List α}
    (hpiece : piece ∈ segments isBreak text) : ∀ c ∈ piece, isBreak c = false := by
  induction text generalizing piece with
  | nil =>
    rw [segments, List.mem_singleton] at hpiece
    simp [hpiece]
  | cons c rest ih =>
    obtain ⟨first, pieces, hrest⟩ := List.exists_cons_of_ne_nil (segments_ne_nil isBreak rest)
    rw [hrest] at ih
    cases hc : isBreak c with
    | true =>
      simp only [segments, hc, if_true, hrest, List.mem_cons] at hpiece
      rcases hpiece with rfl | hpiece
      · simp
      · exact ih (List.mem_cons.mpr hpiece)
    | false =>
      simp only [segments, hc, Bool.false_eq_true, if_false, hrest, List.mem_cons] at hpiece
      rcases hpiece with rfl | hpiece
      · exact List.forall_mem_cons.mpr ⟨hc, ih List.mem_cons_self⟩
      · exact ih (List.mem_cons_of_mem first hpiece)

/-- At a break the words of what stands before it and of what stands after it meet. -/
theorem wordsAt_append_break {isBreak : α → Bool} (before : List α) {c : α} (hc : isBreak c = true)
    (after : List α) : wordsAt isBreak (before ++ c :: after) = wordsAt isBreak before ++ wordsAt isBreak after := by
  rw [wordsAt, segments_append_break before hc, List.filter_append]
  rfl

/-- A text without breaks is its own only word, unless it is empty. -/
theorem wordsAt_of_no_break {isBreak : α → Bool} {text : List α} (hne : text ≠ [])
    (h : ∀ c ∈ text, isBreak c = false) : wordsAt isBreak text = [text] := by
  rw [wordsAt, segments_of_no_break h, List.filter_cons_of_pos (by simpa using hne), List.filter_nil]

/-- A word holds no break. -/
theorem not_isBreak_of_mem_wordsAt {isBreak : α → Bool} {text word : List α} (hword : word ∈ wordsAt isBreak text) :
    ∀ c ∈ word, isBreak c = false :=
  not_isBreak_of_mem_segments (List.mem_filter.mp hword).1

end TestDouble.Text
