import TestDouble.Refusal

/-!
# Edits

An edit changes a value in place, step by step, and may be refused at any step. A refusal ends the edit and takes nothing back:
what was changed by then stays changed. An edit that finds the value as it was whenever it is refused is atomic (`Edit.Atomic`).
Checks that change nothing keep what follows them atomic (`ReadOnly.atomic_bind`), so an edit that makes all its checks before its
one change is.
-/

namespace TestDouble

/-- A change of a value in place that may be refused on the way, and what it answers. -/
abbrev Edit (σ α : Type) := ExceptT Refusal (StateM σ) α

namespace Edit

variable {σ α β : Type} {edit : Edit σ α} {s later : σ} {refusal : Refusal}

/-- The answer of an edit of a value, and the value after it. -/
def on (edit : Edit σ α) (s : σ) : Except Refusal α × σ := edit.run.run s

/-- The value after an edit. Where the edit is refused the value is given up, whatever was changed by then. -/
def edited (edit : Edit σ α) (s : σ) : Except Refusal σ :=
  match edit.on s with
  | (.error refusal, _) => .error refusal
  | (.ok _, later) => .ok later

/-! ## Steps -/

/-- What is found out without the value leaves it as it is. -/
theorem on_lift (result : Except Refusal α) (s : σ) : (liftM result : Edit σ α).on s = (result, s) := by
  cases result <;> rfl

/-- Looking at the value answers it and leaves it as it is. -/
theorem on_get (s : σ) : (get : Edit σ σ).on s = (.ok s, s) := rfl

/-- An edit whose first part is refused is refused there. -/
theorem on_bind_of_error (h : edit.on s = (.error refusal, later)) (next : α → Edit σ β) :
    (edit >>= next).on s = (.error refusal, later) := by
  have hrun : edit.run.run s = (.error refusal, later) := h
  rw [on, ExceptT.run_bind, StateT.run_bind, hrun]
  rfl

/-- An edit goes on after its first part with the value that this leaves. -/
theorem on_bind_of_ok {answer : α} (h : edit.on s = (.ok answer, later)) (next : α → Edit σ β) :
    (edit >>= next).on s = (next answer).on later := by
  have hrun : edit.run.run s = (.ok answer, later) := h
  rw [on, ExceptT.run_bind, StateT.run_bind, hrun]
  rfl

/-- An edit whose first part is refused gives the value up. -/
theorem edited_bind_of_error (h : edit.on s = (.error refusal, later)) (next : α → Edit σ β) :
    (edit >>= next).edited s = .error refusal := by
  rw [edited, on_bind_of_error h]

/-- An edit leaves what is left after its first part by the rest. -/
theorem edited_bind_of_ok {answer : α} (h : edit.on s = (.ok answer, later)) (next : α → Edit σ β) :
    (edit >>= next).edited s = (next answer).edited later := by
  rw [edited, edited, on_bind_of_ok h]

/-- An edit that starts with what is found out without the value leaves what the rest leaves with that. -/
theorem edited_lift_bind (result : Except Refusal α) (next : α → Edit σ β) (s : σ) :
    (liftM result >>= next).edited s = result.bind (fun answer => (next answer).edited s) := by
  cases result with
  | error refusal => exact edited_bind_of_error (on_lift _ s) next
  | ok answer => exact edited_bind_of_ok (on_lift _ s) next

/-- Edits made one after another leave what is left by each of them on what the one before it leaves. -/
theorem edited_forM (step : α → Edit σ Unit) (items : List α) (s : σ) :
    (items.forM step).edited s = items.foldlM (fun reached item => (step item).edited reached) s := by
  induction items generalizing s with
  | nil => rfl
  | cons item rest ih =>
    rw [List.forM, List.foldlM_cons]
    cases hstep : (step item).on s with
    | mk answer later =>
      cases answer with
      | error refusal =>
        rw [edited_bind_of_error hstep, edited, hstep]
        rfl
      | ok done =>
        rw [edited_bind_of_ok hstep, edited.eq_def (step item), hstep]
        exact ih later

/-! ## Edits that leave the value as it was -/

/-- The edit never changes the value. -/
def ReadOnly (edit : Edit σ α) : Prop := ∀ s, (edit.on s).2 = s

/-- Where the edit is refused the value is as it was. -/
def Atomic (edit : Edit σ α) : Prop := ∀ s refusal later, edit.on s = (.error refusal, later) → later = s

/-- What is found out without the value never changes it. -/
theorem readOnly_lift (result : Except Refusal α) : (liftM result : Edit σ α).ReadOnly := fun s => by rw [on_lift]

/-- Looking at the value never changes it. -/
theorem readOnly_get : (get : Edit σ σ).ReadOnly := fun s => by rw [on_get]

/-- A refusal changes nothing. -/
theorem atomic_throw (refusal : Refusal) : (throw refusal : Edit σ α).Atomic := by
  intro s _ later h
  exact (congrArg Prod.snd h).symm

/-- A change that is made at once is never refused. -/
theorem atomic_modify (change : σ → σ) : (modify change : Edit σ Unit).Atomic := by
  intro s refusal later h
  cases congrArg Prod.fst h

/-- Checks in front of an atomic edit leave it atomic. -/
theorem ReadOnly.atomic_bind (h : edit.ReadOnly) {next : α → Edit σ β} (hnext : ∀ answer, (next answer).Atomic) :
    (edit >>= next).Atomic := by
  intro s refusal later hrefused
  have hsame : (edit.on s).2 = s := h s
  cases hfirst : (edit.on s).1 with
  | error first =>
    rw [on_bind_of_error (Prod.ext hfirst hsame)] at hrefused
    exact (congrArg Prod.snd hrefused).symm
  | ok answer =>
    rw [on_bind_of_ok (Prod.ext hfirst hsame)] at hrefused
    exact hnext answer s refusal later hrefused

/-- An atomic edit answers a refusal and leaves the value, or it changes the value. -/
theorem Atomic.on_eq {edit : Edit σ Unit} (h : edit.Atomic) (s : σ) :
    edit.on s =
      match edit.edited s with
      | .error refusal => (.error refusal, s)
      | .ok changed => (.ok (), changed) := by
  cases hon : edit.on s with
  | mk answer later =>
    rw [edited, hon]
    cases answer with
    | error refusal => rw [h s refusal later hon]
    | ok done => rfl

end Edit

end TestDouble
