import Mathlib.Data.List.Basic

/-!
# Lists that are read item by item

A list is read by reading its items from the left, and the first error ends it. So whether a list is read is decided item by item
(`isOk_mapM`), what is read of it is what is read of its items (`eq_filterMap_of_mapM`), and its error is that of the first item
that has one (`mapM_eq_error_iff`).
-/

namespace TestDouble

variable {ε ε' α β : Type}

/-! ## Single results -/

/-- A result has a value exactly when it is that value. -/
theorem toOption_eq_some_iff (result : Except ε α) (a : α) : result.toOption = some a ↔ result = .ok a := by
  cases result with
  | error e => exact iff_of_false nofun nofun
  | ok value => simp [Except.toOption]

/-- A result stays an error, or none, when it is turned into something else. -/
theorem isOk_map (f : α → β) (result : Except ε α) : (result.map f).isOk = result.isOk := by
  cases result <;> rfl

/-- A result that is turned into something else succeeds exactly with what its value is turned into. -/
theorem map_eq_ok_iff (f : α → β) (result : Except ε α) (b : β) :
    result.map f = .ok b ↔ ∃ a, result = .ok a ∧ b = f a := by
  cases result with
  | error e => simp [Except.map]
  | ok value => simp [Except.map, eq_comm]

/-- A result is the same error, or none, when it is turned into something else. -/
theorem map_eq_error_iff (f : α → β) (result : Except ε α) (e : ε) :
    result.map f = .error e ↔ result = .error e := by
  cases result with
  | error e' => simp [Except.map]
  | ok value => exact iff_of_false nofun nofun

/-- A result has the same value, or none, when its error is restated. -/
theorem mapError_eq_ok_iff (f : ε → ε') (result : Except ε α) (a : α) : result.mapError f = .ok a ↔ result = .ok a := by
  cases result with
  | error e => exact iff_of_false nofun nofun
  | ok value => simp [Except.mapError]

/-- A result whose error is restated has exactly the errors that its own are restated as. -/
theorem mapError_eq_error_iff (f : ε → ε') (result : Except ε α) (e' : ε') :
    result.mapError f = .error e' ↔ ∃ e, result = .error e ∧ e' = f e := by
  cases result with
  | error e => simp [Except.mapError, eq_comm]
  | ok value => simp [Except.mapError]

/-- An error may be restated before or after the value is turned into something else. -/
theorem map_mapError (f : ε → ε') (g : α → β) (result : Except ε α) :
    (result.mapError f).map g = (result.map g).mapError f := by
  cases result <;> rfl

/-! ## One item more -/

/-- An item that is read comes in front of what is read of the rest. -/
theorem mapM_cons_of_ok {read : α → Except ε β} {item : α} {value : β} (h : read item = .ok value) (rest : List α) :
    (item :: rest).mapM read = (rest.mapM read).map (fun values => value :: values) := by
  rw [List.mapM_cons, h]
  cases rest.mapM read <;> rfl

/-- An item that is not read ends the list with its error. -/
theorem mapM_cons_of_error {read : α → Except ε β} {item : α} {e : ε} (h : read item = .error e) (rest : List α) :
    (item :: rest).mapM read = .error e := by
  rw [List.mapM_cons, h]
  rfl

/-- A list is read with the error of its first item, or else with that of the rest. -/
theorem mapM_cons_eq_error_iff (read : α → Except ε β) (item : α) (rest : List α) (e : ε) :
    (item :: rest).mapM read = .error e ↔
      read item = .error e ∨ (read item).isOk = true ∧ rest.mapM read = .error e := by
  cases hitem : read item with
  | error e' => simp [mapM_cons_of_error hitem, Except.isOk, Except.toBool]
  | ok value => simp [mapM_cons_of_ok hitem, map_eq_error_iff, Except.isOk, Except.toBool]

/-! ## Whole lists -/

/-- A list is read with an error exactly when one of its items is. -/
theorem isOk_mapM (read : α → Except ε β) (items : List α) :
    (items.mapM read).isOk = items.all (fun item => (read item).isOk) := by
  induction items with
  | nil => rfl
  | cons item rest ih =>
    rw [List.all_cons]
    cases hitem : read item with
    | error e =>
      rw [mapM_cons_of_error hitem]
      rfl
    | ok value =>
      rw [mapM_cons_of_ok hitem, isOk_map, ih]
      rfl

/-- A list that is read without an error is read as what can be read of it. -/
theorem eq_filterMap_of_mapM {read : α → Except ε β} {items : List α} {values : List β}
    (h : items.mapM read = .ok values) : values = items.filterMap (fun item => (read item).toOption) := by
  induction items generalizing values with
  | nil => exact (Except.ok.inj h).symm
  | cons item rest ih =>
    rw [List.filterMap_cons]
    cases hitem : read item with
    | error e =>
      rw [mapM_cons_of_error hitem] at h
      cases h
    | ok value =>
      rw [mapM_cons_of_ok hitem] at h
      obtain ⟨later, hrest, rfl⟩ := (map_eq_ok_iff _ _ _).mp h
      rw [← ih hrest]
      rfl

/-- A list is read with the error of its first item that has one. -/
theorem mapM_eq_error_iff (read : α → Except ε β) (items : List α) (e : ε) :
    items.mapM read = .error e ↔
      ∃ before item after, items = before ++ item :: after ∧ (∀ earlier ∈ before, (read earlier).isOk = true) ∧
        read item = .error e := by
  induction items with
  | nil => exact iff_of_false nofun (by simp)
  | cons first rest ih =>
    rw [mapM_cons_eq_error_iff, ih]
    constructor
    · rintro (hfirst | ⟨hfirst, before, item, after, rfl, hbefore, hitem⟩)
      · exact ⟨[], first, rest, rfl, by simp, hfirst⟩
      · exact ⟨first :: before, item, after, rfl, List.forall_mem_cons.mpr ⟨hfirst, hbefore⟩, hitem⟩
    · rintro ⟨_ | ⟨earlier, before⟩, item, after, hitems, hbefore, hitem⟩
      · obtain ⟨rfl, -⟩ := List.cons.inj hitems
        exact .inl hitem
      · obtain ⟨rfl, rfl⟩ := List.cons.inj hitems
        obtain ⟨hfirst, hbefore⟩ := List.forall_mem_cons.mp hbefore
        exact .inr ⟨hfirst, before, item, after, rfl, hbefore, hitem⟩

/-- Errors may be restated item by item or for the whole list. -/
theorem mapM_mapError (read : α → Except ε β) (f : ε → ε') (items : List α) :
    items.mapM (fun item => (read item).mapError f) = (items.mapM read).mapError f := by
  induction items with
  | nil => rfl
  | cons item rest ih =>
    rw [List.mapM_cons, List.mapM_cons, ih]
    cases read item with
    | error e => rfl
    | ok value => cases rest.mapM read <;> rfl

/-- Taking each item as it is read leaves the same as reading the list and taking the items then. -/
theorem foldlM_map {γ : Type} (read : α → Except ε β) (take : γ → β → γ) (start : γ) (items : List α) :
    items.foldlM (fun reached item => (read item).map (take reached)) start =
      (items.mapM read).map (fun values => values.foldl take start) := by
  induction items generalizing start with
  | nil => rfl
  | cons item rest ih =>
    rw [List.foldlM_cons]
    cases hitem : read item with
    | error e =>
      rw [mapM_cons_of_error hitem]
      rfl
    | ok value =>
      rw [mapM_cons_of_ok hitem]
      refine (ih (take start value)).trans ?_
      cases rest.mapM read <;> rfl

end TestDouble
