/-!
# Maps that remember the order of insertion

An `OrderedMap α` holds at most one value for each name and lists its entries in the order in which the names were first
inserted. Inserting under a name that is present replaces the value and keeps the place; inserting under a new name appends.
The view of such a map is its list of entries, together with `get?`, which reads the value of a name off that list.
-/

namespace TestDouble

/-- The entries with `value` under `name`: in the place of the entry of that name, or at the end where there is none. -/
def putEntry {α : Type} (name : String) (value : α) : List (String × α) → List (String × α)
  | [] => [(name, value)]
  | entry :: rest => if entry.1 = name then (name, value) :: rest else entry :: putEntry name value rest

/-- Putting a value under a name that is listed leaves the list of names as it was. -/
theorem names_putEntry_of_mem {α : Type} {name : String} (value : α) {entries : List (String × α)}
    (h : name ∈ entries.map Prod.fst) : (putEntry name value entries).map Prod.fst = entries.map Prod.fst := by
  induction entries with
  | nil => simp at h
  | cons entry rest ih =>
    by_cases he : entry.1 = name
    · simp [putEntry, he]
    · have hr : name ∈ rest.map Prod.fst := by
        rcases List.mem_cons.mp h with h | h
        · exact absurd h.symm he
        · exact h
      simp only [putEntry, he, if_false, List.map_cons, ih hr]

/-- Putting a value under a new name appends an entry. -/
theorem putEntry_of_not_mem {α : Type} {name : String} (value : α) {entries : List (String × α)}
    (h : name ∉ entries.map Prod.fst) : putEntry name value entries = entries ++ [(name, value)] := by
  induction entries with
  | nil => rfl
  | cons entry rest ih =>
    simp only [List.map_cons, List.mem_cons, not_or] at h
    have he : ¬entry.1 = name := fun e => h.1 e.symm
    simp only [putEntry, he, if_false, ih h.2, List.cons_append]

/-- Names stay distinct when a value is put under a name. -/
theorem nodup_names_putEntry {α : Type} (name : String) (value : α) {entries : List (String × α)}
    (h : (entries.map Prod.fst).Nodup) : ((putEntry name value entries).map Prod.fst).Nodup := by
  by_cases hm : name ∈ entries.map Prod.fst
  · rw [names_putEntry_of_mem value hm]
    exact h
  · rw [putEntry_of_not_mem value hm, List.map_append, List.nodup_append]
    refine ⟨h, by simp, ?_⟩
    intro a ha b hb e
    simp only [List.map_cons, List.map_nil, List.mem_singleton] at hb
    exact hm (by rw [← hb, ← e]; exact ha)

/-- A map from names to values that lists its entries in the order in which their names were first inserted. -/
structure OrderedMap (α : Type) where
  /-- The entries, each name with its value, in order. -/
  entries : List (String × α)
  /-- No name is listed twice. -/
  distinct : (entries.map Prod.fst).Nodup
  deriving DecidableEq

namespace OrderedMap

variable {α : Type}

instance : EmptyCollection (OrderedMap α) := ⟨⟨[], List.nodup_nil⟩⟩

instance : Inhabited (OrderedMap α) := ⟨∅⟩

/-- Two maps with the same entries are the same map. -/
@[ext] theorem ext {m m' : OrderedMap α} (h : m.entries = m'.entries) : m = m' := by
  cases m
  cases m'
  cases h
  rfl

/-- The names that have a value, in order. -/
def names (m : OrderedMap α) : List String := m.entries.map Prod.fst

/-- The values, in the order of their names. -/
def values (m : OrderedMap α) : List α := m.entries.map Prod.snd

/-- The number of entries. -/
def size (m : OrderedMap α) : Nat := m.entries.length

/-- Whether there is no entry. -/
def isEmpty (m : OrderedMap α) : Bool := m.entries.isEmpty

/-- The value under a name, if there is one. -/
def get? (m : OrderedMap α) (name : String) : Option α := m.entries.lookup name

/-- Whether a name has a value. -/
def contains (m : OrderedMap α) (name : String) : Bool := m.names.contains name

/-- Puts a value under a name: in the place the name has, or at the end if it is new. -/
def insert (m : OrderedMap α) (name : String) (value : α) : OrderedMap α where
  entries := putEntry name value m.entries
  distinct := nodup_names_putEntry name value m.distinct

/-- Puts a value under a name only if the name has none yet. -/
def insertNew (m : OrderedMap α) (name : String) (value : α) : OrderedMap α :=
  if m.contains name then m else m.insert name value

/-- Inserts entries one after another; a later value replaces an earlier one. -/
def insertAll (m : OrderedMap α) (entries : List (String × α)) : OrderedMap α :=
  entries.foldl (fun acc entry => acc.insert entry.1 entry.2) m

/-- Inserts entries one after another, each only if its name has no value yet: the first value of a name stays. -/
def insertAllNew (m : OrderedMap α) (entries : List (String × α)) : OrderedMap α :=
  entries.foldl (fun acc entry => acc.insertNew entry.1 entry.2) m

/-- The map built by inserting entries one after another. -/
def ofList (entries : List (String × α)) : OrderedMap α := insertAll ∅ entries

/-- The entries that pass a test, in their order. -/
def filter (m : OrderedMap α) (keep : String → α → Bool) : OrderedMap α where
  entries := m.entries.filter (fun entry => keep entry.1 entry.2)
  distinct := m.distinct.sublist ((List.filter_sublist (l := m.entries)).map Prod.fst)

/-- The entries of all names but one, in their order. -/
def erase (m : OrderedMap α) (name : String) : OrderedMap α := m.filter (fun listed _ => listed != name)

/-- Each value replaced by its image, under the same names in the same order. -/
def map {β : Type} (m : OrderedMap α) (f : α → β) : OrderedMap β where
  entries := m.entries.map (fun entry => (entry.1, f entry.2))
  distinct := by
    have h : (m.entries.map (fun entry => (entry.1, f entry.2))).map Prod.fst = m.entries.map Prod.fst := by
      simp [List.map_map, Function.comp_def]
    rw [h]
    exact m.distinct

/-- Whether two maps have the same names, whatever the order, with values that a test accepts as the same. -/
def sameBy {β : Type} (same : α → β → Bool) (m : OrderedMap α) (m' : OrderedMap β) : Bool :=
  m.size == m'.size && m.entries.all (fun entry => (m'.get? entry.1).any (same entry.2))

/-! ## What each operation does to the view -/

/-- The value under a name is the first one listed under it. -/
theorem lookup_cons_ite (listed name : String) (value : α) (rest : List (String × α)) :
    ((listed, value) :: rest).lookup name = if name = listed then some value else rest.lookup name := by
  by_cases h : name = listed
  · subst h
    simp
  · have hb : (name == listed) = false := by simpa using h
    simp [List.lookup_cons, h, hb]

/-- Among values that are listed under names of their own, a name has the value that is found first by its name. -/
theorem lookup_map_find? {β : Type} (nameOf : β → String) (value : β → α) (items : List β) (name : String) :
    (items.map (fun item => (nameOf item, value item))).lookup name =
      (items.find? (fun item => nameOf item == name)).map value := by
  induction items with
  | nil => rfl
  | cons item rest ih =>
    rw [List.map_cons, lookup_cons_ite, List.find?_cons, ih]
    by_cases h : name = nameOf item
    · simp [h]
    · have hb : (nameOf item == name) = false := by simpa using fun e => h e.symm
      simp [h, hb]

/-- A name that is put has the value put; every other name keeps its value. -/
theorem lookup_putEntry (name : String) (value : α) (entries : List (String × α)) (other : String) :
    (putEntry name value entries).lookup other = if other = name then some value else entries.lookup other := by
  induction entries with
  | nil => exact lookup_cons_ite name other value []
  | cons entry rest ih =>
    obtain ⟨listed, present⟩ := entry
    by_cases he : listed = name
    · subst he
      by_cases h : other = listed <;> simp [putEntry, lookup_cons_ite, h]
    · by_cases h : other = name
      · subst h
        have hne : ¬other = listed := fun e => he e.symm
        simp [putEntry, he, lookup_cons_ite, ih, hne]
      · simp [putEntry, he, lookup_cons_ite, ih, h]

/-- An insertion sets the value of its own name and of no other. -/
theorem get?_insert (m : OrderedMap α) (name : String) (value : α) (other : String) :
    (m.insert name value).get? other = if other = name then some value else m.get? other :=
  lookup_putEntry name value m.entries other

/-- The empty map has no value under any name. -/
theorem get?_empty (name : String) : (∅ : OrderedMap α).get? name = none := rfl

/-- A name is listed exactly when it has a value. -/
theorem mem_names_iff (m : OrderedMap α) (name : String) : name ∈ m.names ↔ (m.get? name).isSome = true := by
  rw [names, get?, List.lookup_isSome_iff, List.mem_map]
  constructor
  · rintro ⟨entry, hm, rfl⟩
    exact ⟨entry, hm, beq_self_eq_true _⟩
  · rintro ⟨entry, hm, he⟩
    exact ⟨entry, hm, (beq_iff_eq.mp he).symm⟩

/-- A name is not listed exactly when it has no value. -/
theorem not_mem_names_iff (m : OrderedMap α) {name : String} : name ∉ m.names ↔ m.get? name = none := by
  rw [mem_names_iff, Option.not_isSome_iff_eq_none]

/-- A name is in a map exactly when it has a value. -/
theorem contains_eq_isSome (m : OrderedMap α) (name : String) : m.contains name = (m.get? name).isSome := by
  rw [Bool.eq_iff_iff, ← mem_names_iff]
  simp [contains]

/-- Entries of which no two share a name list a value under a name exactly when looking the name up finds it. -/
theorem mem_entries_iff_lookup {entries : List (String × α)} (h : (entries.map Prod.fst).Nodup) (name : String)
    (value : α) : (name, value) ∈ entries ↔ entries.lookup name = some value := by
  induction entries with
  | nil => simp
  | cons entry rest ih =>
    obtain ⟨listed, present⟩ := entry
    rw [List.map_cons, List.nodup_cons] at h
    rw [List.mem_cons, lookup_cons_ite, ih h.2]
    by_cases he : name = listed
    · subst he
      have hrest : (name, value) ∉ rest := by
        intro hm
        have hname : name ∈ rest.map Prod.fst := List.mem_map_of_mem hm
        exact h.1 hname
      rw [ih h.2] at hrest
      simp [hrest, eq_comm]
    · simp [he]

/-- Entries of which no two share a name have the same value under each name in whatever order they are listed. -/
theorem lookup_eq_of_perm {entries entries' : List (String × α)} (h : (entries.map Prod.fst).Nodup)
    (hperm : entries.Perm entries') (name : String) : entries.lookup name = entries'.lookup name := by
  have h' : (entries'.map Prod.fst).Nodup := (hperm.map Prod.fst).nodup_iff.mp h
  ext value
  rw [← mem_entries_iff_lookup h, ← mem_entries_iff_lookup h', hperm.mem_iff]

/-- The entries of a map are its names with their values. -/
theorem mem_entries_iff (m : OrderedMap α) (name : String) (value : α) :
    (name, value) ∈ m.entries ↔ m.get? name = some value :=
  mem_entries_iff_lookup m.distinct name value

/-- A filter keeps the values that pass under their names, and no other. -/
theorem get?_filter (m : OrderedMap α) (keep : String → α → Bool) (name : String) :
    (m.filter keep).get? name = (m.get? name).filter (keep name) := by
  ext value
  rw [Option.filter_eq_some_iff, ← mem_entries_iff, ← mem_entries_iff, filter, List.mem_filter]

/-- Inserting a new value only matters for a name that has none. -/
theorem get?_insertNew (m : OrderedMap α) (name : String) (value : α) (other : String) :
    (m.insertNew name value).get? other = (m.get? other).or (if other = name then some value else none) := by
  unfold insertNew
  split
  · rename_i hc
    by_cases h : other = name
    · subst h
      rw [contains_eq_isSome] at hc
      exact (Option.or_eq_left_of_isSome hc).symm
    · simp [h]
  · rename_i hc
    rw [contains_eq_isSome, Bool.not_eq_true, Option.isSome_eq_false_iff, Option.isNone_iff_eq_none] at hc
    rw [get?_insert]
    by_cases h : other = name
    · subst h
      simp [hc]
    · simp [h]

/-- After a run of insertions a name has the value inserted last under it, or else the one it had. -/
theorem get?_insertAll (m : OrderedMap α) (entries : List (String × α)) (name : String) :
    (m.insertAll entries).get? name = (entries.reverse.lookup name).or (m.get? name) := by
  induction entries generalizing m with
  | nil => rfl
  | cons entry rest ih =>
    have hstep : (m.insertAll (entry :: rest)) = (m.insert entry.1 entry.2).insertAll rest := rfl
    rw [hstep, ih, get?_insert, List.reverse_cons, List.lookup_append, Option.or_assoc, lookup_cons_ite]
    split <;> rfl

/-- No name is listed twice, so a value is found from either end of the entries. -/
theorem lookup_reverse_entries (m : OrderedMap α) (name : String) : m.entries.reverse.lookup name = m.get? name := by
  have hnodup : (m.entries.reverse.map Prod.fst).Nodup := by
    rw [List.map_reverse]
    exact (List.reverse_perm _).nodup_iff.mpr m.distinct
  ext value
  rw [← mem_entries_iff_lookup hnodup, List.mem_reverse, mem_entries_iff]

/-- After a run of insertions of new names a name has the value it had, or else the one listed first under it. -/
theorem get?_insertAllNew (m : OrderedMap α) (entries : List (String × α)) (name : String) :
    (m.insertAllNew entries).get? name = (m.get? name).or (entries.lookup name) := by
  induction entries generalizing m with
  | nil => exact (Option.or_none).symm
  | cons entry rest ih =>
    have hstep : (m.insertAllNew (entry :: rest)) = (m.insertNew entry.1 entry.2).insertAllNew rest := rfl
    rw [hstep, ih, get?_insertNew, Option.or_assoc, lookup_cons_ite]
    split <;> rfl

/-- Among entries whose values are replaced by images a name has the image of its value. -/
theorem lookup_map_entries {β : Type} (f : String → α → β) (entries : List (String × α)) (name : String) :
    (entries.map (fun entry => (entry.1, f entry.1 entry.2))).lookup name = (entries.lookup name).map (f name) := by
  induction entries with
  | nil => rfl
  | cons entry rest ih =>
    rw [List.map_cons, lookup_cons_ite, ih, lookup_cons_ite]
    by_cases h : name = entry.1
    · rw [if_pos h, if_pos h, h, Option.map_some]
    · rw [if_neg h, if_neg h]

/-- The value under a name in an image is the image of its value. -/
theorem get?_map {β : Type} (m : OrderedMap α) (f : α → β) (name : String) :
    (m.map f).get? name = (m.get? name).map f :=
  lookup_map_entries (fun _ => f) m.entries name

/-- The number of entries is the number of names. -/
theorem length_names (m : OrderedMap α) : m.names.length = m.size := List.length_map _

/-- A map has no more entries than another map that has all its names. -/
theorem size_le_of_names_subset {β : Type} {m : OrderedMap α} {m' : OrderedMap β} (h : m.names ⊆ m'.names) :
    m.size ≤ m'.size := by
  rw [← length_names, ← length_names]
  exact m.distinct.length_le_of_subset h

/-- Two maps of one size have the same names as soon as one has all names of the other. -/
theorem names_subset_of_size_eq {β : Type} {m : OrderedMap α} {m' : OrderedMap β} (h : m.names ⊆ m'.names)
    (hsize : m.size = m'.size) : m'.names ⊆ m.names := by
  intro name hm'
  apply Classical.byContradiction
  intro hm
  have hnodup : (name :: m.names).Nodup := List.nodup_cons.mpr ⟨hm, m.distinct⟩
  have hlength := hnodup.length_le_of_subset (List.cons_subset.mpr ⟨hm', h⟩)
  rw [List.length_cons, length_names, length_names] at hlength
  omega

/-- The test accepts each value of a map and the one that the other map has under the same name. -/
theorem forall_entries_any_iff {β : Type} (same : α → β → Bool) (m : OrderedMap α) (m' : OrderedMap β) :
    (∀ entry ∈ m.entries, (m'.get? entry.1).any (same entry.2) = true) ↔
      ∀ name value, m.get? name = some value → ∃ other, m'.get? name = some other ∧ same value other = true := by
  constructor
  · intro h name value hv
    exact (Option.any_eq_true _ _).mp (h (name, value) ((m.mem_entries_iff name value).mpr hv))
  · rintro h ⟨name, value⟩ hm
    exact (Option.any_eq_true _ _).mpr (h name value ((m.mem_entries_iff name value).mp hm))

/-- Two maps in which the same names have a value are of one size. -/
theorem size_eq_of_isSome_eq {β : Type} {m : OrderedMap α} {m' : OrderedMap β}
    (h : ∀ name, (m.get? name).isSome = (m'.get? name).isSome) : m.size = m'.size := by
  have hnames : ∀ name, name ∈ m.names ↔ name ∈ m'.names := fun name => by rw [mem_names_iff, mem_names_iff, h]
  exact Nat.le_antisymm (size_le_of_names_subset fun name => (hnames name).mp)
    (size_le_of_names_subset fun name => (hnames name).mpr)

/-- Two maps are the same under a test exactly when each name has a value in both or in neither, and the test accepts the two
values of a name. -/
theorem sameBy_iff {β : Type} (same : α → β → Bool) (m : OrderedMap α) (m' : OrderedMap β) :
    m.sameBy same m' = true ↔ ∀ name, Option.Rel (fun a b => same a b = true) (m.get? name) (m'.get? name) := by
  rw [sameBy, Bool.and_eq_true, beq_iff_eq, List.all_eq_true, forall_entries_any_iff]
  constructor
  · rintro ⟨hsize, h⟩ name
    have hsub : m.names ⊆ m'.names := by
      intro name hm
      obtain ⟨value, hv⟩ := Option.isSome_iff_exists.mp ((m.mem_names_iff name).mp hm)
      obtain ⟨other, ho, -⟩ := h name value hv
      rw [mem_names_iff, ho]
      rfl
    cases hv : m.get? name with
    | some value =>
      obtain ⟨other, ho, hsame⟩ := h name value hv
      rw [ho]
      exact .some hsame
    | none =>
      have hm : name ∉ m.names := m.not_mem_names_iff.mpr hv
      have hm' : name ∉ m'.names := fun hm' => hm (names_subset_of_size_eq hsub hsize hm')
      rw [m'.not_mem_names_iff.mp hm']
      exact .none
  · intro h
    refine ⟨size_eq_of_isSome_eq fun name => ?_, fun name value hv => ?_⟩
    · have hrel := h name
      generalize m.get? name = found at hrel ⊢
      generalize m'.get? name = found' at hrel ⊢
      cases hrel <;> rfl
    · have hrel := h name
      rw [hv] at hrel
      generalize m'.get? name = found' at hrel ⊢
      cases hrel with
      | some hsame => exact ⟨_, rfl, hsame⟩

end OrderedMap

end TestDouble
