import Mathlib.Data.List.Basic
import TestDouble.OrderedMap

/-!
# What a run of insertions leaves

A name stands where it was inserted first, with the value that was inserted last under it. `OrderedMap.collect` says this of a
list of entries without a word about insertions, and inserting the entries one after another gives the same map
(`ofList_eq_collect`). So a run of insertions may pass through a map of its own on the way (`insertAll_ofList`).
-/

namespace TestDouble

/-- Names may be dropped before or after repetitions are. -/
theorem eraseDups_filter_eraseDups (names : List String) (keep : String → Bool) :
    (names.eraseDups.filter keep).eraseDups = (names.filter keep).eraseDups := by
  cases names with
  | nil => rfl
  | cons name rest =>
    have hrest := eraseDups_filter_eraseDups (rest.filter (fun later => !later == name))
    rw [List.eraseDups_cons]
    by_cases hkeep : keep name = true
    · rw [List.filter_cons_of_pos hkeep, List.filter_cons_of_pos hkeep, List.eraseDups_cons, List.eraseDups_cons,
        List.filter_filter, hrest, List.filter_filter, List.filter_filter]
      congr 3
      funext later
      cases later == name <;> simp
    · rw [List.filter_cons_of_neg hkeep, List.filter_cons_of_neg hkeep, hrest, List.filter_filter]
      congr 2
      funext later
      by_cases he : later = name
      · simp [he, hkeep]
      · simp [he]
termination_by names.length
decreasing_by
  have hle := List.length_filter_le (fun later => !later == name) rest
  simp only [List.length_cons]
  omega

/-- Names that are distinct have no repetitions to drop. -/
theorem eraseDups_of_nodup {names : List String} (h : names.Nodup) : names.eraseDups = names := by
  induction names with
  | nil => rfl
  | cons name rest ih =>
    obtain ⟨hname, hrest⟩ := List.nodup_cons.mp h
    have hkept : rest.filter (fun later => !later == name) = rest := by
      refine List.filter_eq_self.mpr fun later hlater => ?_
      have hne : later ≠ name := fun he => hname (he ▸ hlater)
      simpa using hne
    rw [List.eraseDups_cons, hkept, ih hrest]

namespace OrderedMap

variable {α : Type}

/-! ## A map is its names and their values -/

/-- The entries are the names in order, each with its value. -/
theorem entries_eq_filterMap (m : OrderedMap α) :
    m.entries = m.names.filterMap (fun name => (m.get? name).map (fun value => (name, value))) := by
  have hentry : ∀ entry ∈ m.entries, (m.get? entry.1).map (fun value => (entry.1, value)) = some entry := by
    rintro ⟨name, value⟩ hm
    rw [(m.mem_entries_iff name value).mp hm]
    rfl
  calc
    m.entries = m.entries.filterMap some := List.filterMap_some.symm
    _ = m.entries.filterMap (fun entry => (m.get? entry.1).map (fun value => (entry.1, value))) :=
      (List.filterMap_congr hentry).symm
    _ = m.names.filterMap (fun name => (m.get? name).map (fun value => (name, value))) := by
      rw [names, List.filterMap_map]
      rfl

/-- The values of a map are what it has under its names. -/
theorem mem_values_iff (m : OrderedMap α) (value : α) : value ∈ m.values ↔ ∃ name, m.get? name = some value := by
  simp only [values, List.mem_map, Prod.exists, exists_eq_right, mem_entries_iff]

/-- Two maps with the same names in the same order and the same value under each are the same map. -/
theorem eq_of_names_eq {m m' : OrderedMap α} (hnames : m.names = m'.names) (hget : ∀ name, m.get? name = m'.get? name) :
    m = m' := by
  apply ext
  rw [m.entries_eq_filterMap, m'.entries_eq_filterMap, hnames]
  simp only [hget]

/-- Filtering twice is filtering by both tests. -/
theorem filter_filter (m : OrderedMap α) (keep also : String → α → Bool) :
    (m.filter keep).filter also = m.filter (fun name value => also name value && keep name value) :=
  ext List.filter_filter

/-- A filter that all entries pass changes nothing. -/
theorem filter_eq_self {m : OrderedMap α} {keep : String → α → Bool}
    (h : ∀ entry ∈ m.entries, keep entry.1 entry.2 = true) : m.filter keep = m :=
  ext (List.filter_eq_self.mpr h)

/-- Tests that agree on all entries filter alike. -/
theorem filter_congr {m : OrderedMap α} {keep keep' : String → α → Bool}
    (h : ∀ entry ∈ m.entries, keep entry.1 entry.2 = keep' entry.1 entry.2) : m.filter keep = m.filter keep' :=
  ext (List.filter_congr h)

/-- A filter by name lists the names that pass, in their order. -/
theorem names_filter_name (m : OrderedMap α) (keep : String → Bool) :
    (m.filter (fun name _ => keep name)).names = m.names.filter keep := by
  rw [names, names, List.filter_map]
  rfl

/-- A filter lists the names whose values pass, in their order. -/
theorem names_filter (m : OrderedMap α) (keep : String → α → Bool) :
    (m.filter keep).names = m.names.filter (fun name => (m.get? name).any (keep name)) := by
  have hkeep : m.filter keep = m.filter (fun name _ => (m.get? name).any (keep name)) := by
    refine filter_congr fun entry hm => ?_
    rw [(m.mem_entries_iff entry.1 entry.2).mp hm, Option.any_some]
  rw [hkeep]
  exact names_filter_name m (fun name => (m.get? name).any (keep name))

/-- The entry of a name stands in the place of the name. -/
theorem getElem?_entries {m : OrderedMap α} {i : Nat} {name : String} {value : α} (hname : m.names[i]? = some name)
    (hvalue : m.get? name = some value) : m.entries[i]? = some (name, value) := by
  rw [names, List.getElem?_map] at hname
  obtain ⟨⟨listed, present⟩, hentry, rfl⟩ := Option.map_eq_some_iff.mp hname
  have hpresent : m.get? listed = some present := (m.mem_entries_iff listed present).mp (List.mem_of_getElem? hentry)
  rw [hentry, Option.some.inj (hpresent.symm.trans hvalue)]

/-! ## The names after insertions -/

/-- An insertion lists its name at the end unless it is listed already. -/
theorem names_insert (m : OrderedMap α) (name : String) (value : α) :
    (m.insert name value).names = if name ∈ m.names then m.names else m.names ++ [name] := by
  split
  · rename_i hm
    exact names_putEntry_of_mem value hm
  · rename_i hm
    have hentries : (m.insert name value).entries = m.entries ++ [(name, value)] := putEntry_of_not_mem value hm
    rw [names, hentries, List.map_append]
    rfl

/-- A run of insertions lists behind the names of the map those that are new, each where it comes first. -/
theorem names_insertAll (m : OrderedMap α) (entries : List (String × α)) :
    (m.insertAll entries).names =
      m.names ++ ((entries.map Prod.fst).filter (fun name => !m.names.contains name)).eraseDups := by
  induction entries generalizing m with
  | nil => simp [insertAll]
  | cons entry rest ih =>
    have hstep : m.insertAll (entry :: rest) = (m.insert entry.1 entry.2).insertAll rest := rfl
    rw [hstep, ih, names_insert, List.map_cons]
    by_cases hm : entry.1 ∈ m.names
    · rw [if_pos hm, List.filter_cons_of_neg (by simpa using hm)]
    · rw [if_neg hm, List.filter_cons_of_pos (by simpa using hm), List.eraseDups_cons, List.filter_filter,
        List.append_assoc, List.singleton_append]
      congr 4
      funext name
      by_cases he : name = entry.1 <;> simp [he]

/-- Insertions into maps with the same names list the same names. -/
theorem names_insertAll_congr {m m' : OrderedMap α} (h : m.names = m'.names) (entries : List (String × α)) :
    (m.insertAll entries).names = (m'.insertAll entries).names := by
  rw [names_insertAll, names_insertAll, h]

/-- The names of a list of entries are listed where they come first. -/
theorem names_ofList (entries : List (String × α)) : (ofList entries).names = (entries.map Prod.fst).eraseDups := by
  have hempty : (∅ : OrderedMap α).names = [] := rfl
  rw [ofList, names_insertAll, hempty, List.nil_append, List.filter_eq_self.mpr (by simp)]

/-- An insertion of a new name lists the same names as one that replaces. -/
theorem names_insertNew (m : OrderedMap α) (name : String) (value : α) :
    (m.insertNew name value).names = (m.insert name value).names := by
  rw [insertNew, names_insert]
  split
  · rename_i hc
    rw [if_pos (by simpa [contains] using hc)]
  · rename_i hc
    rw [names_insert]

/-- A run of insertions of new names lists the same names as one that replaces. -/
theorem names_insertAllNew (m : OrderedMap α) (entries : List (String × α)) :
    (m.insertAllNew entries).names = (m.insertAll entries).names := by
  induction entries generalizing m with
  | nil => rfl
  | cons entry rest ih =>
    have hnew : m.insertAllNew (entry :: rest) = (m.insertNew entry.1 entry.2).insertAllNew rest := rfl
    have hstep : m.insertAll (entry :: rest) = (m.insert entry.1 entry.2).insertAll rest := rfl
    rw [hnew, hstep, ih, names_insertAll, names_insertAll, names_insertNew]

/-- A name of a list of entries has the value that comes last under it. -/
theorem get?_ofList (entries : List (String × α)) (name : String) :
    (ofList entries).get? name = entries.reverse.lookup name := by
  rw [ofList, get?_insertAll, get?_empty, Option.or_none]

/-! ## Entries collected by name -/

/-- The names of a list of entries, each where it comes first, with the value that comes last under it. -/
def collected (entries : List (String × α)) : List (String × α) :=
  (entries.map Prod.fst).eraseDups.filterMap
    (fun name => (entries.reverse.lookup name).map (fun value => (name, value)))

/-- Inserting entries one after another collects them. -/
theorem entries_ofList (entries : List (String × α)) : (ofList entries).entries = collected entries := by
  rw [entries_eq_filterMap, names_ofList, collected]
  simp only [get?_ofList]

/-- A name that is inserted again keeps its place and takes the later value. -/
example : collected [("low", 1), ("high", 2), ("low", 3)] = [("low", 3), ("high", 2)] := by decide

/-- The map of the entries of a list, collected by name. -/
def collect (entries : List (String × α)) : OrderedMap α where
  entries := collected entries
  distinct := entries_ofList entries ▸ (ofList entries).distinct

/-- Inserting entries one after another gives the map of the entries collected by name. -/
theorem ofList_eq_collect (entries : List (String × α)) : ofList entries = collect entries :=
  ext (entries_ofList entries)

/-- Inserting the entries of a map that was built by insertions is inserting what it was built of. -/
theorem insertAll_ofList (m : OrderedMap α) (entries : List (String × α)) :
    m.insertAll (ofList entries).entries = m.insertAll entries := by
  apply eq_of_names_eq
  · have hnames : (ofList entries).entries.map Prod.fst = (entries.map Prod.fst).eraseDups := names_ofList entries
    rw [names_insertAll, names_insertAll, hnames, eraseDups_filter_eraseDups]
  · intro name
    rw [get?_insertAll, get?_insertAll, lookup_reverse_entries, get?_ofList]

/-! ## Runs behind runs -/

/-- A run of insertions behind another one is one run. -/
theorem insertAll_append (m : OrderedMap α) (entries more : List (String × α)) :
    m.insertAll (entries ++ more) = (m.insertAll entries).insertAll more :=
  List.foldl_append

/-- A map is built by inserting its entries. -/
theorem ofList_entries (m : OrderedMap α) : ofList m.entries = m := by
  apply eq_of_names_eq
  · rw [names_ofList]
    exact eraseDups_of_nodup m.distinct
  · intro name
    rw [get?_ofList, lookup_reverse_entries]

/-- Entries may be inserted into a map before it is inserted into another one, or behind it afterwards. -/
theorem insertAll_insertAll (m added : OrderedMap α) (entries : List (String × α)) :
    m.insertAll (added.insertAll entries).entries = (m.insertAll added.entries).insertAll entries := by
  have hbuilt : added.insertAll entries = ofList (added.entries ++ entries) := by
    rw [ofList, insertAll_append, ← ofList, ofList_entries]
  rw [hbuilt, insertAll_ofList, insertAll_append]

/-! ## Images -/

/-- An image lists the same names. -/
theorem names_map {β : Type} (m : OrderedMap α) (f : α → β) : (m.map f).names = m.names := by
  rw [names, names, map, List.map_map]
  rfl

/-- The image of an insertion is the insertion of the image. -/
theorem map_insert {β : Type} (m : OrderedMap α) (f : α → β) (name : String) (value : α) :
    (m.insert name value).map f = (m.map f).insert name (f value) := by
  apply eq_of_names_eq
  · rw [names_map, names_insert, names_insert, names_map]
  · intro other
    rw [get?_map, get?_insert, get?_insert, get?_map, apply_ite (Option.map f), Option.map_some]

/-- The image of a run of insertions is the run of the images. -/
theorem map_insertAll {β : Type} (m : OrderedMap α) (f : α → β) (entries : List (String × α)) :
    (m.insertAll entries).map f = (m.map f).insertAll (entries.map (fun entry => (entry.1, f entry.2))) := by
  induction entries generalizing m with
  | nil => rfl
  | cons entry rest ih =>
    have hstep : m.insertAll (entry :: rest) = (m.insert entry.1 entry.2).insertAll rest := rfl
    rw [hstep, ih, map_insert]
    rfl

/-- Maps with the same image are the same if different values have different images. -/
theorem map_injective {β : Type} {f : α → β} (hf : Function.Injective f) : Function.Injective (fun m => map m f) := by
  intro m m' h
  have hentry : Function.Injective (fun entry : String × α => (entry.1, f entry.2)) := by
    intro entry entry' hpair
    obtain ⟨hname, hvalue⟩ := Prod.mk.inj hpair
    exact Prod.ext hname (hf hvalue)
  exact ext (List.map_injective_iff.mpr hentry (congrArg entries h))

end OrderedMap

/-- What is left of names without their repetitions is distinct. -/
theorem nodup_eraseDups (names : List String) : names.eraseDups.Nodup := by
  have hlisted : (OrderedMap.ofList (names.map (fun name => (name, ())))).names = names.eraseDups := by
    rw [OrderedMap.names_ofList, List.map_map]
    exact congrArg List.eraseDups (List.map_id names)
  rw [← hlisted]
  exact OrderedMap.distinct _

/-- Repetitions may be dropped before or after a filter. -/
theorem eraseDups_filter (names : List String) (keep : String → Bool) :
    (names.filter keep).eraseDups = names.eraseDups.filter keep := by
  rw [← eraseDups_filter_eraseDups, eraseDups_of_nodup ((nodup_eraseDups names).filter keep)]

end TestDouble
