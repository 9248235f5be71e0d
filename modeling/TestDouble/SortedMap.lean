import TestDouble.OrderedMap

/-!
# Entries and names in the order of their names

Names are ordered by code point. `sortEntries` lists entries in that order, a `SortedMap` holds entries in it, and a
`NameSet` holds names alone. Each of the three has one form for one content, so two of them are equal exactly when they say
the same.
-/

namespace TestDouble

/-- Puts an entry before the first entry with a greater name, unless an entry of its name is listed already. -/
def insertEntry {α : Type} (new : String × α) : List (String × α) → List (String × α)
  | [] => [new]
  | entry :: rest =>
    if new.1 < entry.1 then new :: entry :: rest
    else if new.1 = entry.1 then entry :: rest
    else entry :: insertEntry new rest

/-- The entries in the order of their names; of several entries with one name, the last one listed. -/
def sortEntries {α : Type} (entries : List (String × α)) : List (String × α) :=
  entries.foldr insertEntry []

/-- Entries stand in the strict order of their names, so no name stands twice. -/
def Ascending {α : Type} (entries : List (String × α)) : Prop :=
  entries.Pairwise (fun a b => a.1 < b.1)

/-- The names after an insertion are the new name and the names before it. -/
theorem mem_names_insertEntry {α : Type} (new : String × α) (entries : List (String × α)) (name : String) :
    name ∈ (insertEntry new entries).map Prod.fst ↔ name = new.1 ∨ name ∈ entries.map Prod.fst := by
  induction entries with
  | nil => simp [insertEntry]
  | cons entry rest ih =>
    unfold insertEntry
    split
    · simp
    · split
      · rename_i he
        simp only [List.map_cons, List.mem_cons, he]
        exact ⟨Or.inr, fun h => h.elim Or.inl id⟩
      · rw [List.map_cons, List.mem_cons, ih, List.map_cons, List.mem_cons]
        exact or_left_comm

/-- An insertion keeps the strict order of names. -/
theorem ascending_insertEntry {α : Type} (new : String × α) {entries : List (String × α)} (h : Ascending entries) :
    Ascending (insertEntry new entries) := by
  induction entries with
  | nil => exact List.pairwise_singleton _ _
  | cons entry rest ih =>
    obtain ⟨hfirst, hrest⟩ := List.pairwise_cons.mp h
    unfold insertEntry
    split
    · rename_i hlt
      refine List.pairwise_cons.mpr ⟨fun later hm => ?_, h⟩
      rcases List.mem_cons.mp hm with rfl | hm
      · exact hlt
      · exact String.lt_trans hlt (hfirst later hm)
    · split
      · exact h
      · rename_i hlt hne
        refine List.pairwise_cons.mpr ⟨fun later hm => ?_, ih hrest⟩
        have hname : later.1 ∈ (insertEntry new rest).map Prod.fst := List.mem_map_of_mem hm
        rcases (mem_names_insertEntry new rest later.1).mp hname with he | hm
        · rw [he]
          exact Std.lt_of_le_of_ne (Std.not_lt.mp hlt) (fun e => hne e.symm)
        · obtain ⟨old, hold, he⟩ := List.mem_map.mp hm
          rw [← he]
          exact hfirst old hold

/-- Sorted entries stand in the strict order of their names. -/
theorem ascending_sortEntries {α : Type} (entries : List (String × α)) : Ascending (sortEntries entries) := by
  induction entries with
  | nil => exact List.Pairwise.nil
  | cons entry rest ih => exact ascending_insertEntry entry ih

/-- Sorting keeps the names that are listed and adds none. -/
theorem mem_names_sortEntries {α : Type} (entries : List (String × α)) (name : String) :
    name ∈ (sortEntries entries).map Prod.fst ↔ name ∈ entries.map Prod.fst := by
  induction entries with
  | nil => exact Iff.rfl
  | cons entry rest ih =>
    have hstep := mem_names_insertEntry entry (sortEntries rest) name
    rw [ih] at hstep
    rw [List.map_cons, List.mem_cons]
    exact hstep

/-- Names that ascend are distinct. -/
theorem Ascending.nodup_names {α : Type} {entries : List (String × α)} (h : Ascending entries) :
    (entries.map Prod.fst).Nodup :=
  List.pairwise_map.mpr (h.imp (fun hlt => String.ne_of_lt hlt))

/-- Entries with distinct names are distinct. -/
theorem nodup_of_nodup_names {α : Type} {entries : List (String × α)} (h : (entries.map Prod.fst).Nodup) : entries.Nodup :=
  List.Pairwise.of_map Prod.fst (fun _ _ hne he => hne (congrArg Prod.fst he)) h

/-- An insertion gives its name a value unless the name has one, and changes no other name. -/
theorem lookup_insertEntry {α : Type} (new : String × α) {entries : List (String × α)} (h : Ascending entries)
    (name : String) :
    (insertEntry new entries).lookup name =
      (entries.lookup name).or (if name = new.1 then some new.2 else none) := by
  induction entries with
  | nil => exact OrderedMap.lookup_cons_ite new.1 name new.2 []
  | cons entry rest ih =>
    obtain ⟨hfirst, hrest⟩ := List.pairwise_cons.mp h
    unfold insertEntry
    split
    · rename_i hlt
      rw [OrderedMap.lookup_cons_ite]
      split
      · rename_i he
        have hnone : (entry :: rest).lookup name = none := by
          rw [List.lookup_eq_none_iff]
          intro later hm
          have hlater : new.1 < later.1 := by
            rcases List.mem_cons.mp hm with rfl | hm
            · exact hlt
            · exact String.lt_trans hlt (hfirst later hm)
          rw [he]
          exact bne_iff_ne.mpr (String.ne_of_lt hlater)
        rw [hnone]
        rfl
      · exact (Option.or_none).symm
    · split
      · rename_i he
        rw [OrderedMap.lookup_cons_ite, he]
        split
        · rfl
        · exact (Option.or_none).symm
      · rw [OrderedMap.lookup_cons_ite, ih hrest, OrderedMap.lookup_cons_ite]
        split
        · rfl
        · rfl

/-- Sorted entries have under each name the value listed last under it. -/
theorem lookup_sortEntries {α : Type} (entries : List (String × α)) (name : String) :
    (sortEntries entries).lookup name = entries.reverse.lookup name := by
  induction entries with
  | nil => rfl
  | cons entry rest ih =>
    have hstep : sortEntries (entry :: rest) = insertEntry entry (sortEntries rest) := rfl
    rw [hstep, lookup_insertEntry entry (ascending_sortEntries rest), ih, List.reverse_cons, List.lookup_append,
      OrderedMap.lookup_cons_ite]
    rfl

/-- A map whose entries stand in the strict order of their names. -/
structure SortedMap (α : Type) where
  /-- The entries, each name with its value. -/
  entries : List (String × α)
  /-- The names ascend. -/
  ascending : Ascending entries

namespace SortedMap

variable {α : Type}

/-- Two maps with the same entries are the same map. -/
@[ext] theorem ext {m m' : SortedMap α} (h : m.entries = m'.entries) : m = m' := by
  cases m
  cases m'
  cases h
  rfl

instance [DecidableEq α] : DecidableEq (SortedMap α) := fun m m' =>
  decidable_of_iff (m.entries = m'.entries) ⟨ext, fun h => h ▸ rfl⟩

/-- The entries of an ordered map, in the order of their names. -/
def ofOrdered (m : OrderedMap α) : SortedMap α := ⟨sortEntries m.entries, ascending_sortEntries m.entries⟩

/-- The value under a name, if there is one. -/
def get? (m : SortedMap α) (name : String) : Option α := m.entries.lookup name

/-- Sorting the entries of a map changes no value. -/
theorem get?_ofOrdered (m : OrderedMap α) (name : String) : (ofOrdered m).get? name = m.get? name := by
  have hlast : (ofOrdered m).get? name = m.entries.reverse.lookup name := lookup_sortEntries m.entries name
  rw [hlast, OrderedMap.lookup_reverse_entries]

/-- Two maps with the same value under every name are the same map. -/
theorem eq_of_get?_eq {m m' : SortedMap α} (h : ∀ name, m.get? name = m'.get? name) : m = m' := by
  have hmem : ∀ entry, entry ∈ m.entries ↔ entry ∈ m'.entries := by
    rintro ⟨name, value⟩
    rw [OrderedMap.mem_entries_iff_lookup m.ascending.nodup_names,
      OrderedMap.mem_entries_iff_lookup m'.ascending.nodup_names]
    exact iff_of_eq (congrArg (· = some value) (h name))
  have hnodup (a : SortedMap α) : a.entries.Nodup := nodup_of_nodup_names a.ascending.nodup_names
  have hperm : m.entries.Perm m'.entries := (List.perm_ext_iff_of_nodup (hnodup m) (hnodup m')).mpr hmem
  apply ext
  refine List.Perm.eq_of_pairwise (fun a b _ _ hab hba => ?_) m.ascending m'.ascending hperm
  exact absurd hba (String.lt_asymm hab)

/-- Two ordered maps have the same sorted form exactly when they have the same value under every name. -/
theorem ofOrdered_eq_iff (m m' : OrderedMap α) :
    ofOrdered m = ofOrdered m' ↔ ∀ name, m.get? name = m'.get? name := by
  constructor
  · intro h name
    rw [← get?_ofOrdered m, ← get?_ofOrdered m', h]
  · intro h
    apply eq_of_get?_eq
    intro name
    rw [get?_ofOrdered, get?_ofOrdered, h]

end SortedMap

/-- Entries of which no two share a name are sorted alike in whatever order they are listed. -/
theorem sortEntries_eq_of_perm {α : Type} {entries entries' : List (String × α)}
    (h : (entries.map Prod.fst).Nodup) (hperm : entries.Perm entries') : sortEntries entries = sortEntries entries' := by
  have hreverse : (entries.reverse.map Prod.fst).Nodup :=
    ((List.reverse_perm entries).map Prod.fst).nodup_iff.mpr h
  have hpermReverse : entries.reverse.Perm entries'.reverse :=
    (List.reverse_perm entries).trans (hperm.trans (List.reverse_perm entries').symm)
  have hget (name : String) : (sortEntries entries).lookup name = (sortEntries entries').lookup name := by
    rw [lookup_sortEntries, lookup_sortEntries, OrderedMap.lookup_eq_of_perm hreverse hpermReverse]
  have hsorted : (⟨sortEntries entries, ascending_sortEntries entries⟩ : SortedMap α) =
      ⟨sortEntries entries', ascending_sortEntries entries'⟩ := SortedMap.eq_of_get?_eq hget
  exact congrArg SortedMap.entries hsorted

/-- Sorting entries of which no two share a name keeps them all and adds none. -/
theorem mem_sortEntries_iff {α : Type} {entries : List (String × α)} (h : (entries.map Prod.fst).Nodup) (entry : String × α) :
    entry ∈ sortEntries entries ↔ entry ∈ entries := by
  have hlast : entries.reverse.lookup entry.1 = entries.lookup entry.1 :=
    (OrderedMap.lookup_eq_of_perm h (List.reverse_perm entries).symm entry.1).symm
  rw [OrderedMap.mem_entries_iff_lookup (ascending_sortEntries entries).nodup_names, lookup_sortEntries, hlast,
    ← OrderedMap.mem_entries_iff_lookup h]

/-- Entries of which no two share a name are sorted alike exactly when they have the same names and one value under every name. -/
theorem sortEntries_eq_iff {α : Type} {entries entries' : List (String × α)} (h : (entries.map Prod.fst).Nodup)
    (h' : (entries'.map Prod.fst).Nodup) :
    sortEntries entries = sortEntries entries' ↔
      (∀ name, name ∈ entries.map Prod.fst ↔ name ∈ entries'.map Prod.fst) ∧
        ∀ name a b, (name, a) ∈ entries → (name, b) ∈ entries' → a = b := by
  constructor
  · intro hsorted
    refine ⟨fun name => ?_, fun name a b ha hb => ?_⟩
    · rw [← mem_names_sortEntries entries, hsorted, mem_names_sortEntries]
    · rw [← mem_sortEntries_iff h, hsorted, mem_sortEntries_iff h', OrderedMap.mem_entries_iff_lookup h'] at ha
      rw [OrderedMap.mem_entries_iff_lookup h'] at hb
      exact Option.some.inj (ha.symm.trans hb)
  · rintro ⟨hnames, hvalues⟩
    refine sortEntries_eq_of_perm h ((List.perm_ext_iff_of_nodup (nodup_of_nodup_names h) (nodup_of_nodup_names h')).mpr ?_)
    rintro ⟨name, value⟩
    constructor
    · intro ha
      obtain ⟨⟨_, other⟩, hb, rfl⟩ := List.mem_map.mp ((hnames name).mp (List.mem_map_of_mem ha))
      exact hvalues _ value other ha hb ▸ hb
    · intro hb
      obtain ⟨⟨_, other⟩, ha, rfl⟩ := List.mem_map.mp ((hnames name).mpr (List.mem_map_of_mem hb))
      exact hvalues _ other value ha hb ▸ ha

/-- A set of names, listed in their order. -/
structure NameSet where
  /-- The names of the set. -/
  names : List String
  /-- The names ascend, so none stands twice. -/
  ascending : names.Pairwise (· < ·)
  deriving DecidableEq

namespace NameSet

/-- The set of the names in a list. -/
def ofList (names : List String) : NameSet where
  names := (sortEntries (names.map (fun name => (name, ())))).map Prod.fst
  ascending := List.pairwise_map.mpr (ascending_sortEntries _)

/-- Whether a name is in the set. -/
def contains (s : NameSet) (name : String) : Bool := s.names.contains name

/-- The set of the names in a list holds those names and no other. -/
theorem mem_names_ofList (names : List String) (name : String) : name ∈ (ofList names).names ↔ name ∈ names := by
  have h := mem_names_sortEntries (names.map (fun name => (name, ()))) name
  simpa [ofList, List.map_map, Function.comp_def] using h

end NameSet

end TestDouble
