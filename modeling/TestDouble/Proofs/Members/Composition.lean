import TestDouble.Proofs.Members.Collected
import TestDouble.Proofs.Members.Entry

/-!
# Definitions behind definitions

The entries of a definition may be added to tables one after another (`addEntries`), or be read into tables of their own first and
merged into the others then: that leaves the same (`addEntries_eq_map_merge`). So a definition that continues another one is read
as the two of them merged, and each table collects what the entries of both store there (`definitions_compose`). Merging is
associative, and tables without a member change nothing (`merge_assoc`, `empty_merge`, `merge_empty`).
-/

namespace TestDouble

namespace Members

/-! ## What entries store in one table -/

/-- What an entry of a definition stores in one of the tables, a content under a name; nothing if it stores nothing there. -/
def storedBy? (kind : MemberKind) (entry : String × EntryValue) : Option (String × EntryValue) :=
  (Member.ofEntry entry.1 entry.2).toOption.bind (Member.entryIn? kind)

/-- What the entries of a definition store in one of the tables, in the order of the entries. -/
def stored (kind : MemberKind) (entries : List (String × EntryValue)) : List (String × EntryValue) :=
  entries.filterMap (storedBy? kind)

/-- An entry stores a content under a name in a table exactly when its key declares the name and its value goes there. -/
theorem storedBy?_eq_some_iff (kind : MemberKind) (entry : String × EntryValue) (name : String) (content : EntryValue) :
    storedBy? kind entry = some (name, content) ↔
      ∃ front, Spells entry.1 front name ∧ Routed front entry.2 kind content := by
  constructor
  · intro h
    obtain ⟨member, hmember, hentry⟩ := Option.bind_eq_some_iff.mp h
    obtain ⟨rfl, hpair⟩ := Option.ite_none_right_eq_some.mp hentry
    cases hpair
    exact (Member.ofEntry_eq_ok_iff entry.1 entry.2 member).mp ((toOption_eq_some_iff _ member).mp hmember)
  · rintro ⟨front, hspells, hrouted⟩
    obtain ⟨member, hmember, rfl, rfl, rfl⟩ := Member.ofEntry_of_routed hspells hrouted
    rw [storedBy?, hmember]
    exact if_pos rfl

/-- Each table of a definition collects what the entries store there. -/
theorem table_ofDefinition {entries : List (String × EntryValue)} {m : Members} (h : ofDefinition entries = .ok m)
    (kind : MemberKind) : m.table kind = .collect (stored kind entries) := by
  rw [ofDefinition_eq] at h
  obtain ⟨added, hread, rfl⟩ := (map_eq_ok_iff ofList _ m).mp h
  rw [ofList, table_insertAll, table_empty, eq_filterMap_of_mapM hread, List.filterMap_filterMap]
  exact OrderedMap.ofList_eq_collect (stored kind entries)

/-! ## One entry after another -/

/-- The tables after entries are added one after another; the first entry that is refused makes all of them refused. -/
def addEntries (m : Members) (entries : List (String × EntryValue)) : Except Refusal Members :=
  entries.foldlM (fun reached entry => reached.addEntry entry.1 entry.2) m

/-- Entries that are added one after another insert the members that they spell. -/
theorem addEntries_eq_map_insertAll (m : Members) (entries : List (String × EntryValue)) :
    m.addEntries entries = (listOfDefinition entries).map m.insertAll := by
  simp only [addEntries, addEntry_eq]
  exact foldlM_map (fun entry : String × EntryValue => Member.ofEntry entry.1 entry.2) insert m entries

/-- Adding entries one after another is merging the tables of their definition. -/
theorem addEntries_eq_map_merge (m : Members) (entries : List (String × EntryValue)) :
    m.addEntries entries = (ofDefinition entries).map m.merge := by
  rw [addEntries_eq_map_insertAll, ofDefinition_eq]
  cases listOfDefinition entries with
  | error refusal => rfl
  | ok added => exact congrArg Except.ok (m.merge_ofList added).symm

/-- Reading a definition is adding its entries to tables without a member. -/
theorem ofDefinition_eq_addEntries (entries : List (String × EntryValue)) :
    ofDefinition entries = ({} : Members).addEntries entries :=
  Edit.edited_forM (fun entry : String × EntryValue => takeEntry entry.1 entry.2) entries {}

/-- A definition that continues another one adds its entries to the tables of that one. -/
theorem ofDefinition_append (a b : List (String × EntryValue)) :
    ofDefinition (a ++ b) = (ofDefinition a).bind (fun m => m.addEntries b) := by
  rw [ofDefinition_eq_addEntries, ofDefinition_eq_addEntries]
  exact List.foldlM_append

/-! ## Merging -/

/-- Merging is associative. -/
theorem merge_assoc (x y z : Members) : (x.merge y).merge z = x.merge (y.merge z) := by
  refine ext_table fun kind => ?_
  rw [table_merge, table_merge, table_merge, table_merge, OrderedMap.insertAll_insertAll]

/-- Merging into tables without a member gives what is merged. -/
theorem empty_merge (m : Members) : ({} : Members).merge m = m := by
  refine ext_table fun kind => ?_
  rw [table_merge, table_empty]
  exact OrderedMap.ofList_entries _

/-- Merging tables without a member changes nothing. -/
theorem merge_empty (m : Members) : m.merge {} = m := rfl

end Members

/-- Definitions compose. Take any two lists of entries. The one continued by the other is taken exactly when both are taken on their
own, and then it leaves the tables of the first with those of the second merged in: each table lists the names that the entries of
both store there in the order in which these come first, each with its last content. Adding the entries of the second one by one
to the tables of the first gives the same, and the same refusal where there is one. Merging any tables is associative, and tables
without a member are neutral on both sides. -/
theorem definitions_compose (a b : List (String × EntryValue)) :
    ((Members.ofDefinition (a ++ b)).isOk = true ↔
        (Members.ofDefinition a).isOk = true ∧ (Members.ofDefinition b).isOk = true) ∧
      (∀ ma mb, Members.ofDefinition a = .ok ma → Members.ofDefinition b = .ok mb →
        Members.ofDefinition (a ++ b) = .ok (ma.merge mb) ∧
          ∀ kind, (ma.merge mb).table kind = .collect (Members.stored kind (a ++ b))) ∧
      (∀ ma, Members.ofDefinition a = .ok ma → ma.addEntries b = Members.ofDefinition (a ++ b)) ∧
      (∀ x y z : Members, (x.merge y).merge z = x.merge (y.merge z)) ∧
      ∀ x : Members, ({} : Members).merge x = x ∧ x.merge {} = x := by
  have hsteps (ma : Members) (ha : Members.ofDefinition a = .ok ma) : Members.ofDefinition (a ++ b) = ma.addEntries b := by
    rw [Members.ofDefinition_append, ha]
    rfl
  have hmerged (ma mb : Members) (ha : Members.ofDefinition a = .ok ma) (hb : Members.ofDefinition b = .ok mb) :
      Members.ofDefinition (a ++ b) = .ok (ma.merge mb) := by
    rw [hsteps ma ha, Members.addEntries_eq_map_merge, hb]
    rfl
  refine ⟨?_, fun ma mb ha hb => ⟨hmerged ma mb ha hb, Members.table_ofDefinition (hmerged ma mb ha hb)⟩,
    fun ma ha => (hsteps ma ha).symm, Members.merge_assoc, fun x => ⟨x.empty_merge, x.merge_empty⟩⟩
  simp only [Members.ofDefinition_eq, Members.listOfDefinition, isOk_map, isOk_mapM, List.all_append, Bool.and_eq_true]

/-- A name that both definitions store keeps its place in the table and takes the later content. -/
theorem definitions_compose_low :
    let a : List (String × EntryValue) := [("low", .data (.bool true)), ("var high", .data .null)]
    let b : List (String × EntryValue) := [("const low", .data .null), ("var low", .method (.named "lowest"))]
    ∃ ma mb, Members.ofDefinition a = .ok ma ∧ Members.ofDefinition b = .ok mb ∧ ma.addEntries b = .ok (ma.merge mb) ∧
      (ma.merge mb).table .property =
        .ofList [("low", .data (.text "lowest")), ("high", .data .null)] := by
  intro a b
  have ha : Members.ofDefinition a = .ok (.ofList [.property "low" (.bool true), .property "high" .null]) :=
    Members.ofDefinition_eq a
  have hb : Members.ofDefinition b = .ok (.ofList [.constant "low" .null, .property "low" (.text "lowest")]) :=
    Members.ofDefinition_eq b
  obtain ⟨-, hmerged, hsteps, -⟩ := definitions_compose a b
  refine ⟨_, _, ha, hb, (hsteps _ ha).trans (hmerged _ _ ha hb).1, ?_⟩
  rw [(hmerged _ _ ha hb).2]
  rfl

end TestDouble
