import Mathlib.Data.List.Nodup
import TestDouble.Proofs.MethodTables.Entries

/-!
# Well-formed tables and their views

In the tables of a merge every definition stands under its own name, in the table that its staticness says, and none is private
(`wellFormed_ofClassified`). Of such tables the views lose nothing: no definition stands twice, and the public and the protected
ones of a table are all that it has (`views_lose_nothing`).
-/

namespace TestDouble

namespace MethodTables

/-- Two tables are well-formed: a definition stands under its own name and in the table that its staticness says, and none is
private. -/
structure WellFormed (t : MethodTables) : Prop where
  named : ∀ ofType, ∀ entry ∈ (t.table ofType).entries, entry.2.name = entry.1
  placed : ∀ ofType, ∀ entry ∈ (t.table ofType).entries, entry.2.isStatic = ofType
  visible : ∀ ofType, ∀ entry ∈ (t.table ofType).entries, entry.2.visibility ≠ .isPrivate

/-- What a type declares is not private. -/
theorem visibility_of_declares {c : Classified} {d : MethodDefinition} (h : c.Declares d) : d.visibility ≠ .isPrivate := by
  have hvisible {t : SourceType} {m : Method} (hm : m ∈ t.visibleMethods) : m.visibility ≠ .isPrivate := by
    have hprivate : m.isPrivate = false := ((t.mem_visibleMethods_iff m).mp hm).2
    simpa [Method.isPrivate] using hprivate
  cases h with
  | ofBase _ hm => exact hvisible hm
  | ofMixin _ hm => exact hvisible hm
  | ofCapability _ hm => exact hvisible hm

/-- The tables of a merge are well-formed. -/
theorem wellFormed_ofClassified (rules : IdentifierRules) (c : Classified) (custom : Members) :
    (ofClassified rules c custom).WellFormed := by
  have hentry (ofType : Bool) (entry : String × MethodDefinition)
      (hm : entry ∈ ((ofClassified rules c custom).table ofType).entries) :
      entry.2.name = entry.1 ∧ entry.2.isStatic = ofType ∧ entry.2.visibility ≠ .isPrivate := by
    obtain ⟨name, d⟩ := entry
    rcases entry_cases ((OrderedMap.mem_entries_iff _ name d).mp hm) with ⟨m, -, rfl⟩ | ⟨hdeclares, hname, hplaced⟩
    · exact ⟨rfl, rfl, by simp [MethodDefinition.visibility]⟩
    · exact ⟨hname, hplaced, visibility_of_declares hdeclares⟩
  exact ⟨fun ofType entry hm => (hentry ofType entry hm).1, fun ofType entry hm => (hentry ofType entry hm).2.1,
    fun ofType entry hm => (hentry ofType entry hm).2.2⟩

namespace WellFormed

variable {t : MethodTables}

/-- No definition stands twice in a table. -/
theorem nodup_values (h : t.WellFormed) (ofType : Bool) : (t.table ofType).values.Nodup := by
  have hnames : (t.table ofType).values.map (·.name) = (t.table ofType).names := by
    rw [OrderedMap.values, OrderedMap.names, List.map_map]
    exact List.map_congr_left fun entry hm => h.named ofType entry hm
  have hdistinct : ((t.table ofType).values.map (·.name)).Nodup := hnames ▸ (t.table ofType).distinct
  exact List.Nodup.of_map _ hdistinct

/-- A definition of a table is static exactly in the table of the type. -/
theorem isStatic_of_mem_values (h : t.WellFormed) (ofType : Bool) {d : MethodDefinition}
    (hd : d ∈ (t.table ofType).values) : d.isStatic = ofType := by
  obtain ⟨entry, hm, rfl⟩ := List.mem_map.mp hd
  exact h.placed ofType entry hm

/-- A definition of a table is not private. -/
theorem visible_of_mem_values (h : t.WellFormed) (ofType : Bool) {d : MethodDefinition}
    (hd : d ∈ (t.table ofType).values) : d.visibility ≠ .isPrivate := by
  obtain ⟨entry, hm, rfl⟩ := List.mem_map.mp hd
  exact h.visible ofType entry hm

/-- No definition stands twice in the two tables. -/
theorem nodup_all (h : t.WellFormed) : t.all.Nodup := by
  refine List.nodup_append.mpr ⟨h.nodup_values true, h.nodup_values false, fun d hd d' hd' he => ?_⟩
  have hstatic : d.isStatic = true := h.isStatic_of_mem_values true hd
  have hinstance : d'.isStatic = false := h.isStatic_of_mem_values false hd'
  rw [← he, hstatic] at hinstance
  cases hinstance

/-- Every definition of a table stands once in the two tables. -/
theorem count_all (h : t.WellFormed) (ofType : Bool) {d : MethodDefinition} (hd : d ∈ (t.table ofType).values) :
    t.all.count d = 1 := by
  refine List.count_eq_one_of_mem h.nodup_all ?_
  cases ofType with
  | false => exact List.mem_append_right _ hd
  | true => exact List.mem_append_left _ hd

end WellFormed

/-! ## Views -/

/-- Two views split some definitions: each lists some of them in their order, and every definition is in one view, once. -/
structure SplitBetween (definitions first second : List MethodDefinition) : Prop where
  firstSublist : first.Sublist definitions
  secondSublist : second.Sublist definitions
  disjoint : first.Disjoint second
  once : ∀ d ∈ definitions, (first ++ second).count d = 1

/-- Where no definition is private, the public and the protected ones are all. -/
theorem withVisibility_perm {table : OrderedMap MethodDefinition} (h : ∀ d ∈ table.values, d.visibility ≠ .isPrivate) :
    (withVisibility table .isPublic ++ withVisibility table .isProtected).Perm table.values := by
  have hothers : withVisibility table .isProtected =
      table.values.filter (fun definition => !(definition.visibility == .isPublic)) := by
    refine List.filter_congr fun d hd => ?_
    have hvisible := h d hd
    cases hv : d.visibility with
    | isPublic => rfl
    | isProtected => rfl
    | isPrivate => exact absurd hv hvisible
  rw [hothers]
  exact List.filter_append_perm _ table.values

/-- Where no definition is private and none stands twice, the public and the protected ones split a table. -/
theorem splitBetween_visibility {table : OrderedMap MethodDefinition} (hnodup : table.values.Nodup)
    (hvisible : ∀ d ∈ table.values, d.visibility ≠ .isPrivate) :
    SplitBetween table.values (withVisibility table .isPublic) (withVisibility table .isProtected) where
  firstSublist := List.filter_sublist
  secondSublist := List.filter_sublist
  disjoint := by
    intro d hpublic hprotected
    have hv : d.visibility = .isPublic := by simpa using (List.mem_filter.mp hpublic).2
    have hv' : d.visibility = .isProtected := by simpa using (List.mem_filter.mp hprotected).2
    rw [hv] at hv'
    cases hv'
  once := by
    intro d hd
    rw [(withVisibility_perm hvisible).count_eq]
    exact List.count_eq_one_of_mem hnodup hd

/-- Where no definition is private, the two views of a table have together as many definitions as the table. -/
theorem size_eq_of_visible {table : OrderedMap MethodDefinition} (h : ∀ d ∈ table.values, d.visibility ≠ .isPrivate) :
    table.size = (withVisibility table .isPublic).length + (withVisibility table .isProtected).length := by
  have hvalues : table.values.length = table.size := List.length_map _
  rw [← hvalues, ← (withVisibility_perm h).length_eq, List.length_append]

end MethodTables

open MethodTables

/-- Well-formed tables, and views that lose nothing. In the tables of a merge every definition stands under its own name, the
static ones stand among the methods of the type and the others among those of instances, and none is private. Every definition
of either table is exactly once among all. The public and the protected methods split the methods of instances, and the public
and the protected static methods split those of the type: two views list different definitions in the order of the table, and
together each of them exactly once. The size is the sum of the lengths of the four views. -/
theorem views_lose_nothing (rules : IdentifierRules) (c : Classified) (custom : Members) :
    let tables := (Merged.ofClassified rules c custom).tables
    tables.WellFormed ∧
      (∀ d ∈ tables.statics.values, tables.all.count d = 1) ∧
      (∀ d ∈ tables.instances.values, tables.all.count d = 1) ∧
      SplitBetween tables.instances.values tables.publicMethods tables.protectedMethods ∧
      SplitBetween tables.statics.values tables.publicStatics tables.protectedStatics ∧
      tables.size =
        tables.publicMethods.length + tables.protectedMethods.length + tables.publicStatics.length +
          tables.protectedStatics.length := by
  intro tables
  have h : tables.WellFormed := wellFormed_ofClassified rules c custom
  have hinstances : ∀ d ∈ tables.instances.values, d.visibility ≠ .isPrivate :=
    fun d hd => h.visible_of_mem_values false hd
  have hstatics : ∀ d ∈ tables.statics.values, d.visibility ≠ .isPrivate :=
    fun d hd => h.visible_of_mem_values true hd
  refine ⟨h, fun d hd => h.count_all true hd, fun d hd => h.count_all false hd,
    splitBetween_visibility (h.nodup_values false) hinstances, splitBetween_visibility (h.nodup_values true) hstatics, ?_⟩
  rw [size, size_eq_of_visible hinstances, size_eq_of_visible hstatics, ← Nat.add_assoc]
  rfl

namespace ViewsExample

/-- A base with a public, a protected and a private method and a protected static one. -/
def types : Classified where
  base := some
    { name := "Animal", kind := .extensible,
      methods := [{ name := "speak" }, { name := "digest", visibility := .isProtected },
        { name := "secret", visibility := .isPrivate }, { name := "create", visibility := .isProtected, isStatic := true }] }

/-- A custom method of the private name. -/
def custom : Members := { methods := OrderedMap.ofList [("secret", {})] }

end ViewsExample

open ViewsExample in
/-- The protected method is in one view, once; the custom method of the private name is public. -/
theorem views_lose_nothing_digest :
    let tables := (Merged.ofClassified {} types custom).tables
    let digest : MethodDefinition := .inherited { name := "digest", visibility := .isProtected } "Animal"
    digest ∈ tables.instances.values ∧ tables.all.count digest = 1 ∧
      (tables.publicMethods ++ tables.protectedMethods).count digest = 1 ∧ tables.size = 2 + 1 + 0 + 1 := by
  intro tables digest
  have hdigest : digest ∈ tables.instances.values := by decide +kernel
  obtain ⟨-, -, hinstances, hsplit, -, hsize⟩ := views_lose_nothing {} types custom
  exact ⟨hdigest, hinstances digest hdigest, hsplit.once digest hdigest, hsize.trans (by decide +kernel)⟩

end TestDouble
