import TestDouble.Proofs.MethodTables.Overrides

/-!
# Where the entries of the tables come from

Everything that stands in a table of a merge is either supplied by the user for this table or declared by one of the types
(`entry_cases`). So a body that a table calls for is among the bodies that the mixins supply, although these are collected
without a look at the tables (`mixin_bodies_suffice`).
-/

namespace TestDouble

/-- The methods that the user supplies for the type, or for its instances. -/
def Members.methodsOf (members : Members) (ofType : Bool) : OrderedMap CustomMethod :=
  if ofType then members.staticMethods else members.methods

namespace MethodTables

/-- The methods of the type, or of its instances. -/
def table (t : MethodTables) (ofType : Bool) : OrderedMap MethodDefinition := if ofType then t.statics else t.instances

/-- The definitions of the two tables are what stands in them under a name. -/
theorem mem_all_iff (t : MethodTables) (d : MethodDefinition) :
    d ∈ t.all ↔ ∃ ofType name, (t.table ofType).get? name = some d := by
  rw [all, List.mem_append, OrderedMap.mem_values_iff, OrderedMap.mem_values_iff, Bool.exists_bool, or_comm]
  rfl

/-- Under a name stands in a table what the user supplies there, or else, if the user supplies no method of that name for the
other table, the automatic method that belongs into this one. -/
theorem get?_table_ofClassified (rules : IdentifierRules) (c : Classified) (custom : Members) (ofType : Bool)
    (name : String) :
    ((ofClassified rules c custom).table ofType).get? name =
      (((custom.methodsOf ofType).get? name).map (.custom name ofType)).or
        (if (custom.methodsOf !ofType).contains name then none
          else ((declarable rules c).get? name).filter (fun d => d.isStatic == ofType)) := by
  cases ofType with
  | false =>
    simp only [beq_false, ← get?_instances_ofAutomatic]
    exact get?_instances_ofClassified rules c custom name
  | true =>
    simp only [beq_true, ← get?_statics_ofAutomatic]
    exact get?_statics_ofClassified rules c custom name

/-- What stands in a table under a name is what the user supplies there, or is declared by a type under this name and belongs
into this table. -/
theorem entry_cases {rules : IdentifierRules} {c : Classified} {custom : Members} {ofType : Bool} {name : String}
    {d : MethodDefinition} (h : ((ofClassified rules c custom).table ofType).get? name = some d) :
    (∃ m, (custom.methodsOf ofType).get? name = some m ∧ d = .custom name ofType m) ∨
      (c.Declares d ∧ d.name = name ∧ d.isStatic = ofType) := by
  rw [get?_table_ofClassified, Option.or_eq_some_iff] at h
  rcases h with hsupplied | ⟨-, hautomatic⟩
  · obtain ⟨m, hm, rfl⟩ := Option.map_eq_some_iff.mp hsupplied
    exact .inl ⟨m, hm, rfl⟩
  · split at hautomatic
    · cases hautomatic
    · obtain ⟨hdeclarable, hplaced⟩ := Option.filter_eq_some_iff.mp hautomatic
      obtain ⟨hdeclares, hname⟩ := declares_of_declarable hdeclarable
      exact .inr ⟨hdeclares, hname, by simpa using hplaced⟩

/-! ## Names that the user supplies, and others -/

/-- Under a name that the user supplies stands what is supplied, whatever the types declare. -/
theorem get?_table_of_supplied {custom : Members} {name : String} (rules : IdentifierRules) (c : Classified)
    (ofType : Bool) (h : ¬∀ other, (custom.methodsOf other).get? name = none) :
    ((ofClassified rules c custom).table ofType).get? name =
      ((custom.methodsOf ofType).get? name).map (.custom name ofType) := by
  rw [get?_table_ofClassified, OrderedMap.contains_eq_isSome]
  cases hsupplied : (custom.methodsOf ofType).get? name with
  | some m => rfl
  | none =>
    cases hother : (custom.methodsOf !ofType).get? name with
    | some m => rfl
    | none => exact absurd (fun other => by cases other <;> cases ofType <;> assumption) h

/-- Under a name that the user does not supply stands the automatic method, in the table that its staticness says. -/
theorem get?_table_of_free {custom : Members} {name : String} (rules : IdentifierRules) (c : Classified) (ofType : Bool)
    (h : ∀ other, (custom.methodsOf other).get? name = none) :
    ((ofClassified rules c custom).table ofType).get? name =
      ((declarable rules c).get? name).filter (fun d => d.isStatic == ofType) := by
  rw [get?_table_ofClassified, OrderedMap.contains_eq_isSome, h, h]
  rfl

/-- A name is in neither table exactly when the user does not supply it and it has no automatic method. -/
theorem forall_get?_eq_none_iff (rules : IdentifierRules) (c : Classified) (custom : Members) (name : String) :
    (∀ other, ((ofClassified rules c custom).table other).get? name = none) ↔
      (∀ other, (custom.methodsOf other).get? name = none) ∧ (declarable rules c).get? name = none := by
  constructor
  · intro h
    have hfree : ∀ other, (custom.methodsOf other).get? name = none := by
      apply Classical.byContradiction
      intro hsupplied
      apply hsupplied
      intro other
      have hnone := h other
      rwa [get?_table_of_supplied rules c other hsupplied, Option.map_eq_none_iff] at hnone
    refine ⟨hfree, ?_⟩
    cases hd : (declarable rules c).get? name with
    | none => rfl
    | some d =>
      have hnone := h d.isStatic
      rw [get?_table_of_free rules c d.isStatic hfree, hd] at hnone
      simp at hnone
  · rintro ⟨hfree, hnone⟩ other
    rw [get?_table_of_free rules c other hfree, hnone]
    rfl

end MethodTables

/-! ## The bodies of the mixins -/

namespace Classified

/-- A definition comes from a concrete method of the base. -/
def FromConcreteBase (c : Classified) (d : MethodDefinition) : Prop :=
  ∃ base, c.base = some base ∧
    ∃ m ∈ base.methods, m.isPrivate = false ∧ m.isAbstract = false ∧ d = .inherited m base.name

/-- What a type declares runs a body of a mixin only if a mixin supplies it. -/
theorem Declares.mem_mixinBodies {c : Classified} {d : MethodDefinition} (h : c.Declares d)
    (hdispatch : d.dispatch = .mixinBody) : d ∈ c.mixinBodies := by
  cases h with
  | ofBase hbase hm =>
    rw [MethodDefinition.dispatch] at hdispatch
    split at hdispatch <;> cases hdispatch
  | @ofMixin t m ht hm =>
    have hconcrete : m.isAbstract = false := by
      rw [MethodDefinition.dispatch] at hdispatch
      split at hdispatch
      · cases hdispatch
      · rename_i h
        exact Bool.not_eq_true _ |>.mp h
    refine List.mem_flatMap.mpr ⟨t, ht, List.mem_map.mpr ⟨m, ?_, rfl⟩⟩
    exact List.mem_filter.mpr ⟨hm, by rw [hconcrete]; rfl⟩
  | ofCapability ht hm => cases hdispatch

/-- A concrete method of the base runs the body of the base. -/
theorem FromConcreteBase.dispatch_eq {c : Classified} {d : MethodDefinition} (h : c.FromConcreteBase d) :
    d.dispatch = .real := by
  obtain ⟨base, -, m, -, -, hconcrete, rfl⟩ := h
  simp [MethodDefinition.dispatch, hconcrete]

/-- What a type declares and no mixin has a body for comes from a concrete method of the base or has nothing to run. -/
theorem Declares.dispatch_cases {c : Classified} {d : MethodDefinition} (h : c.Declares d)
    (hdispatch : d.dispatch ≠ .mixinBody) : c.FromConcreteBase d ∨ d.dispatch = .unimplemented := by
  cases h with
  | @ofBase base m hbase hm =>
    obtain ⟨hlisted, hvisible⟩ := (base.mem_visibleMethods_iff m).mp hm
    cases habstract : m.isAbstract with
    | false => exact .inl ⟨base, hbase, m, hlisted, hvisible, habstract, rfl⟩
    | true => exact .inr (by simp [MethodDefinition.dispatch, habstract])
  | ofMixin ht hm =>
    rw [MethodDefinition.dispatch] at hdispatch ⊢
    split at hdispatch
    · rename_i habstract
      exact .inr (if_pos habstract)
    · exact absurd rfl hdispatch
  | ofCapability ht hm => exact .inr rfl

end Classified

/-- The bodies of the mixins are complete and suffice. They are the methods of the mixins that are neither private nor abstract,
each as the default of its mixin, in the order of the mixins and of their methods, whatever becomes of their names; so they
depend on nothing but the mixins. Every definition of the two tables that runs a body of a mixin is one of them; every other
automatic definition runs the body of the base exactly if it comes from a concrete method of the base, and otherwise has nothing
to run. -/
theorem mixin_bodies_suffice (rules : IdentifierRules) (c : Classified) (custom : Members) :
    let tables := (Merged.ofClassified rules c custom).tables
    tables.mixinBodies =
        c.mixins.flatMap (fun t => (t.methods.filter (fun m => !m.isPrivate && !m.isAbstract)).map
          (fun m => .mixinDefault m t.name)) ∧
      (∀ rules' c' custom', c'.mixins = c.mixins →
        (Merged.ofClassified rules' c' custom').tables.mixinBodies = tables.mixinBodies) ∧
      (∀ d ∈ tables.all, d.dispatch = .mixinBody → d ∈ tables.mixinBodies) ∧
      ∀ d ∈ tables.all, d.isCustom = false → d.dispatch ≠ .mixinBody →
        (d.dispatch = .real ↔ c.FromConcreteBase d) ∧
          (¬c.FromConcreteBase d → d.dispatch = .unimplemented) := by
  intro tables
  have hbodies : tables.mixinBodies = c.mixinBodies := MethodTables.mixinBodies_ofClassified rules c custom
  refine ⟨?_, fun rules' c' custom' hmixins => ?_, fun d hd hdispatch => ?_, fun d hd hautomatic hdispatch => ?_⟩
  · rw [hbodies, Classified.mixinBodies]
    simp only [SourceType.visibleMethods, List.filter_filter, Bool.and_comm]
  · have hbodies' : (Merged.ofClassified rules' c' custom').tables.mixinBodies = c'.mixinBodies :=
      MethodTables.mixinBodies_ofClassified rules' c' custom'
    rw [hbodies', hbodies, Classified.mixinBodies, Classified.mixinBodies, hmixins]
  · obtain ⟨ofType, name, hentry⟩ := (MethodTables.mem_all_iff tables d).mp hd
    rcases MethodTables.entry_cases hentry with ⟨m, -, rfl⟩ | ⟨hdeclares, -, -⟩
    · cases hdispatch
    · rw [hbodies]
      exact hdeclares.mem_mixinBodies hdispatch
  · obtain ⟨ofType, name, hentry⟩ := (MethodTables.mem_all_iff tables d).mp hd
    rcases MethodTables.entry_cases hentry with ⟨m, -, rfl⟩ | ⟨hdeclares, -, -⟩
    · cases hautomatic
    · rcases hdeclares.dispatch_cases hdispatch with hbase | hnone
      · exact ⟨iff_of_true hbase.dispatch_eq hbase, fun h => absurd hbase h⟩
      · have hnotReal : d.dispatch ≠ .real := by simp [hnone]
        exact ⟨⟨fun hreal => absurd hreal hnotReal, fun hbase => hbase.dispatch_eq⟩, fun _ => hnone⟩

namespace BodiesExample

/-- A base with an abstract method and a concrete one, a mixin that has a body for the abstract one, which is shadowed, one for
a method of its own, a private one and none for a fourth, and a capability. -/
def types : Classified where
  base := some
    { name := "Animal", kind := .extensible, methods := [{ name := "speak", isAbstract := true }, { name := "run" }] }
  capabilities := [{ name := "Jumping", kind := .capability, methods := [{ name := "jump" }] }]
  mixins :=
    [{ name := "Loud", kind := .mixin,
       methods := [{ name := "speak" }, { name := "shout" }, { name := "hide", visibility := .isPrivate },
         { name := "pitch", isAbstract := true }] }]

end BodiesExample

open BodiesExample in
/-- The shadowed body is retained, the body of a table is among those retained, and the three other dispatches. -/
theorem mixin_bodies_suffice_shout :
    let tables := (Merged.ofClassified {} types {}).tables
    tables.mixinBodies = [.mixinDefault { name := "speak" } "Loud", .mixinDefault { name := "shout" } "Loud"] ∧
      .mixinDefault { name := "shout" } "Loud" ∈ tables.all ∧
      .mixinDefault { name := "shout" } "Loud" ∈ tables.mixinBodies ∧
      MethodDefinition.dispatch (.inherited { name := "run" } "Animal") = .real ∧
      MethodDefinition.dispatch (.contract { name := "jump" } "Jumping") = .unimplemented := by
  intro tables
  obtain ⟨hbodies, -, hretained, hdispatch⟩ := mixin_bodies_suffice {} types {}
  have hshout : .mixinDefault { name := "shout" } "Loud" ∈ tables.all := by decide +kernel
  have hrun : .inherited { name := "run" } "Animal" ∈ tables.all := by decide +kernel
  have hjump : .contract { name := "jump" } "Jumping" ∈ tables.all := by decide +kernel
  have hconcrete : types.FromConcreteBase (.inherited { name := "run" } "Animal") :=
    ⟨_, rfl, { name := "run" }, by decide, rfl, rfl, rfl⟩
  refine ⟨hbodies, hshout, hretained _ hshout rfl, ((hdispatch _ hrun rfl (by decide)).1).mpr hconcrete,
    (hdispatch _ hjump rfl (by decide)).2 ?_⟩
  rintro ⟨_, _, _, _, _, _, heq⟩
  cases heq

end TestDouble
