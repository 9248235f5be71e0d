import TestDouble.Proofs.MethodTables.Overrides

/-!
# Precedence in the method tables

What stands in the two tables of a merge under a name. Under a name that the user supplies nowhere it is the winner of the name,
in the table its staticness says, and nothing where the name is closed or may not be declared (`automatic_precedence`). Under a
name that the user supplies it is what the user supplies, table by table, whatever the types declare (`custom_overrides`).
-/

namespace TestDouble

namespace MethodTables

/-- Where the user supplies neither a method nor a static method of a name, the tables hold what is automatic under it. -/
theorem get?_ofClassified_of_not_custom {custom : Members} {name : String} (hmethod : custom.methods.get? name = none)
    (hstatic : custom.staticMethods.get? name = none) (rules : IdentifierRules) (c : Classified) :
    (ofClassified rules c custom).instances.get? name = (ofAutomatic rules c).instances.get? name ∧
      (ofClassified rules c custom).statics.get? name = (ofAutomatic rules c).statics.get? name := by
  rw [get?_instances_ofClassified, get?_statics_ofClassified, OrderedMap.contains_eq_isSome,
    OrderedMap.contains_eq_isSome, hmethod, hstatic]
  exact ⟨rfl, rfl⟩

/-- An automatic method stands in the table its staticness says and not in the other one. -/
theorem get?_ofAutomatic_of_declarable {rules : IdentifierRules} {c : Classified} {name : String}
    {d : MethodDefinition} (h : (declarable rules c).get? name = some d) :
    (d.isStatic = true →
        (ofAutomatic rules c).statics.get? name = some d ∧ (ofAutomatic rules c).instances.get? name = none) ∧
      (d.isStatic = false →
        (ofAutomatic rules c).instances.get? name = some d ∧ (ofAutomatic rules c).statics.get? name = none) := by
  rw [get?_instances_ofAutomatic, get?_statics_ofAutomatic, h, Option.filter_some, Option.filter_some]
  cases d.isStatic <;> simp

/-- A name without an automatic method stands in neither table of automatic methods. -/
theorem get?_ofAutomatic_of_none {rules : IdentifierRules} {c : Classified} {name : String}
    (h : (declarable rules c).get? name = none) :
    (ofAutomatic rules c).instances.get? name = none ∧ (ofAutomatic rules c).statics.get? name = none := by
  rw [get?_instances_ofAutomatic, get?_statics_ofAutomatic, h]
  exact ⟨rfl, rfl⟩

end MethodTables

namespace PrecedenceExample

/-- A base with a final method, a mixin that declares a name first privately and then as a static method, and a capability that
asks for the same name. -/
def types : Classified where
  base := some
    { name := "Animal", kind := .extensible, methods := [{ name := "speak" }, { name := "id", isFinal := true }] }
  capabilities :=
    [{ name := "Maker", kind := .capability, methods := [{ name := "make" }, { name := "id" }] }]
  mixins :=
    [{ name := "Loud", kind := .mixin,
       methods := [{ name := "make", visibility := .isPrivate }, { name := "make", isStatic := true }] }]

/-- One custom method, under a name that no type declares. -/
def plainCustom : Members := { methods := OrderedMap.ofList [("other", {})] }

/-- A custom method of a closed name, a custom static method over a method of the base, and a name supplied for both tables. -/
def custom : Members where
  methods := OrderedMap.ofList [("id", {}), ("make", {})]
  staticMethods := OrderedMap.ofList [("make", CustomMethod.named "f"), ("speak", {})]

end PrecedenceExample

open MethodTables

/-- Exact precedence of automatic methods. Take a name that the user supplies neither as a method nor as a static method. If it
is the name of a visible constructor or final method of the base, or no method may be declared under it, neither table has it.
Otherwise its winner, if there is one, stands among the methods of the type exactly when it is static, else among the methods
of instances, and never in both tables; without a winner neither table has the name. -/
theorem automatic_precedence (rules : IdentifierRules) (c : Classified) (custom : Members) (name : String)
    (hmethod : custom.methods.contains name = false) (hstatic : custom.staticMethods.contains name = false) :
    let tables := (Merged.ofClassified rules c custom).tables
    (c.Closed name ∨ rules.allowsMethod name = false →
        tables.instances.get? name = none ∧ tables.statics.get? name = none) ∧
      (¬c.Closed name → rules.allowsMethod name = true →
        (c.winner? name = none → tables.instances.get? name = none ∧ tables.statics.get? name = none) ∧
          ∀ winner, c.winner? name = some winner →
            (winner.isStatic = true →
                tables.statics.get? name = some winner ∧ tables.instances.get? name = none) ∧
              (winner.isStatic = false →
                tables.instances.get? name = some winner ∧ tables.statics.get? name = none)) := by
  rw [OrderedMap.contains_eq_isSome, Option.isSome_eq_false_iff, Option.isNone_iff_eq_none] at hmethod hstatic
  obtain ⟨hinstances, hstatics⟩ := get?_ofClassified_of_not_custom hmethod hstatic rules c
  intro tables
  have htables : tables = ofClassified rules c custom := rfl
  rw [htables, hinstances, hstatics]
  constructor
  · rintro (hclosed | hillegal)
    · have hopen : c.isOpen name = false := by
        rw [← Bool.not_eq_true, c.isOpen_iff]
        exact fun h => h hclosed
      apply get?_ofAutomatic_of_none
      rw [get?_declarable, hopen]
      rfl
    · apply get?_ofAutomatic_of_none
      rw [get?_declarable, hillegal, Bool.and_false]
      rfl
  · intro hopen hlegal
    have hwinner : (declarable rules c).get? name = c.winner? name := by
      rw [get?_declarable, (c.isOpen_iff name).mpr hopen, hlegal]
      rfl
    refine ⟨fun hnone => get?_ofAutomatic_of_none (hwinner.trans hnone), fun winner hsome => ?_⟩
    exact get?_ofAutomatic_of_declarable (hwinner.trans hsome)

/-- The static method of a mixin wins over a capability, past the private one before it; a final method of the base closes its
name to the capability. -/
theorem automatic_precedence_make :
    let tables := (Merged.ofClassified {} PrecedenceExample.types PrecedenceExample.plainCustom).tables
    PrecedenceExample.plainCustom.methods.contains "make" = false ∧
      PrecedenceExample.plainCustom.staticMethods.contains "make" = false ∧
      tables.statics.get? "make" = some (.mixinDefault { name := "make", isStatic := true } "Loud") ∧
      tables.instances.get? "make" = none ∧ tables.instances.get? "id" = none := by
  have hopen : ¬PrecedenceExample.types.Closed "make" := (Classified.isOpen_iff _ _).mp (by decide)
  have hclosed : PrecedenceExample.types.Closed "id" := by
    rw [← Classified.mem_unmockable_iff]
    decide
  have hmake := automatic_precedence {} PrecedenceExample.types PrecedenceExample.plainCustom "make" (by decide)
    (by decide)
  have hid := automatic_precedence {} PrecedenceExample.types PrecedenceExample.plainCustom "id" (by decide) (by decide)
  have hwinner := ((hmake.2 hopen (by decide +kernel)).2 _ rfl).1 rfl
  exact ⟨by decide, by decide, hwinner.1, hwinner.2, (hid.1 (Or.inl hclosed)).1⟩

/-- Custom members override everything, table by table. A method that the user supplies stands under its name among the methods
of instances, and among the methods of the type stands under that name only a static method that the user supplies too. A name
that the user supplies as a static method only stands among the methods of the type and not among those of instances. Under any
other name both tables are as without custom members, and so are the names closed to automatic methods. -/
theorem custom_overrides (rules : IdentifierRules) (c : Classified) (custom : Members) (name : String) :
    let merged := Merged.ofClassified rules c custom
    let plain := Merged.ofClassified rules c {}
    (∀ m, custom.methods.get? name = some m →
        merged.tables.instances.get? name = some (.custom name false m) ∧
          merged.tables.statics.get? name = (custom.staticMethods.get? name).map (.custom name true)) ∧
      (∀ m, custom.methods.get? name = none → custom.staticMethods.get? name = some m →
        merged.tables.statics.get? name = some (.custom name true m) ∧ merged.tables.instances.get? name = none) ∧
      (custom.methods.get? name = none → custom.staticMethods.get? name = none →
        merged.tables.instances.get? name = plain.tables.instances.get? name ∧
          merged.tables.statics.get? name = plain.tables.statics.get? name) ∧
      merged.unmockable = plain.unmockable := by
  intro merged plain
  have hmerged : merged.tables = ofClassified rules c custom := rfl
  have hplain : plain.tables = ofClassified rules c {} := rfl
  rw [hmerged, hplain]
  refine ⟨fun m hm => ?_, fun m hm hs => ?_, fun hm hs => ?_, rfl⟩
  · rw [get?_instances_ofClassified, get?_statics_ofClassified, OrderedMap.contains_eq_isSome custom.methods, hm]
    exact ⟨rfl, Option.or_none⟩
  · rw [get?_instances_ofClassified, get?_statics_ofClassified, OrderedMap.contains_eq_isSome custom.staticMethods, hm,
      hs]
    exact ⟨rfl, rfl⟩
  · have hempty := @get?_ofClassified_of_not_custom {} name (OrderedMap.get?_empty name) (OrderedMap.get?_empty name)
      rules c
    rw [hempty.1, hempty.2]
    exact get?_ofClassified_of_not_custom hm hs rules c

/-- A closed name, a name supplied for both tables, and a static method over a method of the base. -/
theorem custom_overrides_three_names :
    let tables := (Merged.ofClassified {} PrecedenceExample.types PrecedenceExample.custom).tables
    tables.instances.get? "id" = some (.custom "id" false {}) ∧
      tables.instances.get? "make" = some (.custom "make" false {}) ∧
      tables.statics.get? "make" = some (.custom "make" true (CustomMethod.named "f")) ∧
      tables.statics.get? "speak" = some (.custom "speak" true {}) ∧ tables.instances.get? "speak" = none := by
  have hid := (custom_overrides {} PrecedenceExample.types PrecedenceExample.custom "id").1 {} (by decide)
  have hmake := (custom_overrides {} PrecedenceExample.types PrecedenceExample.custom "make").1 {} (by decide)
  have hspeak := (custom_overrides {} PrecedenceExample.types PrecedenceExample.custom "speak").2.1 {} (by decide)
    (by decide)
  exact ⟨hid.1, hmake.1, hmake.2.trans (by decide), hspeak⟩

end TestDouble
