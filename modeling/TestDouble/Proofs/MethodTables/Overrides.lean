import TestDouble.Proofs.MethodTables.Winner
import TestDouble.Proofs.OrderedMap.Insertions

/-!
# What custom methods do to the tables

Custom static methods are put on top one after another, then custom methods. A whole run of either is one filter of one table
and one run of insertions into the other, which gives the tables of a merge as they stand (`instances_ofClassified`,
`statics_ofClassified`). Name by name this says that what the user supplies under a name for a table stands there, and that an
automatic method stays only under a name that the user supplies for neither table.
-/

namespace TestDouble.MethodTables

open Classified

/-! ## The tables before custom methods -/

/-- The winner of a name, where an automatic method may stand under it at all. -/
theorem get?_declarable (rules : IdentifierRules) (c : Classified) (name : String) :
    (declarable rules c).get? name =
      if c.isOpen name && rules.allowsMethod name then c.winner? name else none := by
  rw [declarable, OrderedMap.get?_filter, get?_automatic]
  cases c.isOpen name <;> cases rules.allowsMethod name <;> cases c.winner? name <;> rfl

/-- An automatic method is declared by a type, under its name. -/
theorem declares_of_declarable {rules : IdentifierRules} {c : Classified} {name : String} {d : MethodDefinition}
    (h : (declarable rules c).get? name = some d) : c.Declares d ∧ d.name = name := by
  rw [get?_declarable] at h
  split at h
  · exact declares_of_winner? h
  · cases h

/-- The automatic methods of instances are the winners that are not static. -/
theorem get?_instances_ofAutomatic (rules : IdentifierRules) (c : Classified) (name : String) :
    (ofAutomatic rules c).instances.get? name =
      ((declarable rules c).get? name).filter (fun d => !d.isStatic) :=
  OrderedMap.get?_filter _ _ name

/-- The automatic methods of the type are the winners that are static. -/
theorem get?_statics_ofAutomatic (rules : IdentifierRules) (c : Classified) (name : String) :
    (ofAutomatic rules c).statics.get? name = ((declarable rules c).get? name).filter (fun d => d.isStatic) :=
  OrderedMap.get?_filter _ _ name

/-- The automatic methods of the type are not the user's. -/
theorem filter_isCustom_ofAutomatic (rules : IdentifierRules) (c : Classified) (name : String) :
    ((ofAutomatic rules c).statics.get? name).filter (fun d => d.isCustom) = none := by
  rw [Option.filter_eq_none_iff, get?_statics_ofAutomatic]
  intro d hd
  rw [(declares_of_declarable (Option.eq_some_of_filter_eq_some hd)).1.isCustom]
  exact Bool.false_ne_true

/-! ## One step -/

/-- A custom method leaves only a custom method under its name among the methods of the type. -/
theorem statics_putInstance (t : MethodTables) (name : String) (m : CustomMethod) :
    (t.putInstance name m).statics = t.statics.filter (fun listed d => d.isCustom || listed != name) := by
  have hget : ∀ entry ∈ t.statics.entries, entry.1 = name → t.statics.get? name = some entry.2 := by
    rintro ⟨listed, d⟩ hentry rfl
    exact (t.statics.mem_entries_iff listed d).mp hentry
  have hstep : (t.putInstance name m).statics =
      if t.hasAutomaticStatic name then t.statics.erase name else t.statics := rfl
  rw [hstep, hasAutomaticStatic]
  split
  · rename_i hautomatic
    refine OrderedMap.filter_congr fun entry hentry => ?_
    by_cases he : entry.1 = name
    · rw [hget entry hentry he, Option.any_some, Bool.not_eq_true'] at hautomatic
      simp [he, hautomatic]
    · simp [he]
  · rename_i hcustom
    refine (OrderedMap.filter_eq_self fun entry hentry => ?_).symm
    by_cases he : entry.1 = name
    · rw [hget entry hentry he, Option.any_some, Bool.not_eq_true', Bool.not_eq_false] at hcustom
      rw [hcustom, Bool.true_or]
    · simp [he]

/-! ## A run of steps -/

/-- Custom methods as definitions, each under its name. -/
def customEntries (isStatic : Bool) (entries : List (String × CustomMethod)) : List (String × MethodDefinition) :=
  entries.map (fun entry => (entry.1, .custom entry.1 isStatic entry.2))

/-- The names of custom methods are those that they are supplied under. -/
theorem names_customEntries (isStatic : Bool) (entries : List (String × CustomMethod)) :
    (customEntries isStatic entries).map Prod.fst = entries.map Prod.fst := by
  rw [customEntries, List.map_map]
  rfl

/-- A custom method is found under its name. -/
theorem lookup_customEntries (isStatic : Bool) (entries : List (String × CustomMethod)) (name : String) :
    (customEntries isStatic entries).lookup name = (entries.lookup name).map (.custom name isStatic) := by
  induction entries with
  | nil => rfl
  | cons entry rest ih =>
    have hstep : customEntries isStatic (entry :: rest) =
        (entry.1, .custom entry.1 isStatic entry.2) :: customEntries isStatic rest := rfl
    rw [hstep, OrderedMap.lookup_cons_ite, OrderedMap.lookup_cons_ite, ih]
    split
    · rename_i he
      rw [he, Option.map_some]
    · rfl

/-- Of the custom methods of a map each is found under its name from either end. -/
theorem lookup_reverse_customEntries (isStatic : Bool) (custom : OrderedMap CustomMethod) (name : String) :
    (customEntries isStatic custom.entries).reverse.lookup name = (custom.get? name).map (.custom name isStatic) := by
  rw [← OrderedMap.lookup_reverse_entries, ← lookup_customEntries, customEntries, customEntries, List.map_reverse]

/-- A run of custom static methods clears all their names among the methods of instances. -/
theorem instances_putStatics (entries : List (String × CustomMethod)) (t : MethodTables) :
    (t.putStatics entries).instances = t.instances.filter (fun name _ => !(entries.map Prod.fst).contains name) := by
  induction entries generalizing t with
  | nil => exact (OrderedMap.filter_eq_self fun _ _ => rfl).symm
  | cons entry rest ih =>
    have hstep : t.putStatics (entry :: rest) = (t.putStatic entry.1 entry.2).putStatics rest := rfl
    have herase : (t.putStatic entry.1 entry.2).instances = t.instances.filter (fun name _ => name != entry.1) := rfl
    rw [hstep, ih, herase, OrderedMap.filter_filter]
    refine OrderedMap.filter_congr fun listed _ => ?_
    rw [List.map_cons, List.contains_cons, Bool.not_or, Bool.and_comm]
    rfl

/-- A run of custom static methods is inserted among the methods of the type. -/
theorem statics_putStatics (entries : List (String × CustomMethod)) (t : MethodTables) :
    (t.putStatics entries).statics = t.statics.insertAll (customEntries true entries) := by
  induction entries generalizing t with
  | nil => rfl
  | cons entry rest ih => exact ih (t.putStatic entry.1 entry.2)

/-- A run of custom methods is inserted among the methods of instances. -/
theorem instances_putInstances (entries : List (String × CustomMethod)) (t : MethodTables) :
    (t.putInstances entries).instances = t.instances.insertAll (customEntries false entries) := by
  induction entries generalizing t with
  | nil => rfl
  | cons entry rest ih => exact ih (t.putInstance entry.1 entry.2)

/-- A run of custom methods leaves under their names only custom methods among the methods of the type. -/
theorem statics_putInstances (entries : List (String × CustomMethod)) (t : MethodTables) :
    (t.putInstances entries).statics =
      t.statics.filter (fun name d => d.isCustom || !(entries.map Prod.fst).contains name) := by
  induction entries generalizing t with
  | nil => exact (OrderedMap.filter_eq_self fun entry _ => Bool.or_true entry.2.isCustom).symm
  | cons entry rest ih =>
    have hstep : t.putInstances (entry :: rest) = (t.putInstance entry.1 entry.2).putInstances rest := rfl
    rw [hstep, ih, statics_putInstance, OrderedMap.filter_filter]
    refine OrderedMap.filter_congr fun listed _ => ?_
    rw [List.map_cons, List.contains_cons, Bool.not_or, ← Bool.or_and_distrib_left, Bool.and_comm]
    rfl

/-! ## The tables of a merge -/

/-- The methods of instances are the automatic ones whose names the user supplies no static method of, with the custom methods
inserted. -/
theorem instances_ofClassified (rules : IdentifierRules) (c : Classified) (custom : Members) :
    (ofClassified rules c custom).instances =
      ((ofAutomatic rules c).instances.filter (fun name _ => !custom.staticMethods.contains name)).insertAll
        (customEntries false custom.methods.entries) := by
  rw [ofClassified, instances_putInstances, instances_putStatics]
  rfl

/-- The methods of the type are the automatic ones with the custom static methods inserted; what is automatic gives way under
the names of custom methods. -/
theorem statics_ofClassified (rules : IdentifierRules) (c : Classified) (custom : Members) :
    (ofClassified rules c custom).statics =
      ((ofAutomatic rules c).statics.insertAll (customEntries true custom.staticMethods.entries)).filter
        (fun name d => d.isCustom || !custom.methods.contains name) := by
  rw [ofClassified, statics_putInstances, statics_putStatics]
  rfl

/-- Under a name stands among the methods of instances what the user supplies there, or else, if the user supplies no static
method of that name, the automatic method. -/
theorem get?_instances_ofClassified (rules : IdentifierRules) (c : Classified) (custom : Members) (name : String) :
    (ofClassified rules c custom).instances.get? name =
      ((custom.methods.get? name).map (.custom name false)).or
        (if custom.staticMethods.contains name then none else (ofAutomatic rules c).instances.get? name) := by
  rw [instances_ofClassified, OrderedMap.get?_insertAll, lookup_reverse_customEntries, OrderedMap.get?_filter]
  cases custom.staticMethods.contains name <;> cases (ofAutomatic rules c).instances.get? name <;> rfl

/-- Under a name stands among the methods of the type what the user supplies there, or else, if the user supplies no method of
instances of that name, the automatic method. -/
theorem get?_statics_ofClassified (rules : IdentifierRules) (c : Classified) (custom : Members) (name : String) :
    (ofClassified rules c custom).statics.get? name =
      ((custom.staticMethods.get? name).map (.custom name true)).or
        (if custom.methods.contains name then none else (ofAutomatic rules c).statics.get? name) := by
  rw [statics_ofClassified, OrderedMap.get?_filter, OrderedMap.get?_insertAll, lookup_reverse_customEntries]
  cases custom.staticMethods.get? name with
  | some m => rfl
  | none =>
    cases custom.methods.contains name with
    | false => cases (ofAutomatic rules c).statics.get? name <;> simp
    | true =>
      simpa using filter_isCustom_ofAutomatic rules c name

/-- Custom methods change nothing about the bodies that the mixins supply. -/
theorem mixinBodies_ofClassified (rules : IdentifierRules) (c : Classified) (custom : Members) :
    (ofClassified rules c custom).mixinBodies = c.mixinBodies := by
  have hstatics (entries : List (String × CustomMethod)) (t : MethodTables) :
      (t.putStatics entries).mixinBodies = t.mixinBodies := by
    induction entries generalizing t with
    | nil => rfl
    | cons entry rest ih => exact ih (t.putStatic entry.1 entry.2)
  have hinstances (entries : List (String × CustomMethod)) (t : MethodTables) :
      (t.putInstances entries).mixinBodies = t.mixinBodies := by
    induction entries generalizing t with
    | nil => rfl
    | cons entry rest ih => exact ih (t.putInstance entry.1 entry.2)
  rw [ofClassified, hinstances, hstatics]
  rfl

end TestDouble.MethodTables
