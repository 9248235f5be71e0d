import TestDouble.Proofs.MethodTables.Overrides

/-!
# The order of the method tables

The automatic methods come first, in the order in which their names first appear when the base, the mixins and the capabilities
are read one after another (`Classified.automaticNames`). A custom method of such a name takes the place that the name has; the
others follow in the order in which the user supplies them. A name that gives way to the other table leaves the order of the
rest alone, and when it comes back as a custom method it comes back at the end (`tables_listed_in_order`).
-/

namespace TestDouble

namespace Classified

/-! ## Automatic names -/

/-- The names of the visible methods of the types as they come: those of the base, of the mixins and of the capabilities. -/
def visibleNames (c : Classified) : List String :=
  (c.base.toList ++ c.mixins ++ c.capabilities).flatMap (fun t => t.visibleMethods.map (·.name))

/-- The names of automatic methods, open and legal, each where it appears first. -/
def automaticNames (rules : IdentifierRules) (c : Classified) : List String :=
  c.visibleNames.eraseDups.filter (fun name => c.isOpen name && rules.allowsMethod name)

/-- The base contributes like a list of at most one type. -/
theorem fromBase_eq (c : Classified) : c.fromBase = c.base.toList.flatMap (c.contributions .inherited) := by
  unfold fromBase
  cases c.base with
  | none => rfl
  | some base => exact (List.append_nil _).symm

/-- Types contribute under the open ones among the names of their visible methods, in order. -/
theorem names_contributions (c : Classified) (define : Method → String → MethodDefinition) (types : List SourceType) :
    (types.flatMap (c.contributions define)).map Prod.fst =
      (types.flatMap (fun t => t.visibleMethods.map (·.name))).filter c.isOpen := by
  induction types with
  | nil => rfl
  | cons t rest ih =>
    have hfirst : (c.contributions define t).map Prod.fst = (t.visibleMethods.map (·.name)).filter c.isOpen := by
      rw [contributions, List.map_map, List.filter_map]
      rfl
    rw [List.flatMap_cons, List.flatMap_cons, List.map_append, List.filter_append, hfirst, ih]

/-- The names of the automatic table are the open ones, each where it appears first. -/
theorem names_automatic (c : Classified) : c.automatic.names = c.visibleNames.eraseDups.filter c.isOpen := by
  have hinserted : c.automatic.names =
      (OrderedMap.ofList (c.fromBase ++ c.fromMixins ++ c.fromCapabilities)).names := by
    rw [automatic, OrderedMap.names_insertAllNew,
      OrderedMap.names_insertAll_congr (OrderedMap.names_insertAllNew _ c.fromMixins)]
    simp only [OrderedMap.ofList, OrderedMap.insertAll, List.foldl_append]
  rw [hinserted, OrderedMap.names_ofList, fromBase_eq, fromMixins, fromCapabilities, List.map_append, List.map_append,
    names_contributions, names_contributions, names_contributions, ← List.filter_append, ← List.filter_append,
    ← List.flatMap_append, ← List.flatMap_append, eraseDups_filter, visibleNames]

end Classified

open Classified

namespace MethodTables

/-- The automatic methods that may be declared stand in the order of their names. -/
theorem names_declarable (rules : IdentifierRules) (c : Classified) :
    (declarable rules c).names = c.automaticNames rules := by
  rw [declarable, OrderedMap.names_filter_name, names_automatic, List.filter_filter, automaticNames]
  exact List.filter_congr fun name _ => Bool.and_comm _ _

/-- A name is automatic exactly when it is open and legal and has a winner. -/
theorem mem_automaticNames_iff (rules : IdentifierRules) (c : Classified) (name : String) :
    name ∈ c.automaticNames rules ↔
      ¬c.Closed name ∧ rules.allowsMethod name = true ∧ (c.winner? name).isSome = true := by
  rw [← names_declarable, OrderedMap.mem_names_iff, get?_declarable, ← isOpen_iff]
  cases c.isOpen name <;> cases rules.allowsMethod name <;> simp

/-- Under an automatic name stands its winner. -/
theorem get?_declarable_of_mem {rules : IdentifierRules} {c : Classified} {name : String}
    (h : name ∈ c.automaticNames rules) : (declarable rules c).get? name = c.winner? name := by
  obtain ⟨hopen, hlegal, -⟩ := (mem_automaticNames_iff rules c name).mp h
  rw [get?_declarable, (c.isOpen_iff name).mpr hopen, hlegal]
  rfl

/-- A part of the automatic methods stands in the order of their names. -/
theorem names_filter_declarable (rules : IdentifierRules) (c : Classified) (keep : MethodDefinition → Bool) :
    ((declarable rules c).filter (fun _ d => keep d)).names =
      (c.automaticNames rules).filter (fun name => (c.winner? name).any keep) := by
  rw [OrderedMap.names_filter, names_declarable]
  exact List.filter_congr fun name hname => by rw [get?_declarable_of_mem hname]

/-! ## Names that are kept -/

/-- The automatic names that stay among the methods of instances: the winner is one, and the user supplies no static method. -/
def keptInstances (rules : IdentifierRules) (c : Classified) (custom : Members) : List String :=
  (c.automaticNames rules).filter
    (fun name => (c.winner? name).any (fun d => !d.isStatic) && !custom.staticMethods.contains name)

/-- The automatic names that stay among the methods of the type: the winner is one, and the user supplies a static method too
or no method at all. -/
def keptStatics (rules : IdentifierRules) (c : Classified) (custom : Members) : List String :=
  (c.automaticNames rules).filter
    (fun name => (c.winner? name).any (fun d => d.isStatic) &&
      (custom.staticMethods.contains name || !custom.methods.contains name))

/-- A table lists kept names and custom methods: the kept names first and then the other names of the custom methods, each in
their order. In the place of a kept name stands its custom method, if there is one, and else its winner. -/
structure Lists (c : Classified) (kept : List String) (custom : OrderedMap CustomMethod) (isStatic : Bool)
    (table : OrderedMap MethodDefinition) : Prop where
  names : table.names = kept ++ custom.names.filter (fun name => !kept.contains name)
  replaced : ∀ (i : Nat) name m, kept[i]? = some name → custom.get? name = some m →
    table.entries[i]? = some (name, MethodDefinition.custom name isStatic m)
  untouched : ∀ (i : Nat) name d, kept[i]? = some name → custom.get? name = none → c.winner? name = some d →
    table.entries[i]? = some (name, d)

/-- A table whose names are listed so has its entries in place as soon as each kept name has its custom method or winner. -/
theorem lists_of_get? {c : Classified} {kept : List String} {custom : OrderedMap CustomMethod} {isStatic : Bool}
    {table : OrderedMap MethodDefinition}
    (hnames : table.names = kept ++ custom.names.filter (fun name => !kept.contains name))
    (hget : ∀ name ∈ kept, table.get? name = ((custom.get? name).map (.custom name isStatic)).or (c.winner? name)) :
    Lists c kept custom isStatic table := by
  have hplace : ∀ (i : Nat) name, kept[i]? = some name → table.names[i]? = some name := by
    intro i name hname
    obtain ⟨hi, -⟩ := List.getElem?_eq_some_iff.mp hname
    rw [hnames, List.getElem?_append_left hi, hname]
  refine ⟨hnames, fun i name m hname hm => ?_, fun i name d hname hnone hd => ?_⟩
  · refine OrderedMap.getElem?_entries (hplace i name hname) ?_
    rw [hget name (List.mem_of_getElem? hname), hm]
    rfl
  · refine OrderedMap.getElem?_entries (hplace i name hname) ?_
    rw [hget name (List.mem_of_getElem? hname), hnone, hd]
    rfl

/-- The new names that a run of custom methods adds are the other names of the custom methods, in their order. -/
theorem names_insertAll_customEntries (table : OrderedMap MethodDefinition) (isStatic : Bool)
    (custom : OrderedMap CustomMethod) :
    (table.insertAll (customEntries isStatic custom.entries)).names =
      table.names ++ custom.names.filter (fun name => !table.names.contains name) := by
  rw [OrderedMap.names_insertAll, names_customEntries]
  exact congrArg (table.names ++ ·) (eraseDups_of_nodup (custom.distinct.filter _))

/-! ## The methods of instances -/

/-- The names of the methods of instances. -/
theorem names_instances_ofClassified (rules : IdentifierRules) (c : Classified) (custom : Members) :
    (ofClassified rules c custom).instances.names =
      keptInstances rules c custom ++
        custom.methods.names.filter (fun name => !(keptInstances rules c custom).contains name) := by
  have hkept : ((ofAutomatic rules c).instances.filter (fun name _ => !custom.staticMethods.contains name)).names =
      keptInstances rules c custom := by
    rw [OrderedMap.names_filter_name, ofAutomatic, names_filter_declarable, List.filter_filter, keptInstances]
    exact List.filter_congr fun name _ => Bool.and_comm _ _
  rw [instances_ofClassified, names_insertAll_customEntries, hkept]

/-- Under a kept name stands among the methods of instances the custom method or else the winner. -/
theorem get?_instances_of_kept {rules : IdentifierRules} {c : Classified} {custom : Members} {name : String}
    (h : name ∈ keptInstances rules c custom) :
    (ofClassified rules c custom).instances.get? name =
      ((custom.methods.get? name).map (.custom name false)).or (c.winner? name) := by
  rw [keptInstances, List.mem_filter, Bool.and_eq_true, Bool.not_eq_true'] at h
  obtain ⟨hname, hwinner, hstatic⟩ := h
  obtain ⟨d, hd, hinstance⟩ := (Option.any_eq_true _ _).mp hwinner
  rw [get?_instances_ofClassified, hstatic, get?_instances_ofAutomatic, get?_declarable_of_mem hname, hd,
    Option.filter_some, if_pos hinstance]
  rfl

/-! ## The methods of the type -/

/-- The custom static methods, inserted among the automatic methods of the type. -/
def withStatics (rules : IdentifierRules) (c : Classified) (custom : Members) : OrderedMap MethodDefinition :=
  (ofAutomatic rules c).statics.insertAll (customEntries true custom.staticMethods.entries)

/-- What stands under a name once the custom static methods are inserted passes exactly where a static method is supplied or no
method is. -/
theorem any_get?_withStatics {rules : IdentifierRules} {c : Classified} {custom : Members} {name : String}
    (h : name ∈ (withStatics rules c custom).names) :
    ((withStatics rules c custom).get? name).any (fun d => d.isCustom || !custom.methods.contains name) =
      (custom.staticMethods.contains name || !custom.methods.contains name) := by
  rw [OrderedMap.mem_names_iff] at h
  have hget : (withStatics rules c custom).get? name =
      ((custom.staticMethods.get? name).map (.custom name true)).or ((ofAutomatic rules c).statics.get? name) := by
    rw [withStatics, OrderedMap.get?_insertAll, lookup_reverse_customEntries]
  rw [hget] at h ⊢
  rw [OrderedMap.contains_eq_isSome custom.staticMethods]
  cases hcustom : custom.staticMethods.get? name with
  | some m => rfl
  | none =>
    rw [hcustom] at h
    obtain ⟨d, hd⟩ := Option.isSome_iff_exists.mp h
    have hautomatic : (ofAutomatic rules c).statics.get? name = some d := hd
    have hnone := filter_isCustom_ofAutomatic rules c name
    rw [hautomatic, Option.filter_eq_none_iff] at hnone
    rw [hautomatic, Option.map_none, Option.none_or, Option.any_some, Bool.not_eq_true _ |>.mp (hnone d rfl)]
    rfl

/-- The kept names are those of automatic methods of the type that the user supplies a static method of, or no method. -/
theorem keptStatics_eq (rules : IdentifierRules) (c : Classified) (custom : Members) :
    keptStatics rules c custom = (ofAutomatic rules c).statics.names.filter
      (fun name => custom.staticMethods.contains name || !custom.methods.contains name) := by
  have hautomatic : (ofAutomatic rules c).statics.names =
      (c.automaticNames rules).filter (fun name => (c.winner? name).any (fun d => d.isStatic)) :=
    names_filter_declarable rules c (fun d => d.isStatic)
  rw [hautomatic, List.filter_filter, keptStatics]
  exact List.filter_congr fun name _ => Bool.and_comm _ _

/-- No name of a custom static method is dropped: it is kept as soon as it is that of an automatic method of the type. -/
theorem contains_keptStatics {custom : Members} {name : String} (rules : IdentifierRules) (c : Classified)
    (h : custom.staticMethods.contains name = true) :
    (keptStatics rules c custom).contains name = (ofAutomatic rules c).statics.names.contains name := by
  rw [keptStatics_eq, Bool.eq_iff_iff, List.contains_iff_mem, List.contains_iff_mem, List.mem_filter, h, Bool.true_or]
  exact and_iff_left rfl

/-- The names of the methods of the type. -/
theorem names_statics_ofClassified (rules : IdentifierRules) (c : Classified) (custom : Members) :
    (ofClassified rules c custom).statics.names =
      keptStatics rules c custom ++
        custom.staticMethods.names.filter (fun name => !(keptStatics rules c custom).contains name) := by
  have hstep : (ofClassified rules c custom).statics =
      (withStatics rules c custom).filter (fun name d => d.isCustom || !custom.methods.contains name) :=
    statics_ofClassified rules c custom
  have hinserted : (withStatics rules c custom).names = (ofAutomatic rules c).statics.names ++
      custom.staticMethods.names.filter (fun name => !(ofAutomatic rules c).statics.names.contains name) :=
    names_insertAll_customEntries _ true custom.staticMethods
  rw [hstep, OrderedMap.names_filter, List.filter_congr fun name => any_get?_withStatics, hinserted, List.filter_append,
    ← keptStatics_eq, List.filter_filter]
  refine congrArg (keptStatics rules c custom ++ ·) (List.filter_congr fun name hname => ?_)
  have hsupplied : custom.staticMethods.contains name = true := List.contains_iff_mem.mpr hname
  rw [contains_keptStatics rules c hsupplied, hsupplied, Bool.true_or, Bool.true_and]

/-- Under a kept name stands among the methods of the type the custom static method or else the winner. -/
theorem get?_statics_of_kept {rules : IdentifierRules} {c : Classified} {custom : Members} {name : String}
    (h : name ∈ keptStatics rules c custom) :
    (ofClassified rules c custom).statics.get? name =
      ((custom.staticMethods.get? name).map (.custom name true)).or (c.winner? name) := by
  rw [keptStatics, List.mem_filter, Bool.and_eq_true, Bool.or_eq_true, Bool.not_eq_true'] at h
  obtain ⟨hname, hwinner, hcustom⟩ := h
  obtain ⟨d, hd, hstatic⟩ := (Option.any_eq_true _ _).mp hwinner
  rw [get?_statics_ofClassified]
  rcases hcustom with hreplaced | hmethod
  · rw [OrderedMap.contains_eq_isSome] at hreplaced
    obtain ⟨m, hm⟩ := Option.isSome_iff_exists.mp hreplaced
    rw [hm]
    rfl
  · rw [hmethod, get?_statics_ofAutomatic, get?_declarable_of_mem hname, hd, Option.filter_some, if_pos hstatic]
    rfl

end MethodTables

open MethodTables

/-- Exact order of the method tables. The automatic names are those that are open and legal and have a winner, each where it
appears first when the visible methods of the base, of the mixins and of the capabilities are read one after another. The
methods of instances list, in this order, those with a winner of instances that the user supplies no static method of, and
behind them the other names of custom methods in the order of these. The methods of the type list, in this order, those with a
static winner that the user supplies a static method of too, or no method at all, and behind them the other names of custom
static methods in the order of these. A custom method of a kept name takes over its place; every other kept name has its
winner. -/
theorem tables_listed_in_order (rules : IdentifierRules) (c : Classified) (custom : Members) :
    let tables := (Merged.ofClassified rules c custom).tables
    (∀ name, name ∈ c.automaticNames rules ↔
        ¬c.Closed name ∧ rules.allowsMethod name = true ∧ (c.winner? name).isSome = true) ∧
      Lists c (keptInstances rules c custom) custom.methods false tables.instances ∧
      Lists c (keptStatics rules c custom) custom.staticMethods true tables.statics :=
  ⟨mem_automaticNames_iff rules c,
    lists_of_get? (names_instances_ofClassified rules c custom) fun _ => get?_instances_of_kept,
    lists_of_get? (names_statics_ofClassified rules c custom) fun _ => get?_statics_of_kept⟩

namespace OrderExample

/-- A base, a mixin and a capability, each with a method of instances and a static one. -/
def types : Classified where
  base := some
    { name := "Animal", kind := .extensible,
      methods := [{ name := "speak" }, { name := "create", isStatic := true }, { name := "run" }] }
  capabilities :=
    [{ name := "Jumping", kind := .capability, methods := [{ name := "jump" }, { name := "build", isStatic := true }] }]
  mixins :=
    [{ name := "Loud", kind := .mixin, methods := [{ name := "make", isStatic := true }, { name := "speak" }] }]

/-- Custom methods in the place of an automatic one and over one of the other table, and a name of no type; custom static
methods likewise. -/
def custom : Members where
  methods := OrderedMap.ofList [("other", {}), ("run", CustomMethod.named "f"), ("create", {})]
  staticMethods := OrderedMap.ofList [("extra", {}), ("build", {}), ("jump", {})]

end OrderExample

open OrderExample in
/-- A custom method in the place of an automatic one, and two names that move from one table to the end of the other. -/
theorem tables_listed_run_in_place :
    let tables := (Merged.ofClassified {} types custom).tables
    tables.instances.names = ["speak", "run", "other", "create"] ∧
      tables.statics.names = ["make", "build", "extra", "jump"] ∧
      tables.instances.entries[1]? = some ("run", .custom "run" false (CustomMethod.named "f")) ∧
      tables.statics.entries[0]? = some ("make", .mixinDefault { name := "make", isStatic := true } "Loud") := by
  obtain ⟨-, hinstances, hstatics⟩ := tables_listed_in_order {} types custom
  exact ⟨hinstances.names.trans (by decide +kernel), hstatics.names.trans (by decide +kernel),
    hinstances.replaced 1 "run" _ (by decide +kernel) (by decide),
    hstatics.untouched 0 "make" _ (by decide +kernel) (by decide) (by decide)⟩

end TestDouble
