import TestDouble.MethodTables.Merge

/-!
# Who wins a name

`Classified.winner?` says which declaration of a name counts among those of the base, the mixins and the capabilities, without
a word about tables: the last one of the base, else the first one of a mixin, else the first one of a capability. The automatic
table holds the winner of every open name (`get?_automatic`), what custom members make of the two tables can be read off name
by name (`get?_instances_ofClassified`, `get?_statics_ofClassified`), and a winner is always a visible method of one of the
types (`declares_of_winner?`).
-/

namespace TestDouble

namespace SourceType

/-- The methods that others can see are those that are not private. -/
theorem mem_visibleMethods_iff (t : SourceType) (m : Method) :
    m ∈ t.visibleMethods ↔ m ∈ t.methods ∧ m.isPrivate = false := by
  rw [visibleMethods, List.mem_filter, Bool.not_eq_true']

/-- The visible method of a name that a type declares first. -/
def firstMethod? (t : SourceType) (name : String) : Option Method :=
  t.visibleMethods.find? (fun m => m.name == name)

/-- The visible method of a name that a type declares last. -/
def lastMethod? (t : SourceType) (name : String) : Option Method :=
  t.visibleMethods.reverse.find? (fun m => m.name == name)

end SourceType

namespace Classified

/-- A name is closed when the base has a visible constructor or final method of that name. -/
def Closed (c : Classified) (name : String) : Prop :=
  ∃ base, c.base = some base ∧
    ∃ m ∈ base.methods, m.isPrivate = false ∧ (m.isConstructor = true ∨ m.isFinal = true) ∧ m.name = name

/-- What the base has to offer under a name: its last visible method. -/
def baseWinner? (c : Classified) (name : String) : Option MethodDefinition :=
  c.base.bind (fun base => (base.lastMethod? name).map (fun m => .inherited m base.name))

/-- What a list of types has to offer under a name: the first visible method of the first type that has one. -/
def firstWinner? (define : Method → String → MethodDefinition) (types : List SourceType) (name : String) :
    Option MethodDefinition :=
  types.findSome? (fun t => (t.firstMethod? name).map (fun m => define m t.name))

/-- The method that wins a name: the base comes before the mixins and the mixins before the capabilities. -/
def winner? (c : Classified) (name : String) : Option MethodDefinition :=
  ((c.baseWinner? name).or (firstWinner? .mixinDefault c.mixins name)).or
    (firstWinner? .contract c.capabilities name)

/-! ## Names closed to automatic methods -/

/-- The names closed to automatic methods are those of the visible constructors and final methods of the base. -/
theorem mem_unmockable_iff (c : Classified) (name : String) : name ∈ c.unmockable.names ↔ c.Closed name := by
  rw [unmockable, NameSet.mem_names_ofList, unmockableMethods, Closed]
  cases c.base with
  | none => simp
  | some base =>
    simp only [SourceType.visibleMethods, List.mem_map, List.mem_filter, Method.isUnmockable, Bool.or_eq_true,
      Bool.not_eq_true', Option.some.injEq, exists_eq_left', and_assoc]

/-- A name is open exactly when it is not closed. -/
theorem isOpen_iff (c : Classified) (name : String) : c.isOpen name = true ↔ ¬c.Closed name := by
  rw [← mem_unmockable_iff, isOpen, NameSet.contains]
  simp

/-! ## The automatic table -/

/-- Among methods under open names a name is found only if it is open. -/
theorem find?_filter_isOpen (c : Classified) (methods : List Method) (name : String) :
    (methods.filter (fun m => c.isOpen m.name)).find? (fun m => m.name == name) =
      if c.isOpen name then methods.find? (fun m => m.name == name) else none := by
  rw [List.find?_filter]
  split
  · rename_i ho
    congr 1
    funext m
    by_cases h : m.name = name
    · simp [h, ho]
    · simp [h]
  · rename_i ho
    rw [List.find?_eq_none]
    intro m _ hm
    simp only [beq_iff_eq, decide_eq_true_eq] at hm
    exact ho (hm.2 ▸ hm.1)

/-- What a type contributes under a name: its first method of that name, if the name is open. -/
theorem lookup_contributions (c : Classified) (define : Method → String → MethodDefinition) (t : SourceType)
    (name : String) :
    (c.contributions define t).lookup name =
      if c.isOpen name then (t.firstMethod? name).map (fun m => define m t.name) else none := by
  rw [contributions, OrderedMap.lookup_map_find?, find?_filter_isOpen]
  split <;> rfl

/-- Of several contributions of one name by one type the last one is its last method of that name. -/
theorem lookup_reverse_contributions (c : Classified) (define : Method → String → MethodDefinition) (t : SourceType)
    (name : String) :
    (c.contributions define t).reverse.lookup name =
      if c.isOpen name then (t.lastMethod? name).map (fun m => define m t.name) else none := by
  rw [contributions, ← List.map_reverse, OrderedMap.lookup_map_find?, ← List.filter_reverse, find?_filter_isOpen]
  split <;> rfl

/-- What a list of types contributes under a name: what the first type that has something contributes. -/
theorem lookup_flatMap_contributions (c : Classified) (define : Method → String → MethodDefinition)
    (types : List SourceType) (name : String) :
    (types.flatMap (c.contributions define)).lookup name =
      if c.isOpen name then firstWinner? define types name else none := by
  induction types with
  | nil => simp [firstWinner?]
  | cons t rest ih =>
    have hstep : firstWinner? define (t :: rest) name =
        ((t.firstMethod? name).map (fun m => define m t.name)).or (firstWinner? define rest name) := by
      rw [firstWinner?, List.findSome?_cons]
      cases (t.firstMethod? name).map (fun m => define m t.name) <;> rfl
    rw [List.flatMap_cons, List.lookup_append, lookup_contributions, ih, hstep]
    split <;> rfl

/-- What the base contributes last under a name. -/
theorem lookup_reverse_fromBase (c : Classified) (name : String) :
    c.fromBase.reverse.lookup name = if c.isOpen name then c.baseWinner? name else none := by
  unfold fromBase baseWinner?
  cases c.base with
  | none => simp
  | some base => exact lookup_reverse_contributions c .inherited base name

/-- The automatic table holds the winner of every open name, and nothing under a closed one. -/
theorem get?_automatic (c : Classified) (name : String) :
    c.automatic.get? name = if c.isOpen name then c.winner? name else none := by
  rw [automatic, OrderedMap.get?_insertAllNew, OrderedMap.get?_insertAllNew, OrderedMap.get?_insertAll,
    OrderedMap.get?_empty, Option.or_none, lookup_reverse_fromBase, fromMixins, fromCapabilities,
    lookup_flatMap_contributions, lookup_flatMap_contributions]
  split <;> rfl

/-! ## Where a winner comes from -/

/-- The types declare a definition: it is a visible method of the base, of a mixin or of a capability. -/
inductive Declares (c : Classified) : MethodDefinition → Prop where
  | ofBase {base : SourceType} {m : Method} (hbase : c.base = some base) (hm : m ∈ base.visibleMethods) :
      Declares c (.inherited m base.name)
  | ofMixin {t : SourceType} {m : Method} (ht : t ∈ c.mixins) (hm : m ∈ t.visibleMethods) :
      Declares c (.mixinDefault m t.name)
  | ofCapability {t : SourceType} {m : Method} (ht : t ∈ c.capabilities) (hm : m ∈ t.visibleMethods) :
      Declares c (.contract m t.name)

/-- What the types declare is not supplied by the user. -/
theorem Declares.isCustom {c : Classified} {d : MethodDefinition} (h : c.Declares d) : d.isCustom = false := by
  cases h <;> rfl

/-- What a list of types has to offer is a visible method of one of them, under its name. -/
theorem exists_of_firstWinner? {define : Method → String → MethodDefinition} {types : List SourceType} {name : String}
    {d : MethodDefinition} (h : firstWinner? define types name = some d) :
    ∃ t ∈ types, ∃ m ∈ t.visibleMethods, m.name = name ∧ define m t.name = d := by
  obtain ⟨t, ht, hd⟩ := List.exists_of_findSome?_eq_some h
  obtain ⟨m, hm, he⟩ := Option.map_eq_some_iff.mp hd
  exact ⟨t, ht, m, List.mem_of_find?_eq_some hm, by simpa using List.find?_some hm, he⟩

/-- What the base has to offer is a visible method of it, under its name. -/
theorem exists_of_baseWinner? {c : Classified} {name : String} {d : MethodDefinition} (h : c.baseWinner? name = some d) :
    ∃ base, c.base = some base ∧ ∃ m ∈ base.visibleMethods, m.name = name ∧ d = .inherited m base.name := by
  obtain ⟨base, hbase, hd⟩ := Option.bind_eq_some_iff.mp h
  obtain ⟨m, hm, rfl⟩ := Option.map_eq_some_iff.mp hd
  exact ⟨base, hbase, m, List.mem_reverse.mp (List.mem_of_find?_eq_some hm), by simpa using List.find?_some hm, rfl⟩

/-- A winner is declared by a type, under its name. -/
theorem declares_of_winner? {c : Classified} {name : String} {d : MethodDefinition} (h : c.winner? name = some d) :
    c.Declares d ∧ d.name = name := by
  rw [winner?, Option.or_eq_some_iff, Option.or_eq_some_iff] at h
  rcases h with (hwinner | ⟨-, hmixin⟩) | ⟨-, hcapability⟩
  · obtain ⟨base, hbase, m, hm, hname, rfl⟩ := exists_of_baseWinner? hwinner
    exact ⟨.ofBase hbase hm, hname⟩
  · obtain ⟨t, ht, m, hm, hname, rfl⟩ := exists_of_firstWinner? hmixin
    exact ⟨.ofMixin ht hm, hname⟩
  · obtain ⟨t, ht, m, hm, hname, rfl⟩ := exists_of_firstWinner? hcapability
    exact ⟨.ofCapability ht hm, hname⟩

end Classified

end TestDouble
