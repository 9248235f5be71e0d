import TestDouble.Proofs.OrderedMap.Insertions
import TestDouble.Registry

/-!
# Types under their own names

A registry keeps each type under its name as it stands, while a reference loses one separator in front before it is looked up.
So a reference means the type that was registered last under what is left of it (`Registry.get?_ofList`), and a registered name
means its own type exactly when it does not start with a separator (`found_under_own_name_iff`).
-/

namespace TestDouble

namespace Registry

/-! ## Registrations -/

/-- A registry has come about by registering types, in this order: it started empty, with a list of types or with those that a
JSON text lists, and types were registered one by one. -/
inductive Registered : List SourceType → Registry → Prop where
  | empty : Registered [] Registry.empty
  | ofList (types : List SourceType) : Registered types (Registry.ofList types)
  | ofText {text : String} {types : List SourceType} {r : Registry} (htypes : typesOfText? text = some types)
    (hread : ofText? text = some r) : Registered types r
  | register {types : List SourceType} {r : Registry} (h : Registered types r) (t : SourceType) :
    Registered (types ++ [t]) (r.register t)

/-- However types are registered, the registry is that of their list. -/
theorem Registered.eq_ofList {types : List SourceType} {r : Registry} (h : Registered types r) :
    r = Registry.ofList types := by
  induction h with
  | empty => rfl
  | ofList types => rfl
  | ofText htypes hread =>
    rw [ofText?, htypes] at hread
    exact (Option.some.inj hread).symm
  | register _ t ih => rw [ih, Registry.ofList, Registry.ofList, List.foldl_append]; rfl

/-- The type that was registered last under a name. -/
def lastNamed? (types : List SourceType) (name : String) : Option SourceType :=
  types.reverse.find? (fun t => t.name == name)

/-- The type that was registered last under a name has that name. -/
theorem name_of_lastNamed? {types : List SourceType} {name : String} {t : SourceType} (h : lastNamed? types name = some t) :
    t.name = name := by
  simpa using List.find?_some h

/-- Some type was registered last under a name exactly when one was registered under it. -/
theorem isSome_lastNamed?_iff (types : List SourceType) (name : String) :
    (lastNamed? types name).isSome = true ↔ name ∈ types.map (·.name) := by
  simp [lastNamed?, List.find?_isSome, List.mem_map]

/-! ## What the registry of a list holds -/

/-- The registry of a list holds each type under its name, as inserted one after another. -/
theorem types_ofList (types : List SourceType) :
    (ofList types).types = OrderedMap.ofList (types.map (fun t => (t.name, t))) := by
  have hrun : ∀ r : Registry, (types.foldl register r).types = r.types.insertAll (types.map (fun t => (t.name, t))) := by
    induction types with
    | nil => exact fun r => rfl
    | cons t rest ih => exact fun r => ih (r.register t)
  exact hrun empty

/-- A reference means the type that was registered last under the reference without one separator in front. -/
theorem get?_ofList (types : List SourceType) (reference : String) :
    (ofList types).get? reference = lastNamed? types (TypeName.unrooted reference) := by
  rw [get?, types_ofList, OrderedMap.get?_ofList, ← List.map_reverse, OrderedMap.lookup_map_find?, Option.map_id']
  rfl

/-- There are as many types as there are names. -/
theorem size_ofList (types : List SourceType) : (ofList types).size = (types.map (·.name)).eraseDups.length := by
  rw [size, ← OrderedMap.length_names, types_ofList, OrderedMap.names_ofList, List.map_map]
  rfl

/-- One reference alone is resolved to the type that it means. -/
theorem resolve_singleton (r : Registry) (reference : String) :
    r.resolve [reference] = (r.find reference).map (fun t => [t]) := by
  rw [resolve, List.mapM_cons]
  cases r.find reference <;> rfl

end Registry

open Registry

/-- What is registered is found under its own name exactly when the name does not start with a separator. Take any registry that
has come about by registrations, and the name of a type that was registered. Some type was registered last under that name. The
name means this type, and alone is resolved to it, exactly when it starts with no separator; a reference of any kind means the
type that was registered last under the reference without one separator in front, and is contained exactly when there is one. In
any case there are as many types as different names were registered. -/
theorem found_under_own_name_iff (registered : List SourceType) (r : Registry) (h : Registered registered r)
    (name : String) (hname : name ∈ registered.map (·.name)) :
    ∃ last, lastNamed? registered name = some last ∧ last.name = name ∧
      (r.get? name = some last ↔ TypeName.isRooted name = false) ∧
      (r.resolve [name] = .ok [last] ↔ TypeName.isRooted name = false) ∧
      (∀ reference, r.get? reference = lastNamed? registered (TypeName.unrooted reference)) ∧
      (∀ reference, r.contains reference = true ↔ TypeName.unrooted reference ∈ registered.map (·.name)) ∧
      r.size = (registered.map (·.name)).eraseDups.length := by
  obtain ⟨last, hlast⟩ := Option.isSome_iff_exists.mp ((isSome_lastNamed?_iff registered name).mpr hname)
  have hlastName : last.name = name := name_of_lastNamed? hlast
  rw [h.eq_ofList]
  have hfound : (ofList registered).get? name = some last ↔ TypeName.isRooted name = false := by
    rw [get?_ofList, ← TypeName.unrooted_eq_self_iff]
    constructor
    · intro hother
      rw [← name_of_lastNamed? hother, hlastName]
    · intro hself
      rw [hself, hlast]
  refine ⟨last, hlast, hlastName, hfound, ?_, get?_ofList registered, fun reference => ?_, size_ofList registered⟩
  · rw [← hfound, resolve_singleton, find]
    cases (ofList registered).get? name with
    | none => simp [Except.map]
    | some t => simp [Except.map]
  · rw [contains, OrderedMap.contains_eq_isSome, ← isSome_lastNamed?_iff, ← get?_ofList, get?]

namespace OwnNameExample

/-- A list of two types as JSON text; the first one leaves out what has a default. -/
def text : String :=
  "[\x7b\"name\":\"Animal\",\"kind\":\"mixin\"\x7d,\x7b\"name\":\"Zoo\",\"kind\":\"capability\",\"methods\":[]\x7d]"

/-- A class under the name of the first type. -/
def animal : SourceType := { name := "Animal", kind := .extensible, methods := [{ name := "speak" }] }

/-- A mixin whose name starts with a separator. -/
def rooted : SourceType := { name := "\\Animal", kind := .mixin }

/-- What the text lists. -/
def listed : List SourceType := [{ name := "Animal", kind := .mixin }, { name := "Zoo", kind := .capability }]

/-- The registry of the text with two more types. -/
def registry : Registry := ((ofList listed).register rooted).register animal

/-- The registry has come about by registering four types. -/
theorem registered_registry : Registered (listed ++ [rooted] ++ [animal]) registry := by
  have hlisted : typesOfText? text = some listed := by decide +kernel
  have hread : ofText? text = some (ofList listed) := by rw [ofText?, hlisted, Option.map_some]
  exact ((Registered.ofText hlisted hread).register rooted).register animal

end OwnNameExample

open OwnNameExample in
/-- Of the types in the example the class that came last is found under the name it shares with the first one, and under the
name of the mixin whose name starts with a separator too. -/
theorem found_under_own_name_animal :
    Registered (listed ++ [rooted] ++ [animal]) registry ∧ registry.get? "Animal" = some animal ∧
      registry.resolve ["Animal"] = .ok [animal] ∧ registry.get? "\\Animal" = some animal ∧ registry.size = 3 := by
  obtain ⟨last, hlast, -, hfound, hresolved, hget, -, hsize⟩ :=
    found_under_own_name_iff _ registry registered_registry "Animal" (by decide)
  have hanimal : last = animal := (Option.some.inj hlast).symm
  rw [hanimal] at hfound hresolved
  exact ⟨registered_registry, hfound.mpr (by decide), hresolved.mpr (by decide), hget "\\Animal", hsize⟩

/-- A type whose name starts with a separator is not found under its own name. -/
theorem not_found_under_rooted_name :
    let r := ofList [OwnNameExample.rooted]
    r.get? "\\Animal" = none ∧ r.contains "\\Animal" = false ∧
      r.resolve ["\\Animal"] = .error (.unknownType "\\Animal") ∧ r.size = 1 :=
  ⟨rfl, rfl, rfl, rfl⟩

end TestDouble
