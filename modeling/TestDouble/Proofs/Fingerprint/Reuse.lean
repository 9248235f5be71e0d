import TestDouble.Proofs.Fingerprint.Parts
import TestDouble.Proofs.MethodTables.Overrides
import TestDouble.Resolution

/-!
# Equal fingerprints make reuse safe

A fingerprint keeps of each type only its name, of a data value only its canonical text, and of a path only what is shown of it.
Where a name stands for one descriptor and the paths of closures are texts this is enough: requests with the same fingerprint
have the same outcome (`sameOutcome_of_fingerprint_eq`). They are refused for the same reason, or resolved alike, whatever the
rules for names are.
-/

namespace TestDouble

/-! ## Outcomes that are the same -/

/-- Two sets of members have the same methods under the same names. -/
structure Members.SameMethods (a b : Members) : Prop where
  methods : ∀ name, a.methods.get? name = b.methods.get? name
  staticMethods : ∀ name, a.staticMethods.get? name = b.staticMethods.get? name

/-- Two sets of members are alike: the same methods under the same names, and the same data under the same names. -/
structure Members.Alike (a b : Members) : Prop extends a.SameMethods b where
  properties : ∀ name, Option.Rel (fun x y => x.same y = true) (a.properties.get? name) (b.properties.get? name)
  staticProperties : ∀ name,
    Option.Rel (fun x y => x.same y = true) (a.staticProperties.get? name) (b.staticProperties.get? name)
  constants : ∀ name, Option.Rel (fun x y => x.same y = true) (a.constants.get? name) (b.constants.get? name)

/-- Two resolutions are alike: they agree in everything but the order in which tables list their entries. They have the same
definition under each name in both tables, the same mixin bodies in the same order, the same closed names, the same names of the
base, the capabilities and the mixins, members that are alike, the same name and the same fingerprint. -/
structure Resolution.Alike (a b : Resolution) : Prop where
  instances : ∀ name, a.tables.instances.get? name = b.tables.instances.get? name
  statics : ∀ name, a.tables.statics.get? name = b.tables.statics.get? name
  mixinBodies : a.tables.mixinBodies = b.tables.mixinBodies
  unmockable : a.unmockable = b.unmockable
  base : a.base = b.base
  capabilities : a.capabilities = b.capabilities
  mixins : a.mixins = b.mixins
  members : a.members.Alike b.members
  typeName : a.typeName = b.typeName
  fingerprint : a.fingerprint = b.fingerprint

/-- Two outcomes are the same: the same refusal, or resolutions that are alike. -/
def SameOutcome : Except Refusal Resolution → Except Refusal Resolution → Prop
  | .error refusal, .error refusal' => refusal = refusal'
  | .ok resolution, .ok resolution' => resolution.Alike resolution'
  | _, _ => False

/-! ## What follows from the parts that a fingerprint keeps -/

/-- Types with the same names are the same types where a name stands for one descriptor. -/
theorem types_eq_of_names_eq {types types' : List SourceType}
    (hdescriptors : ∀ t ∈ types, ∀ t' ∈ types', t.name = t'.name → t = t')
    (hnames : types.map (·.name) = types'.map (·.name)) : types = types' := by
  induction types generalizing types' with
  | nil => exact (List.map_eq_nil_iff.mp hnames.symm).symm
  | cons t rest ih =>
    cases types' with
    | nil => cases hnames
    | cons t' rest' =>
      obtain ⟨hname, hrest⟩ := List.cons.inj hnames
      have hfirst : t = t' := hdescriptors t List.mem_cons_self t' List.mem_cons_self hname
      have hothers : rest = rest' := by
        refine ih (fun u hu u' hu' => ?_) hrest
        exact hdescriptors u (List.mem_cons_of_mem t hu) u' (List.mem_cons_of_mem t' hu')
      rw [hfirst, hothers]

/-- The paths of all files in which closures among the methods were declared are texts. -/
def Members.Writable (m : Members) : Prop :=
  (∀ entry ∈ m.methods.entries, entry.2.isWritable = true) ∧ ∀ entry ∈ m.staticMethods.entries, entry.2.isWritable = true

/-- Methods of which the same is shown, without a loss, are the same methods. -/
theorem get?_eq_of_map_shown_eq {m m' : OrderedMap CustomMethod} (hm : ∀ entry ∈ m.entries, entry.2.isWritable = true)
    (hm' : ∀ entry ∈ m'.entries, entry.2.isWritable = true) {name : String}
    (h : (m.get? name).map CustomMethod.shown = (m'.get? name).map CustomMethod.shown) : m.get? name = m'.get? name := by
  have hback (table : OrderedMap CustomMethod) (htable : ∀ entry ∈ table.entries, entry.2.isWritable = true) :
      ((table.get? name).map CustomMethod.shown).map CustomMethod.ofText = table.get? name := by
    cases hmethod : table.get? name with
    | none => rfl
    | some method =>
      have hmem : (name, method) ∈ table.entries := (table.mem_entries_iff name method).mpr hmethod
      rw [Option.map_some, Option.map_some, CustomMethod.ofText_shown (htable _ hmem)]
  rw [← hback m hm, h, hback m' hm']

/-- Requests that have in common what a fingerprint keeps have the same methods where the paths of closures are texts. -/
theorem Request.SameParts.sameMethods {r r' : Request} (h : r.SameParts r') (hr : r.members.Writable)
    (hr' : r'.members.Writable) : r.members.SameMethods r'.members where
  methods name := get?_eq_of_map_shown_eq hr.1 hr'.1 (h.methods name)
  staticMethods name := get?_eq_of_map_shown_eq hr.2 hr'.2 (h.staticMethods name)

/-- Data with the same sorted form, or absent alike, is the same data. -/
theorem same_of_map_sorted_eq {a b : Option Json} (h : a.map Json.sorted = b.map Json.sorted) :
    Option.Rel (fun x y => x.same y = true) a b := by
  cases a with
  | none =>
    cases b with
    | none => exact Option.Rel.none
    | some y => cases h
  | some x =>
    cases b with
    | none => cases h
    | some y => exact Option.Rel.some (Json.same_of_sorted_eq (Option.some.inj h))

/-- Requests that have in common what a fingerprint keeps, and their methods, have the same members. -/
theorem Request.SameParts.members_alike {r r' : Request} (h : r.SameParts r') (hm : r.members.SameMethods r'.members) :
    r.members.Alike r'.members where
  toSameMethods := hm
  properties name := same_of_map_sorted_eq (h.properties name)
  staticProperties name := same_of_map_sorted_eq (h.staticProperties name)
  constants name := same_of_map_sorted_eq (h.constants name)

/-- The tables of a merge depend on the custom methods only through what stands under each name. -/
theorem MethodTables.get?_ofClassified_congr {custom custom' : Members} (h : custom.SameMethods custom')
    (rules : IdentifierRules) (c : Classified) (name : String) :
    (ofClassified rules c custom).instances.get? name = (ofClassified rules c custom').instances.get? name ∧
      (ofClassified rules c custom).statics.get? name = (ofClassified rules c custom').statics.get? name := by
  simp only [get?_instances_ofClassified, get?_statics_ofClassified, OrderedMap.contains_eq_isSome, h.methods,
    h.staticMethods, and_self]

/-- Requests that have in common what a fingerprint keeps, and their methods, are resolved alike once their types are placed
alike. -/
theorem Request.SameParts.ofClassified_alike {r r' : Request} (h : r.SameParts r')
    (hm : r.members.SameMethods r'.members) (rules : IdentifierRules) (c : Classified) :
    (Resolution.ofClassified rules c r).Alike (Resolution.ofClassified rules c r') where
  instances name := (MethodTables.get?_ofClassified_congr hm rules c name).1
  statics name := (MethodTables.get?_ofClassified_congr hm rules c name).2
  mixinBodies := by
    have hbodies (q : Request) : (Resolution.ofClassified rules c q).tables.mixinBodies = c.mixinBodies :=
      MethodTables.mixinBodies_ofClassified rules c q.members
    rw [hbodies, hbodies]
  unmockable := rfl
  base := rfl
  capabilities := rfl
  mixins := rfl
  members := h.members_alike hm
  typeName := h.typeName
  fingerprint := (Fingerprint.ofRequest_eq_iff r r').mpr h

namespace ReuseExample

/-- A base and a mixin that both declare one name. -/
def types : List SourceType :=
  [{ name := "Animal", kind := .extensible, methods := [{ name := "speak" }] },
    { name := "Loud", kind := .mixin, methods := [{ name := "speak" }, { name := "shout" }] }]

/-- A custom method that calls a closure. -/
def running : CustomMethod := CustomMethod.closure ⟨.ofText "src/run.rs", 3, 5⟩

/-- A request with two custom methods, and with data that holds an object. -/
def first : Request :=
  Request.ofTypes types
    { methods := OrderedMap.ofList [("run", running), ("stop", {})]
      constants := OrderedMap.ofList
        [("SIZE", .object [("low", .number (.integer 1)), ("high", .number (.integer 2))])] }
    (some "Dog")

/-- The same request with methods and the members of the object listed in another order. -/
def second : Request :=
  Request.ofTypes types
    { methods := OrderedMap.ofList [("stop", {}), ("run", running)]
      constants := OrderedMap.ofList
        [("SIZE", .object [("high", .number (.integer 2)), ("low", .number (.integer 1))])] }
    (some "Dog")

end ReuseExample

/-! ## Reuse -/

/-- Reuse safety of fingerprints. Take any rules for names and two requests such that the paths of closures are texts and a type
name that occurs in both stands for one descriptor. If the requests have the same fingerprint, their outcomes are the same: the
same refusal, or resolutions with the same definition under each name in both tables, the same mixin bodies in the same order,
the same closed names, the same base, capabilities and mixins, the same members and the same name. -/
theorem sameOutcome_of_fingerprint_eq (rules : IdentifierRules) (r r' : Request) (hr : r.members.Writable)
    (hr' : r'.members.Writable) (hdescriptors : ∀ t ∈ r.types, ∀ t' ∈ r'.types, t.name = t'.name → t = t')
    (hfingerprint : Fingerprint.ofRequest r = Fingerprint.ofRequest r') :
    SameOutcome (Resolution.ofRequest rules r) (Resolution.ofRequest rules r') := by
  have hparts : r.SameParts r' := (Fingerprint.ofRequest_eq_iff r r').mp hfingerprint
  have htypes : r.types = r'.types := types_eq_of_names_eq hdescriptors hparts.typeNames
  rw [Resolution.ofRequest, Resolution.ofRequest, ← htypes]
  cases Classified.ofTypes r.types with
  | error refusal => exact rfl
  | ok c => exact hparts.ofClassified_alike (hparts.sameMethods hr hr') rules c

/-- Two requests that list the same members in different orders have the same outcome. -/
theorem sameOutcome_first_second :
    ReuseExample.first.members.Writable ∧ ReuseExample.second.members.Writable ∧
      Fingerprint.ofRequest ReuseExample.first = Fingerprint.ofRequest ReuseExample.second ∧
      SameOutcome (Resolution.ofRequest {} ReuseExample.first) (Resolution.ofRequest {} ReuseExample.second) := by
  have hfingerprint : Fingerprint.ofRequest ReuseExample.first = Fingerprint.ofRequest ReuseExample.second := by
    decide +kernel
  have hfirst : ReuseExample.first.members.Writable := by
    rw [Members.Writable]
    decide +kernel
  have hsecond : ReuseExample.second.members.Writable := by
    rw [Members.Writable]
    decide +kernel
  exact ⟨hfirst, hsecond, hfingerprint, sameOutcome_of_fingerprint_eq {} _ _ hfirst hsecond (by decide +kernel) hfingerprint⟩

end TestDouble
