import TestDouble.Fingerprint.Digest
import TestDouble.Proofs.Fingerprint.Reuse
import TestDouble.Proofs.Json.Reordered

/-!
# The order in which custom members are listed

The custom members of a request may be listed in any order, and so may the members of objects in their data. Neither the
fingerprint nor what becomes of the request tells one listing from another (`relisted_members_invisible`): the tables of a merge
depend on the custom methods only through what stands under each name, though these are put on top one after another.
-/

namespace TestDouble

/-- One table of data is another, with the data of each entry reordered inside and the entries then listed in another order. -/
def OrderedMap.Relisted (m m' : OrderedMap Json) : Prop :=
  ∃ between, Json.ReorderedMembers m.entries between ∧ between.Perm m'.entries

/-- Two sets of members are the same but for the order in which they are listed: that of the entries of each table, and that of
the members of objects in the data. -/
structure Members.Relisted (m m' : Members) : Prop where
  methods : m.methods.entries.Perm m'.methods.entries
  staticMethods : m.staticMethods.entries.Perm m'.staticMethods.entries
  properties : m.properties.Relisted m'.properties
  staticProperties : m.staticProperties.Relisted m'.staticProperties
  constants : m.constants.Relisted m'.constants

/-- Data that is listed in another order has the same sorted form under each name. -/
theorem OrderedMap.Relisted.map_sorted_get? {m m' : OrderedMap Json} (h : m.Relisted m') (name : String) :
    (m.get? name).map Json.sorted = (m'.get? name).map Json.sorted := by
  obtain ⟨between, hinside, hperm⟩ := h
  have hdistinct : (between.map Prod.fst).Nodup := hinside.names_eq ▸ m.distinct
  calc
    (m.get? name).map Json.sorted = (Json.sortedMembers m.entries).lookup name := (Json.lookup_sortedMembers _ _).symm
    _ = (Json.sortedMembers between).lookup name := by rw [hinside.sortedMembers_eq]
    _ = (between.lookup name).map Json.sorted := Json.lookup_sortedMembers _ _
    _ = (m'.get? name).map Json.sorted := by rw [lookup_eq_of_perm hdistinct hperm, get?]

/-- Methods that are listed in another order are the same methods. -/
theorem Members.Relisted.sameMethods {m m' : Members} (h : m.Relisted m') : m.SameMethods m' where
  methods := OrderedMap.lookup_eq_of_perm m.methods.distinct h.methods
  staticMethods := OrderedMap.lookup_eq_of_perm m.staticMethods.distinct h.staticMethods

/-- A request with its members listed in another order has in common with it what a fingerprint keeps. -/
theorem Members.Relisted.sameParts {r : Request} {members : Members} (h : r.members.Relisted members) :
    r.SameParts { r with members := members } where
  typeNames := rfl
  methods name := congrArg (Option.map CustomMethod.shown) (h.sameMethods.methods name)
  staticMethods name := congrArg (Option.map CustomMethod.shown) (h.sameMethods.staticMethods name)
  properties := h.properties.map_sorted_get?
  staticProperties := h.staticProperties.map_sorted_get?
  constants := h.constants.map_sorted_get?
  typeName := rfl

/-- Requests of the same types that have in common what a fingerprint keeps, and their methods, have the same outcome. -/
theorem Request.SameParts.sameOutcome {r r' : Request} (h : r.SameParts r') (hm : r.members.SameMethods r'.members)
    (htypes : r.types = r'.types) (rules : IdentifierRules) :
    SameOutcome (Resolution.ofRequest rules r) (Resolution.ofRequest rules r') := by
  rw [Resolution.ofRequest, Resolution.ofRequest, ← htypes]
  cases Classified.ofTypes r.types with
  | error refusal => exact rfl
  | ok c => exact h.ofClassified_alike hm rules c

/-- The order in which custom members are listed is of no significance. Take any request and any listing of its custom members
in another order: the entries of each of the five tables, and the members of the objects in their data at any depth. The
fingerprint and its digest are the same, and under all rules for names the outcome is the same: the same refusal, or resolutions
with the same definition under each name in both tables, the same closed names and the same mixin bodies in the same order. -/
theorem relisted_members_invisible (r : Request) (members : Members) (h : r.members.Relisted members) :
    Fingerprint.ofRequest r = Fingerprint.ofRequest { r with members := members } ∧
      (Fingerprint.ofRequest r).digest = (Fingerprint.ofRequest { r with members := members }).digest ∧
      ∀ rules, SameOutcome (Resolution.ofRequest rules r) (Resolution.ofRequest rules { r with members := members }) := by
  have hfingerprint : Fingerprint.ofRequest r = Fingerprint.ofRequest { r with members := members } :=
    (Fingerprint.ofRequest_eq_iff r _).mpr h.sameParts
  exact ⟨hfingerprint, congrArg Fingerprint.digest hfingerprint, h.sameParts.sameOutcome h.sameMethods rfl⟩

namespace ListingExample

/-- A base with a static method that the user supplies too. -/
def types : List SourceType :=
  [{ name := "Animal", kind := .extensible, methods := [{ name := "run", isStatic := true }] }]

/-- An object of two bounds. -/
def bounds : Json := .object [("low", .null), ("high", .bool true)]

/-- The bounds the other way round. -/
def reversedBounds : Json := .object [("high", .bool true), ("low", .null)]

/-- Two methods, a static one, and a constant that holds the bounds inside an array inside an object. -/
def listed : Members where
  methods := OrderedMap.ofList [("run", CustomMethod.named "f"), ("stop", {})]
  staticMethods := OrderedMap.ofList [("run", CustomMethod.named "g")]
  constants := OrderedMap.ofList [("SIZE", .object [("sides", .array [bounds]), ("unit", .text "m")]), ("ZERO", .null)]

/-- The same members in another order. -/
def relisted : Members where
  methods := OrderedMap.ofList [("stop", {}), ("run", CustomMethod.named "f")]
  staticMethods := OrderedMap.ofList [("run", CustomMethod.named "g")]
  constants :=
    OrderedMap.ofList [("ZERO", .null), ("SIZE", .object [("unit", .text "m"), ("sides", .array [reversedBounds])])]

/-- The second listing is one of the same members. -/
theorem listed_relisted : listed.Relisted relisted where
  methods := List.Perm.swap ..
  staticMethods := List.Perm.refl _
  properties := ⟨[], .nil, List.Perm.refl _⟩
  staticProperties := ⟨[], .nil, List.Perm.refl _⟩
  constants := by
    have hbounds : Json.Reordered bounds reversedBounds :=
      .object (by decide) (.cons "low" (.refl _) (.cons "high" (.refl _) .nil)) (List.Perm.swap ..)
    have hsize : Json.Reordered (.object [("sides", .array [bounds]), ("unit", .text "m")])
        (.object [("unit", .text "m"), ("sides", .array [reversedBounds])]) :=
      .object (by decide) (.cons "sides" (.array (.cons hbounds .nil)) (.cons "unit" (.refl _) .nil)) (List.Perm.swap ..)
    exact ⟨_, .cons "SIZE" hsize (.cons "ZERO" (.refl _) .nil), List.Perm.swap ..⟩

/-- A request with the members as listed first. -/
def request : Request := Request.ofTypes types listed (some "Dog")

end ListingExample

open ListingExample in
/-- Members listed in another order, and bounds deep inside a constant with them, change neither the digest nor the outcome. -/
theorem relisted_members_invisible_bounds :
    request.members.Relisted relisted ∧
      (Fingerprint.ofRequest request).digest = (Fingerprint.ofRequest { request with members := relisted }).digest ∧
      SameOutcome (Resolution.ofRequest {} request) (Resolution.ofRequest {} { request with members := relisted }) := by
  obtain ⟨-, hdigest, houtcome⟩ := relisted_members_invisible request relisted listed_relisted
  exact ⟨listed_relisted, hdigest, houtcome {}⟩

end TestDouble
