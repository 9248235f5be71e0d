import TestDouble.Fingerprint
import TestDouble.Proofs.Json.Agreement
import TestDouble.Proofs.Json.Text

/-!
# What a fingerprint keeps

Two requests have the same fingerprint exactly when they have the same type names in the same order, the same name asked for,
under each name custom methods of which the same is shown, and under each name data values with the same sorted form
(`Fingerprint.ofRequest_eq_iff`).
-/

namespace TestDouble

/-- Two requests have in common what a fingerprint keeps: the names of the types in order, what is shown of the custom methods
under each name, the data under each name up to the order in which objects list their members, and the name asked for. -/
structure Request.SameParts (r r' : Request) : Prop where
  typeNames : r.typeNames = r'.typeNames
  methods : ∀ name,
    (r.members.methods.get? name).map CustomMethod.shown = (r'.members.methods.get? name).map CustomMethod.shown
  staticMethods : ∀ name,
    (r.members.staticMethods.get? name).map CustomMethod.shown = (r'.members.staticMethods.get? name).map CustomMethod.shown
  properties : ∀ name,
    (r.members.properties.get? name).map Json.sorted = (r'.members.properties.get? name).map Json.sorted
  staticProperties : ∀ name,
    (r.members.staticProperties.get? name).map Json.sorted = (r'.members.staticProperties.get? name).map Json.sorted
  constants : ∀ name,
    (r.members.constants.get? name).map Json.sorted = (r'.members.constants.get? name).map Json.sorted
  typeName : r.typeName = r'.typeName

namespace Fingerprint

/-- Two tables of methods are shown alike exactly when the same is shown of the method under each name. -/
theorem shownMethods_eq_iff (m m' : OrderedMap CustomMethod) :
    shownMethods m = shownMethods m' ↔
      ∀ name, (m.get? name).map CustomMethod.shown = (m'.get? name).map CustomMethod.shown := by
  rw [shownMethods, shownMethods, SortedMap.ofOrdered_eq_iff]
  simp only [OrderedMap.get?_map]

/-- Two tables of data have the same texts exactly when the data under each name has the same sorted form. -/
theorem texts_eq_iff (m m' : OrderedMap Json) :
    texts m = texts m' ↔ ∀ name, (m.get? name).map Json.sorted = (m'.get? name).map Json.sorted := by
  rw [texts, texts, SortedMap.ofOrdered_eq_iff]
  apply forall_congr'
  intro name
  rw [OrderedMap.get?_map, OrderedMap.get?_map]
  cases m.get? name with
  | none => cases m'.get? name <;> simp
  | some value =>
    cases m'.get? name with
    | none => simp
    | some other => simp [Json.canonicalText_eq_iff]

/-- Two requests have the same fingerprint exactly when they have in common what a fingerprint keeps. -/
theorem ofRequest_eq_iff (r r' : Request) : ofRequest r = ofRequest r' ↔ r.SameParts r' := by
  constructor
  · intro h
    simp only [ofRequest, mk.injEq, shownMethods_eq_iff, texts_eq_iff] at h
    obtain ⟨htypes, hmethods, hstatics, hproperties, hstaticProperties, hconstants, hname⟩ := h
    exact ⟨htypes, hmethods, hstatics, hproperties, hstaticProperties, hconstants, hname⟩
  · intro h
    simp only [ofRequest, mk.injEq, shownMethods_eq_iff, texts_eq_iff]
    exact ⟨h.typeNames, h.methods, h.staticMethods, h.properties, h.staticProperties, h.constants, h.typeName⟩

end Fingerprint

end TestDouble
