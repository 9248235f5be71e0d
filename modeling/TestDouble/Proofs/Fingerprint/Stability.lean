import TestDouble.Fingerprint.Digest
import TestDouble.Proofs.Fingerprint.Parts

/-!
# Which equal requests have equal fingerprints

Requests are compared with file paths taken by their components and with the two zeros of binary64 taken as one number; a
fingerprint keeps the text that is shown of a path and writes the two zeros differently. So requests that are the same need not
have the same fingerprint. They have it exactly when they also spell these two things alike (`fingerprint_eq_iff_spelledAlike`).
-/

namespace TestDouble

/-! ## How a request is spelled -/

/-- The text that is shown of the path of the file that a closure was declared in, where the method calls a closure. -/
def CustomMethod.siteText? (m : CustomMethod) : Option String := m.shown.file?

/-- Two sets of members are spelled alike: under each name the same text is shown of the path of the file of a closure, and the
zeros of binary64 in data have the same signs. -/
structure Members.SpelledAlike (a b : Members) : Prop where
  methods : ∀ name, (a.methods.get? name).map (·.siteText?) = (b.methods.get? name).map (·.siteText?)
  staticMethods : ∀ name,
    (a.staticMethods.get? name).map (·.siteText?) = (b.staticMethods.get? name).map (·.siteText?)
  properties : ∀ name,
    (a.properties.get? name).map (·.sorted.zeroSigns) = (b.properties.get? name).map (·.sorted.zeroSigns)
  staticProperties : ∀ name,
    (a.staticProperties.get? name).map (·.sorted.zeroSigns) =
      (b.staticProperties.get? name).map (·.sorted.zeroSigns)
  constants : ∀ name,
    (a.constants.get? name).map (·.sorted.zeroSigns) = (b.constants.get? name).map (·.sorted.zeroSigns)

/-! ## Methods and data that are the same -/

/-- Of sites that are the same, in files of whose paths the same text is shown, the same is shown. -/
theorem Site.map_shown_eq_of_sameAs {a b : Site} (h : a.sameAs b = true) (htext : a.file.shown = b.file.shown) :
    a.map FilePath.shown = b.map FilePath.shown := by
  rw [Site.sameAs, Bool.and_eq_true, Bool.and_eq_true, beq_iff_eq, beq_iff_eq] at h
  obtain ⟨⟨-, hstart⟩, hend⟩ := h
  rw [map, map, htext, hstart, hend]

/-- Of methods that are the same the same is shown exactly when they spell the path of a closure alike. -/
theorem CustomMethod.shown_eq_iff_of_sameAs {a b : CustomMethod} (h : a.sameAs b = true) :
    a.shown = b.shown ↔ a.siteText? = b.siteText? := by
  refine ⟨congrArg file?, fun htext => ?_⟩
  rw [sameAs, Bool.and_eq_true, Bool.and_eq_true, beq_iff_eq, beq_iff_eq] at h
  obtain ⟨⟨hcallable, hparameters⟩, hreturn⟩ := h
  obtain ⟨callable, parameters, returnType⟩ := a
  obtain ⟨callable', parameters', returnType'⟩ := b
  cases hparameters
  cases hreturn
  match callable, callable' with
  | none, none => rfl
  | none, some _ => cases hcallable
  | some _, none => cases hcallable
  | some (.named reference), some (.named reference') => rw [beq_iff_eq.mp hcallable]
  | some (.named _), some (.closure _) => cases hcallable
  | some (.closure _), some (.named _) => cases hcallable
  | some (.closure site), some (.closure site') =>
    have hsite := Site.map_shown_eq_of_sameAs hcallable (Option.some.inj htext)
    simp only [shown, map, Option.map_some, Callable.map, hsite]

/-- Two maps that are the same under a test have the same image under one function exactly when they have the same image under
another, if the two functions distinguish the same values among those that the test accepts as the same. -/
theorem OrderedMap.forall_map_eq_iff_of_sameBy {α β γ : Type} {same : α → α → Bool} {f : α → β} {g : α → γ}
    (hfg : ∀ a b, same a b = true → (f a = f b ↔ g a = g b)) {m m' : OrderedMap α} (h : m.sameBy same m' = true) :
    (∀ name, (m.get? name).map f = (m'.get? name).map f) ↔ ∀ name, (m.get? name).map g = (m'.get? name).map g := by
  apply forall_congr'
  intro name
  have hrel := (sameBy_iff same m m').mp h name
  cases ha : m.get? name with
  | none =>
    rw [ha] at hrel
    cases hb : m'.get? name with
    | none => exact iff_of_true rfl rfl
    | some b =>
      rw [hb] at hrel
      cases hrel
  | some a =>
    rw [ha] at hrel
    cases hb : m'.get? name with
    | none =>
      rw [hb] at hrel
      cases hrel
    | some b =>
      rw [hb] at hrel
      cases hrel with
      | some hsame => simp only [Option.map_some, Option.some.injEq, hfg a b hsame]

/-- Of tables of methods that are the same the same is shown under each name exactly when the paths of closures are spelled
alike. -/
theorem shown_eq_iff_of_sameBy {m m' : OrderedMap CustomMethod} (h : m.sameBy CustomMethod.sameAs m' = true) :
    (∀ name, (m.get? name).map CustomMethod.shown = (m'.get? name).map CustomMethod.shown) ↔
      ∀ name, (m.get? name).map (·.siteText?) = (m'.get? name).map (·.siteText?) :=
  OrderedMap.forall_map_eq_iff_of_sameBy (fun _ _ hsame => CustomMethod.shown_eq_iff_of_sameAs hsame) h

/-- Tables of data that are the same hold data of one sorted form under each name exactly when zeros have the same signs. -/
theorem sorted_eq_iff_of_sameBy {m m' : OrderedMap Json} (h : m.sameBy Json.same m' = true) :
    (∀ name, (m.get? name).map Json.sorted = (m'.get? name).map Json.sorted) ↔
      ∀ name, (m.get? name).map (·.sorted.zeroSigns) = (m'.get? name).map (·.sorted.zeroSigns) :=
  OrderedMap.forall_map_eq_iff_of_sameBy (fun _ _ hsame => Json.sorted_eq_iff_of_same hsame) h

/-- Requests that are the same have in common what a fingerprint keeps exactly when their members are spelled alike. -/
theorem Request.sameParts_iff_of_sameAs {r r' : Request} (h : r.sameAs r' = true) :
    r.SameParts r' ↔ r.members.SpelledAlike r'.members := by
  rw [sameAs, Bool.and_eq_true, Bool.and_eq_true, beq_iff_eq, beq_iff_eq, Members.sameAs] at h
  simp only [Bool.and_eq_true] at h
  obtain ⟨⟨htypes, ⟨⟨⟨hmethods, hstatics⟩, hproperties⟩, hstaticProperties⟩, hconstants⟩, hname⟩ := h
  have hnames : r.typeNames = r'.typeNames := congrArg (List.map SourceType.name) htypes
  constructor
  · intro hparts
    exact ⟨(shown_eq_iff_of_sameBy hmethods).mp hparts.methods,
      (shown_eq_iff_of_sameBy hstatics).mp hparts.staticMethods,
      (sorted_eq_iff_of_sameBy hproperties).mp hparts.properties,
      (sorted_eq_iff_of_sameBy hstaticProperties).mp hparts.staticProperties,
      (sorted_eq_iff_of_sameBy hconstants).mp hparts.constants⟩
  · intro hspelled
    exact ⟨hnames, (shown_eq_iff_of_sameBy hmethods).mpr hspelled.methods,
      (shown_eq_iff_of_sameBy hstatics).mpr hspelled.staticMethods,
      (sorted_eq_iff_of_sameBy hproperties).mpr hspelled.properties,
      (sorted_eq_iff_of_sameBy hstaticProperties).mpr hspelled.staticProperties,
      (sorted_eq_iff_of_sameBy hconstants).mpr hspelled.constants, hname⟩

namespace StabilityExample

/-- A request for one custom method, a closure in a file, and some constants. -/
def closureIn (path : String) (constants : List (String × Json)) : Request :=
  Request.ofTypes []
    { methods := OrderedMap.ofList [("f", CustomMethod.closure ⟨.ofText path, 1, 2⟩)]
      constants := OrderedMap.ofList constants }
    none

/-- An object with two members. -/
def pair : Json := .object [("a", .null), ("b", .bool true)]

/-- The same object with its members listed in the other order. -/
def pairReversed : Json := .object [("b", .bool true), ("a", .null)]

end StabilityExample

/-! ## Stability -/

/-- Requests that are the same have the same fingerprint, and so the same digest, exactly when they spell the paths of closures
alike and when the zeros of binary64 in their data have the same signs. -/
theorem fingerprint_eq_iff_spelledAlike (r r' : Request) (h : r.sameAs r' = true) :
    (Fingerprint.ofRequest r = Fingerprint.ofRequest r' ↔ r.members.SpelledAlike r'.members) ∧
      (r.members.SpelledAlike r'.members →
        (Fingerprint.ofRequest r).digest = (Fingerprint.ofRequest r').digest) := by
  have hiff : Fingerprint.ofRequest r = Fingerprint.ofRequest r' ↔ r.members.SpelledAlike r'.members :=
    (Fingerprint.ofRequest_eq_iff r r').trans (Request.sameParts_iff_of_sameAs h)
  exact ⟨hiff, fun hspelled => congrArg Fingerprint.digest (hiff.mpr hspelled)⟩

/-- The condition at two requests that differ in how an object lists its members. -/
theorem fingerprint_eq_iff_pairReversed :
    let r := StabilityExample.closureIn "a/b" [("C", StabilityExample.pair)]
    let r' := StabilityExample.closureIn "a/b" [("C", StabilityExample.pairReversed)]
    r.sameAs r' = true ∧
      ((Fingerprint.ofRequest r = Fingerprint.ofRequest r' ↔ r.members.SpelledAlike r'.members) ∧
        (r.members.SpelledAlike r'.members →
          (Fingerprint.ofRequest r).digest = (Fingerprint.ofRequest r').digest)) := by
  intro r r'
  have hsame : r.sameAs r' = true := by decide +kernel
  exact ⟨hsame, fingerprint_eq_iff_spelledAlike r r' hsame⟩

/-- A doubled slash in the path of a closure makes no other request, and a different fingerprint. -/
theorem fingerprint_ne_of_doubled_slash :
    let r := StabilityExample.closureIn "a//b" []
    let r' := StabilityExample.closureIn "a/b" []
    r.sameAs r' = true ∧ Fingerprint.ofRequest r ≠ Fingerprint.ofRequest r' := by
  decide +kernel

/-- The two zeros of binary64 are told apart by a fingerprint and not by requests. -/
example :
    let zero (negative : Bool) : Json := .number (.real ⟨negative, 0, by decide⟩)
    let r := StabilityExample.closureIn "a/b" [("C", zero false)]
    let r' := StabilityExample.closureIn "a/b" [("C", zero true)]
    r.sameAs r' = true ∧ Fingerprint.ofRequest r ≠ Fingerprint.ofRequest r' := by
  decide +kernel

end TestDouble
