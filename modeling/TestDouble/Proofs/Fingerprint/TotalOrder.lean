import TestDouble.Fingerprint.Order

/-!
# Fingerprints are totally ordered

`Fingerprint.Before` says when one fingerprint stands before another: the first field in which they differ decides. Comparing
two fingerprints finds out which of them stands before the other (`orderedBy_fingerprint`), and it calls them equal only if they
are. What orders a fingerprint is put together from lists, options and pairs, so each law of the order is a law of these: the
order is total, it goes one way, and it is transitive (`fingerprints_totally_ordered`).
-/

namespace TestDouble

open Std

attribute [local instance] lexOrd

/-! ## What stands before what -/

/-- A closure stands before another: by the text of its file, then by its first line, then by its last line. -/
def Site.Before (a b : Site String) : Prop :=
  a.file < b.file ∨ a.file = b.file ∧
    (a.startLine < b.startLine ∨ a.startLine = b.startLine ∧ a.endLine < b.endLine)

/-- A callable stands before another: references are in the order of their texts, closures in the order of their places, and
every reference stands before every closure. -/
inductive Callable.Before : Callable String → Callable String → Prop where
  | references {a b : String} (h : a < b) : Callable.Before (.named a) (.named b)
  | reference_closure (a : String) (b : Site String) : Callable.Before (.named a) (.closure b)
  | closures {a b : Site String} (h : a.Before b) : Callable.Before (.closure a) (.closure b)

/-- A parameter stands before another: by its name, then by how it is passed, then by whether it has a default, then by whether
it takes any number of arguments, then by its type. `false` stands before `true`, and no type before any type. -/
def Parameter.Before (a b : Parameter) : Prop :=
  a.name < b.name ∨ a.name = b.name ∧
    (a.byReference < b.byReference ∨ a.byReference = b.byReference ∧
      (a.hasDefault < b.hasDefault ∨ a.hasDefault = b.hasDefault ∧
        (a.isVariadic < b.isVariadic ∨ a.isVariadic = b.isVariadic ∧ Option.lt (· < ·) a.typeHint b.typeHint)))

/-- A custom method stands before another: by its callable, where none stands before any, then by its parameters as words in a
dictionary, then by the type of its result, where none stands before any. -/
def CustomMethod.Before (a b : CustomMethod String) : Prop :=
  Option.lt Callable.Before a.callable b.callable ∨ a.callable = b.callable ∧
    (List.Lex Parameter.Before a.parameters b.parameters ∨ a.parameters = b.parameters ∧
      Option.lt (· < ·) a.returnType b.returnType)

/-- A table stands before another: their entries, in the order of their names, are compared as words in a dictionary, a name
before its content. -/
def SortedMap.Before {α : Type} (content : α → α → Prop) (a b : SortedMap α) : Prop :=
  List.Lex (fun e f => e.1 < f.1 ∨ e.1 = f.1 ∧ content e.2 f.2) a.entries b.entries

/-- A fingerprint stands before another: by its types as words in a dictionary, then by its methods, its static methods, its
properties, its static properties and its constants, then by its name, where none stands before any. -/
def Fingerprint.Before (a b : Fingerprint) : Prop :=
  List.Lex (· < ·) a.types b.types ∨ a.types = b.types ∧
    (SortedMap.Before CustomMethod.Before a.methods b.methods ∨ a.methods = b.methods ∧
      (SortedMap.Before CustomMethod.Before a.staticMethods b.staticMethods ∨ a.staticMethods = b.staticMethods ∧
        (SortedMap.Before (· < ·) a.properties b.properties ∨ a.properties = b.properties ∧
          (SortedMap.Before (· < ·) a.staticProperties b.staticProperties ∨ a.staticProperties = b.staticProperties ∧
            (SortedMap.Before (· < ·) a.constants b.constants ∨ a.constants = b.constants ∧
              Option.lt (· < ·) a.typeName b.typeName)))))

/-! ## Comparing finds out what stands before what -/

/-- A relation says what comparing finds out: one thing compares as less than another exactly when it stands before it. -/
def OrderedBy (α : Type) [Ord α] (before : α → α → Prop) : Prop := ∀ a b : α, compare a b = .lt ↔ before a b

section OrderedBy

variable {α β : Type} [Ord α] [Ord β] {before : α → α → Prop} {before' : β → β → Prop}

/-- Texts are ordered by code point. -/
theorem orderedBy_text : OrderedBy String (· < ·) := by
  intro a b
  exact compareOfLessAndEq_eq_lt

theorem orderedBy_line : OrderedBy UInt32 (· < ·) := by
  intro a b
  exact compareOfLessAndEq_eq_lt

theorem orderedBy_flag : OrderedBy Bool (· < ·) := by
  intro a b
  cases a <;> cases b <;> decide

/-- What may be absent is ordered with the absent in front. -/
theorem OrderedBy.option (h : OrderedBy α before) : OrderedBy (Option α) (Option.lt before) := by
  intro a b
  cases a with
  | none => cases b <;> simp [compare, Option.lt]
  | some a =>
    cases b with
    | none => simp [compare, Option.lt]
    | some b => exact h a b

/-- Pairs are ordered by what stands first, and by what stands second where the first agree. -/
theorem OrderedBy.pair [LawfulEqOrd α] (h : OrderedBy α before) (h' : OrderedBy β before') :
    OrderedBy (α × β) (fun p q => before p.1 q.1 ∨ p.1 = q.1 ∧ before' p.2 q.2) := by
  intro p q
  have hcompare : compare p q = (compare p.1 q.1).then (compare p.2 q.2) := rfl
  rw [hcompare, Ordering.then_eq_lt, h, h', Std.compare_eq_iff_eq]

/-- Lists are ordered as words in a dictionary. -/
theorem OrderedBy.list [LawfulEqOrd α] (h : OrderedBy α before) : OrderedBy (List α) (List.Lex before) := by
  intro as bs
  induction as generalizing bs with
  | nil =>
    cases bs with
    | nil => simp
    | cons b bs => simp [List.compare_nil_cons]
  | cons a as ih =>
    cases bs with
    | nil => simp [List.compare_cons_nil]
    | cons b bs =>
      rw [List.compare_cons_cons, Ordering.then_eq_lt, h, ih, Std.compare_eq_iff_eq, List.cons_lex_cons_iff]

end OrderedBy

/-! ## Nothing else compares as equal -/

/-- Things that are compared by a key compare as equal only to themselves, if the key tells them apart. -/
theorem lawfulEqCmp_compareOn {α β : Type} [Ord β] [TransOrd β] [LawfulEqOrd β] {key : α → β} (h : Function.Injective key) :
    LawfulEqCmp (compareOn key) where
  compare_self := Std.compare_eq_iff_eq.mpr rfl
  eq_of_compare heq := h (LawfulEqOrd.eq_of_compare heq)

/-- What orders a parameter is all of it. -/
theorem Parameter.rankKey_injective : Function.Injective Parameter.rankKey := by
  rintro ⟨⟩ ⟨⟩ h
  cases h
  rfl

/-- What orders a callable tells its kind and its content. -/
theorem Callable.rankKey_injective : Function.Injective Callable.rankKey := by
  rintro (a | ⟨a, _, _⟩) (b | ⟨b, _, _⟩) h <;> cases h <;> rfl

namespace Fingerprint

theorem methodKey_injective : Function.Injective methodKey := by
  rintro ⟨⟩ ⟨⟩ h
  cases h
  rfl

theorem rankKey_injective : Function.Injective rankKey := by
  intro a b h
  simp only [rankKey, Prod.mk.injEq, ← SortedMap.ext_iff] at h
  cases a
  cases b
  simpa using h

instance : TransOrd Parameter := inferInstanceAs (TransCmp (compareOn Parameter.rankKey))

instance : LawfulEqOrd Parameter := lawfulEqCmp_compareOn Parameter.rankKey_injective

instance : TransOrd (Callable String) := inferInstanceAs (TransCmp (compareOn Callable.rankKey))

instance : LawfulEqOrd (Callable String) := lawfulEqCmp_compareOn Callable.rankKey_injective

instance : TransOrd (CustomMethod String) := inferInstanceAs (TransCmp (compareOn methodKey))

instance : LawfulEqOrd (CustomMethod String) := lawfulEqCmp_compareOn methodKey_injective

instance : TransOrd Fingerprint := inferInstanceAs (TransCmp (compareOn rankKey))

instance : LawfulEqOrd Fingerprint := lawfulEqCmp_compareOn rankKey_injective

end Fingerprint

/-! ## The order of fingerprints -/

/-- Parameters are ordered as `Parameter.Before` says. -/
theorem orderedBy_parameter : OrderedBy Parameter Parameter.Before := fun a b =>
  (orderedBy_text.pair (orderedBy_flag.pair (orderedBy_flag.pair (orderedBy_flag.pair orderedBy_text.option))))
    a.rankKey b.rankKey

/-- References compare as their texts do. -/
theorem compare_references (a b : String) : compare (Callable.named a : Callable String) (.named b) = compare a b := by
  have hkeys : compare (Callable.named a : Callable String) (.named b) = (compare a b).then .eq := rfl
  rw [hkeys, Ordering.then_eq]

/-- Closures compare as their places do. -/
theorem compare_closures (a b : Site String) :
    compare (Callable.closure a) (.closure b) =
      compare (a.file, a.startLine, a.endLine) (b.file, b.startLine, b.endLine) := rfl

/-- A reference compares as less than a closure. -/
theorem compare_reference_closure (a : String) (b : Site String) : compare (Callable.named a) (.closure b) = .lt := rfl

/-- Callables are ordered as `Callable.Before` says. -/
theorem orderedBy_callable : OrderedBy (Callable String) Callable.Before := by
  intro a b
  cases a with
  | named a =>
    cases b with
    | named b =>
      rw [compare_references, orderedBy_text]
      exact ⟨.references, fun | .references h => h⟩
    | closure b => exact iff_of_true (compare_reference_closure a b) (.reference_closure a b)
  | closure a =>
    cases b with
    | named b =>
      have hgreater : compare (Callable.closure a) (.named b) = .gt :=
        OrientedCmp.gt_iff_lt.mpr (compare_reference_closure b a)
      exact iff_of_false (by simp [hgreater]) nofun
    | closure b =>
      have hplaces := orderedBy_text.pair (orderedBy_line.pair orderedBy_line)
      rw [compare_closures, hplaces]
      exact ⟨.closures, fun | .closures h => h⟩

/-- Custom methods are ordered as `CustomMethod.Before` says. -/
theorem orderedBy_customMethod : OrderedBy (CustomMethod String) CustomMethod.Before := fun a b =>
  (orderedBy_callable.option.pair (orderedBy_parameter.list.pair orderedBy_text.option))
    (Fingerprint.methodKey a) (Fingerprint.methodKey b)

/-- Fingerprints are ordered as `Fingerprint.Before` says. -/
theorem orderedBy_fingerprint : OrderedBy Fingerprint Fingerprint.Before := by
  intro a b
  have hmethods := (orderedBy_text.pair orderedBy_customMethod).list
  have htexts := (orderedBy_text.pair orderedBy_text).list
  have hkey := (orderedBy_text.list.pair (hmethods.pair (hmethods.pair (htexts.pair (htexts.pair (htexts.pair
    orderedBy_text.option)))))) a.rankKey b.rankKey
  simp only [Fingerprint.Before, SortedMap.Before, SortedMap.ext_iff]
  exact hkey

/-- Fingerprints are totally ordered. Of any two fingerprints, exactly one of these holds: the first compares as less, the two are
equal, the second compares as less. They compare as equal exactly when all their fields are equal; the first compares as less
exactly when the second compares as greater; what is less than a lesser one is less. And the first compares as less exactly when
it stands before the second: field by field, lists as words in a dictionary, tables as their entries in the order of their names,
no callable before a reference and a reference before a closure, and no name before any name. -/
theorem fingerprints_totally_ordered :
    (∀ a b : Fingerprint,
        compare a b = .lt ∧ a ≠ b ∧ compare b a ≠ .lt ∨ compare a b ≠ .lt ∧ a = b ∧ compare b a ≠ .lt ∨
          compare a b ≠ .lt ∧ a ≠ b ∧ compare b a = .lt) ∧
      (∀ a b : Fingerprint, compare a b = .eq ↔
        a.types = b.types ∧ a.methods = b.methods ∧ a.staticMethods = b.staticMethods ∧ a.properties = b.properties ∧
          a.staticProperties = b.staticProperties ∧ a.constants = b.constants ∧ a.typeName = b.typeName) ∧
      (∀ a b : Fingerprint, compare a b = .lt ↔ compare b a = .gt) ∧
      (∀ a b c : Fingerprint, compare a b = .lt → compare b c = .lt → compare a c = .lt) ∧
      ∀ a b : Fingerprint, compare a b = .lt ↔ a.Before b := by
  refine ⟨fun a b => ?_, fun a b => ?_, fun a b => OrientedCmp.gt_iff_lt.symm, fun a b c => TransCmp.lt_trans,
    orderedBy_fingerprint⟩
  · have hback : compare b a = (compare a b).swap := OrientedCmp.eq_swap
    have hequal : a = b ↔ compare a b = .eq := Std.compare_eq_iff_eq.symm
    rw [ne_eq, hback, hequal]
    cases compare a b <;> simp
  · rw [Std.compare_eq_iff_eq, Fingerprint.mk.injEq]

namespace TotalOrderExample

/-- The fingerprint of a request for one custom method and nothing else. -/
def speaking (method : CustomMethod) : Fingerprint :=
  Fingerprint.ofRequest (Request.ofTypes [] { methods := OrderedMap.ofList [("speak", method)] } none)

end TotalOrderExample

open TotalOrderExample in
/-- A method that calls nothing stands before one that calls a reference, that one before one that calls the first of all closures,
and so the first before the last. -/
theorem fingerprints_totally_ordered_speaking :
    compare (speaking {}) (speaking (.named "Zoo::speak")) = .lt ∧
      compare (speaking (.named "Zoo::speak")) (speaking (.closure ⟨.ofText "", 0, 0⟩)) = .lt ∧
      compare (speaking {}) (speaking (.closure ⟨.ofText "", 0, 0⟩)) = .lt := by
  obtain ⟨-, -, -, htrans, -⟩ := fingerprints_totally_ordered
  have hnone : compare (speaking {}) (speaking (.named "Zoo::speak")) = .lt := by decide +kernel
  have hreference : compare (speaking (.named "Zoo::speak")) (speaking (.closure ⟨.ofText "", 0, 0⟩)) = .lt := by decide +kernel
  exact ⟨hnone, hreference, htrans _ _ _ hnone hreference⟩

end TestDouble
