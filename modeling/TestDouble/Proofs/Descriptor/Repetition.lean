import Mathlib.Data.List.Nodup
import TestDouble.Fingerprint.Digest
import TestDouble.Resolution

/-!
# Types that are listed again

A type is known by its name, so a further descriptor behind the first one of its name means nothing, wherever it stands and
whatever it says. `distinct` leaves of each name the first descriptor, in the order in which the names occur first
(`distinct_eq`). Lists that differ in such repetitions only are the same to everything that reads types
(`repetitions_collapse`).
-/

namespace TestDouble

namespace SourceType

/-! ## What is left of a list -/

/-- The first type is left, and with it what is left of the others without those of its name. -/
theorem distinct_cons (t : SourceType) (rest : List SourceType) :
    distinct (t :: rest) = t :: distinct (rest.filter (fun later => later.name != t.name)) := by
  rw [distinct, filter_distinct (fun name => name != t.name)]

/-- The names of what is left are those of the list, in the order in which they occur first. -/
theorem names_distinct (types : List SourceType) :
    (distinct types).map (·.name) = (types.map (·.name)).eraseDups := by
  match types with
  | [] => rfl
  | t :: rest =>
    have ih := names_distinct (rest.filter (fun later => later.name != t.name))
    have hnames : (rest.filter (fun later => later.name != t.name)).map (·.name) =
        (rest.map (·.name)).filter (fun name => !name == t.name) := by
      rw [List.filter_map]
      rfl
    rw [distinct_cons, List.map_cons, ih, hnames, List.map_cons, List.eraseDups_cons]
termination_by types.length
decreasing_by
  have hle := List.length_filter_le (fun later : SourceType => later.name != t.name) rest
  simp only [List.length_cons]
  omega

/-- Every name of a list is that of a type that is left. -/
theorem mem_names_distinct {types : List SourceType} {name : String} :
    name ∈ (distinct types).map (·.name) ↔ name ∈ types.map (·.name) := by
  rw [names_distinct, List.mem_eraseDups]

/-- The type that is left of a name is the first one of the list. -/
theorem find?_distinct (types : List SourceType) (name : String) :
    (distinct types).find? (fun t => t.name == name) = types.find? (fun t => t.name == name) := by
  induction types with
  | nil => rfl
  | cons t rest ih =>
    rw [distinct, List.find?_cons, List.find?_cons]
    by_cases he : t.name = name
    · simp only [he, beq_self_eq_true]
    · have hne : (t.name == name) = false := by simpa using he
      have hkept : ∀ later : SourceType,
          decide ((later.name != t.name) = true ∧ (later.name == name) = true) = (later.name == name) := by
        intro later
        by_cases hlater : later.name = name
        · have hdiffers : name ≠ t.name := fun e => he e.symm
          simp [hlater, hdiffers]
        · simp [hlater]
      simp only [hne, List.find?_filter, hkept, ih]

/-- Of each name the first type is left, in the order in which the names occur first. -/
theorem distinct_eq (types : List SourceType) :
    distinct types =
      (types.map (·.name)).eraseDups.filterMap (fun name => types.find? (fun t => t.name == name)) := by
  have hfound : ∀ t ∈ distinct types, types.find? (fun listed => listed.name == t.name) = some t := by
    intro t ht
    rw [← find?_distinct]
    obtain ⟨first, hfirst⟩ : ∃ first, (distinct types).find? (fun listed => listed.name == t.name) = some first :=
      Option.isSome_iff_exists.mp (List.find?_isSome.mpr ⟨t, ht, by simp⟩)
    have hname : first.name = t.name := by simpa using List.find?_some hfirst
    rw [hfirst, List.inj_on_of_nodup_map (nodup_names_distinct types) (List.mem_of_find?_eq_some hfirst) ht hname]
  calc
    distinct types = (distinct types).filterMap some := List.filterMap_some.symm
    _ = (distinct types).filterMap (fun t => types.find? (fun listed => listed.name == t.name)) :=
      (List.filterMap_congr hfound).symm
    _ = (types.map (·.name)).eraseDups.filterMap (fun name => types.find? (fun t => t.name == name)) := by
      rw [← names_distinct, List.filterMap_map]
      rfl

/-! ## Repetitions -/

/-- A list of types with further types in it, each behind one of its name. -/
inductive Repeating (types : List SourceType) : List SourceType → Prop where
  | none : Repeating types types
  | insert {before after : List SourceType} (later : SourceType) (h : Repeating types (before ++ after))
    (hname : later.name ∈ before.map (·.name)) : Repeating types (before ++ later :: after)

/-- A type behind one of its name adds nothing. -/
theorem distinct_append_cons {before : List SourceType} {later : SourceType} (hname : later.name ∈ before.map (·.name))
    (after : List SourceType) : distinct (before ++ later :: after) = distinct (before ++ after) := by
  induction before with
  | nil => cases hname
  | cons t rest ih =>
    by_cases he : later.name = t.name
    · have hdropped : (rest ++ later :: after).filter (fun later => later.name != t.name) =
          (rest ++ after).filter (fun later => later.name != t.name) := by
        rw [List.filter_append, List.filter_append, List.filter_cons_of_neg (by simp [he])]
      rw [List.cons_append, List.cons_append, distinct_cons, distinct_cons, hdropped]
    · have hrest : later.name ∈ rest.map (·.name) := by
        rcases List.mem_cons.mp hname with hfirst | hrest
        · exact absurd hfirst he
        · exact hrest
      rw [List.cons_append, List.cons_append, distinct, distinct, ih hrest]

/-- Repetitions leave the same types. -/
theorem Repeating.distinct_eq {types repeating : List SourceType} (h : Repeating types repeating) :
    distinct repeating = distinct types := by
  induction h with
  | none => rfl
  | insert later _ hname ih => rw [distinct_append_cons hname, ih]

end SourceType

open SourceType

/-- Repeated types collapse everywhere. Take any list of types, and one obtained from it by inserting further types, any number
of them, each anywhere behind a type of its name. The types are placed alike, or refused for the same reason; and with any members
and any name the two requests are equal, and so are their fingerprints, digests and resolutions under all rules for names. What
is left of the longer list has distinct names, lists the first type of each name in the order in which the names occur first,
misses no name, and is left as it is when it is collapsed again. -/
theorem repetitions_collapse (types repeating : List SourceType) (h : Repeating types repeating) :
    Classified.ofTypes repeating = Classified.ofTypes types ∧
      (∀ members typeName,
        let r := Request.ofTypes repeating members typeName
        let r' := Request.ofTypes types members typeName
        r = r' ∧ Fingerprint.ofRequest r = Fingerprint.ofRequest r' ∧
          (Fingerprint.ofRequest r).digest = (Fingerprint.ofRequest r').digest ∧
          ∀ rules, Resolution.ofRequest rules r = Resolution.ofRequest rules r') ∧
      ((distinct repeating).map (·.name)).Nodup ∧
      distinct repeating =
        (repeating.map (·.name)).eraseDups.filterMap (fun name => repeating.find? (fun t => t.name == name)) ∧
      (∀ t ∈ repeating, t.name ∈ (distinct repeating).map (·.name)) ∧
      distinct (distinct repeating) = distinct repeating := by
  have hleft : distinct repeating = distinct types := h.distinct_eq
  refine ⟨?_, fun members typeName => ?_, nodup_names_distinct repeating, distinct_eq repeating, fun t ht => ?_,
    distinct_eq_self (nodup_names_distinct repeating)⟩
  · rw [Classified.ofTypes, Classified.ofTypes, hleft]
  · have hrequest : Request.ofTypes repeating members typeName = Request.ofTypes types members typeName :=
      Request.ofTypes_congr hleft members typeName
    intro r r'
    have heq : r = r' := hrequest
    exact ⟨heq, by rw [heq], by rw [heq], fun rules => by rw [heq]⟩
  · exact mem_names_distinct.mpr (List.mem_map_of_mem ht)

namespace RepetitionExample

/-- A class that speaks. -/
def animal : SourceType := { name := "Animal", kind := .extensible, methods := [{ name := "speak" }] }

/-- A contract under the name of the class. -/
def namesake : SourceType := { name := "Animal", kind := .capability, methods := [{ name := "run" }] }

/-- The class again, sealed. -/
def locked : SourceType := { animal with isSealed := true }

/-- A mixin with a body for speaking. -/
def loud : SourceType := { name := "Loud", kind := .mixin, methods := [{ name := "speak" }] }

/-- The mixin again, as a second class. -/
def vehicle : SourceType := { name := "Loud", kind := .extensible }

/-- The class and the mixin, with both listed again between and behind them. -/
def repeating : List SourceType := [animal, locked, loud, vehicle, namesake]

/-- The list repeats the class and the mixin. -/
theorem repeating_types : Repeating [animal, loud] repeating := by
  have hlocked : Repeating [animal, loud] ([animal] ++ locked :: [loud]) := .insert locked .none (by decide)
  have hvehicle : Repeating [animal, loud] ([animal, locked, loud] ++ vehicle :: []) :=
    .insert vehicle hlocked (by decide)
  have hnamesake : Repeating [animal, loud] ([animal, locked, loud, vehicle] ++ namesake :: []) :=
    .insert namesake hvehicle (by decide)
  exact hnamesake

end RepetitionExample

open RepetitionExample in
/-- A sealed class, a second one and a contract that stand behind types of their names are neither refused nor resolved. -/
theorem repetitions_collapse_animal :
    Repeating [animal, loud] repeating ∧ Classified.ofTypes repeating = .ok { base := some animal, mixins := [loud] } ∧
      Request.ofTypes repeating {} none = Request.ofTypes [animal, loud] {} none := by
  obtain ⟨hplaced, hrequest, -⟩ := repetitions_collapse [animal, loud] repeating repeating_types
  exact ⟨repeating_types, hplaced, (hrequest {} none).1⟩

end TestDouble
