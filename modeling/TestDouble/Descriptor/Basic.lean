import TestDouble.TypeName

/-!
# Types, methods and parameters

Descriptors of the types that a test double is made like. A type is extensible (a class that can be a base), a capability (a
contract that contributes the shapes of methods) or a mixin (which contributes method bodies). Descriptors are plain data;
the functions below build one descriptor from another.
-/

namespace TestDouble

/-- How a type takes part in a test double. -/
inductive TypeKind where
  /-- A type that can be a base; a test double has at most one. -/
  | extensible
  /-- A contract of methods. -/
  | capability
  /-- A source of method bodies. -/
  | mixin
  deriving DecidableEq, Inhabited

/-- Who may call a method. -/
inductive Visibility where
  /-- Everyone. -/
  | isPublic
  /-- The type and those that extend it. -/
  | isProtected
  /-- The type alone. -/
  | isPrivate
  deriving DecidableEq, Inhabited

/-- A parameter of a method. -/
structure Parameter where
  /-- The name. -/
  name : String
  /-- The argument is passed by reference. -/
  byReference : Bool := false
  /-- The argument may be left out. -/
  hasDefault : Bool := false
  /-- Any number of arguments may follow. -/
  isVariadic : Bool := false
  /-- The declared type, if there is one. -/
  typeHint : Option String := none
  deriving DecidableEq, Inhabited

namespace Parameter

/-- The parameter, passed by reference. -/
def asReference (p : Parameter) : Parameter := { p with byReference := true }

/-- The parameter, with a default. -/
def asOptional (p : Parameter) : Parameter := { p with hasDefault := true }

/-- The parameter, taking any number of arguments. -/
def asVariadic (p : Parameter) : Parameter := { p with isVariadic := true }

/-- The parameter, with a declared type. -/
def typed (p : Parameter) (hint : String) : Parameter := { p with typeHint := some hint }

end Parameter

/-- A method that a type declares. -/
structure Method where
  /-- The name. -/
  name : String
  /-- The parameters, in order. -/
  parameters : List Parameter := []
  /-- Who may call the method. -/
  visibility : Visibility := .isPublic
  /-- The method has no body. -/
  isAbstract : Bool := false
  /-- The method may not be overridden. -/
  isFinal : Bool := false
  /-- The method is a constructor. -/
  isConstructor : Bool := false
  /-- The method belongs to the type and not to its instances. -/
  isStatic : Bool := false
  /-- The declared type of the result, if there is one. -/
  returnType : Option String := none
  deriving DecidableEq, Inhabited

namespace Method

/-- The method with one more parameter at the end. -/
def addParameter (m : Method) (p : Parameter) : Method := { m with parameters := m.parameters ++ [p] }

/-- The method with another visibility. -/
def withVisibility (m : Method) (v : Visibility) : Method := { m with visibility := v }

/-- The method with a declared type of its result. -/
def returning (m : Method) (type : String) : Method := { m with returnType := some type }

/-- The method without a body. -/
def asAbstract (m : Method) : Method := { m with isAbstract := true }

/-- The method, not to be overridden. -/
def asFinal (m : Method) : Method := { m with isFinal := true }

/-- The method as a constructor. -/
def asConstructor (m : Method) : Method := { m with isConstructor := true }

/-- The method as one of the type itself. -/
def asStatic (m : Method) : Method := { m with isStatic := true }

/-- Whether only the declaring type may call the method. -/
def isPrivate (m : Method) : Bool := m.visibility == .isPrivate

/-- Whether the method is never overridden automatically: constructors and final methods are not. -/
def isUnmockable (m : Method) : Bool := m.isConstructor || m.isFinal

end Method

/-- A type that a test double may be made like. -/
structure SourceType where
  /-- The name. -/
  name : String
  /-- How the type takes part. -/
  kind : TypeKind
  /-- The methods, in order of declaration. -/
  methods : List Method := []
  /-- The type may not be extended. -/
  isSealed : Bool := false
  deriving DecidableEq, Inhabited

namespace SourceType

/-- The type with one more method at the end. -/
def addMethod (t : SourceType) (m : Method) : SourceType := { t with methods := t.methods ++ [m] }

/-- The type, not to be extended. -/
def asSealed (t : SourceType) : SourceType := { t with isSealed := true }

/-- The last segment of the name. -/
def shortName (t : SourceType) : String := TypeName.short t.name

/-- The methods that others can see, in order of declaration. -/
def visibleMethods (t : SourceType) : List Method := t.methods.filter (fun m => !m.isPrivate)

/-- The first type of each name, in order. A type is known by its name, so later ones of the same name add nothing. -/
def distinct : List SourceType → List SourceType
  | [] => []
  | t :: rest => t :: (distinct rest).filter (fun later => later.name != t.name)

/-- Every type of the distinct ones is one of the list. -/
theorem distinct_subset (types : List SourceType) : ∀ t ∈ distinct types, t ∈ types := by
  induction types with
  | nil => simp [distinct]
  | cons t rest ih =>
    intro u hu
    rcases List.mem_cons.mp hu with rfl | hu
    · exact List.mem_cons_self
    · exact List.mem_cons_of_mem t (ih u (List.mem_filter.mp hu).1)

/-- The names of distinct types are distinct. -/
theorem nodup_names_distinct (types : List SourceType) : ((distinct types).map (·.name)).Nodup := by
  induction types with
  | nil => simp [distinct]
  | cons t rest ih =>
    rw [distinct, List.map_cons, List.nodup_cons]
    refine ⟨?_, ih.sublist ((List.filter_sublist).map _)⟩
    intro h
    obtain ⟨u, hu, hname⟩ := List.mem_map.mp h
    have hne := (List.mem_filter.mp hu).2
    simp [hname] at hne

/-- Types with distinct names are all kept. -/
theorem distinct_eq_self {types : List SourceType} (h : (types.map (·.name)).Nodup) : distinct types = types := by
  induction types with
  | nil => rfl
  | cons t rest ih =>
    rw [List.map_cons, List.nodup_cons] at h
    rw [distinct, ih h.2, List.filter_eq_self.mpr]
    intro later hlater
    have hne : later.name ≠ t.name := fun e => h.1 (e ▸ List.mem_map_of_mem hlater)
    simpa using hne

/-- Types may be dropped by their names before or after the distinct ones are taken. -/
theorem filter_distinct (keep : String → Bool) (types : List SourceType) :
    (distinct types).filter (fun t => keep t.name) = distinct (types.filter (fun t => keep t.name)) := by
  induction types with
  | nil => rfl
  | cons t rest ih =>
    rw [distinct, List.filter_cons, List.filter_cons]
    cases hkeep : keep t.name with
    | true =>
      simp only [if_true, distinct, ← ih, List.filter_filter, Bool.and_comm]
    | false =>
      have hdropped : ∀ later : SourceType, (keep later.name && later.name != t.name) = keep later.name := by
        intro later
        by_cases he : later.name = t.name
        · rw [he, hkeep]
          rfl
        · simp [he]
      simp only [Bool.false_eq_true, if_false, ← ih, List.filter_filter, hdropped]

/-- Of types that are added only the distinct ones matter. -/
theorem distinct_append_distinct (types more : List SourceType) :
    distinct (types ++ distinct more) = distinct (types ++ more) := by
  induction types with
  | nil => exact distinct_eq_self (nodup_names_distinct more)
  | cons t rest ih => rw [List.cons_append, List.cons_append, distinct, distinct, ih]

/-- Of types that others are added to only the distinct ones matter. -/
theorem distinct_distinct_append (types more : List SourceType) :
    distinct (distinct types ++ more) = distinct (types ++ more) := by
  induction types with
  | nil => rfl
  | cons t rest ih =>
    have hdrop (listed : List SourceType) : (distinct listed).filter (fun later => later.name != t.name) =
        distinct (listed.filter (fun later => later.name != t.name)) := filter_distinct (fun name => name != t.name) listed
    have hrest : (distinct ((distinct rest).filter (fun later => later.name != t.name) ++ more)).filter
        (fun later => later.name != t.name) = (distinct (rest ++ more)).filter (fun later => later.name != t.name) := by
      rw [← ih, hdrop (_ ++ more), hdrop (distinct rest ++ more), List.filter_append, List.filter_append,
        List.filter_filter]
      simp only [Bool.and_self]
    rw [distinct, List.cons_append, distinct, hrest]
    rfl

end SourceType

end TestDouble
