import TestDouble.Fingerprint

/-!
# The order of fingerprints

Fingerprints are ordered field by field: types, methods, static methods, properties, static properties, constants, name.
Lists are ordered as words in a dictionary, and tables as lists of their entries, a name before its content. Texts are
ordered by code point, the absent before the present, and `false` before `true`. No callable comes before a named one, and a
named one before a closure.
-/

namespace TestDouble

/-- What orders a parameter. -/
def Parameter.rankKey (p : Parameter) : String × Bool × Bool × Bool × Option String :=
  (p.name, p.byReference, p.hasDefault, p.isVariadic, p.typeHint)

/-- What orders a callable: references in the first place, closures in the second, and the first come first. -/
def Callable.rankKey : Callable String → Bool × String × Option (String × UInt32 × UInt32)
  | .named reference => (false, reference, none)
  | .closure site => (true, "", some (site.file, site.startLine, site.endLine))

namespace Fingerprint

attribute [local instance] lexOrd

instance : Ord Parameter := ⟨compareOn Parameter.rankKey⟩

instance : Ord (Callable String) := ⟨compareOn Callable.rankKey⟩

/-- What orders a custom method. -/
def methodKey (m : CustomMethod String) : Option (Callable String) × List Parameter × Option String :=
  (m.callable, m.parameters, m.returnType)

instance : Ord (CustomMethod String) := ⟨compareOn methodKey⟩

/-- What orders a fingerprint: its fields in order, tables as their entries. -/
def rankKey (f : Fingerprint) :
    List String × List (String × CustomMethod String) × List (String × CustomMethod String) × List (String × String) ×
      List (String × String) × List (String × String) × Option String :=
  (f.types, f.methods.entries, f.staticMethods.entries, f.properties.entries, f.staticProperties.entries,
    f.constants.entries, f.typeName)

instance : Ord Fingerprint := ⟨compareOn rankKey⟩

end Fingerprint

end TestDouble
