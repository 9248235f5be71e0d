import TestDouble.Request
import TestDouble.SortedMap

/-!
# Fingerprints

A fingerprint keeps what tells two test doubles apart and drops what does not. The order of types is kept, and of each type
only its name; the order in which members are listed is dropped; data is kept as its canonical text, and of the path of a file
what is shown of it.
-/

namespace TestDouble

/-- What identifies a test double. -/
structure Fingerprint where
  /-- The names of the types, in order. -/
  types : List String
  /-- The custom methods by name. -/
  methods : SortedMap (CustomMethod String)
  /-- The custom static methods by name. -/
  staticMethods : SortedMap (CustomMethod String)
  /-- The canonical texts of the properties by name. -/
  properties : SortedMap String
  /-- The canonical texts of the static properties by name. -/
  staticProperties : SortedMap String
  /-- The canonical texts of the constants by name. -/
  constants : SortedMap String
  /-- The name asked for, if one is. -/
  typeName : Option String
  deriving DecidableEq

namespace Fingerprint

/-- The canonical texts of data values by name. -/
def texts (values : OrderedMap Json) : SortedMap String := SortedMap.ofOrdered (values.map Json.canonicalText)

/-- Custom methods by name, with the files of closures as they are shown. -/
def shownMethods (methods : OrderedMap CustomMethod) : SortedMap (CustomMethod String) :=
  SortedMap.ofOrdered (methods.map CustomMethod.shown)

/-- The fingerprint of a request. -/
def ofRequest (r : Request) : Fingerprint where
  types := r.typeNames
  methods := shownMethods r.members.methods
  staticMethods := shownMethods r.members.staticMethods
  properties := texts r.members.properties
  staticProperties := texts r.members.staticProperties
  constants := texts r.members.constants
  typeName := r.typeName

end Fingerprint

end TestDouble
