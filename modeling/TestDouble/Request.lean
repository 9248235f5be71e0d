import TestDouble.Members

/-!
# Requests

A request is everything that the resolution of one test double depends on: its types, its custom members and the name asked
for, if one is. The types of a request have distinct names.
-/

namespace TestDouble

/-- What one test double is to be. -/
structure Request where
  /-- The types it is made like, in order. -/
  types : List SourceType
  /-- The members that the user supplies. -/
  members : Members
  /-- The name asked for, if one is. -/
  typeName : Option String
  /-- No name is that of two types. -/
  distinct : (types.map (·.name)).Nodup

namespace Request

/-- The request with the distinct ones among some types. -/
def ofTypes (types : List SourceType) (members : Members) (typeName : Option String) : Request where
  types := SourceType.distinct types
  members := members
  typeName := typeName
  distinct := SourceType.nodup_names_distinct types

instance : Inhabited Request := ⟨ofTypes [] {} none⟩

/-- Only the distinct types of a request matter. -/
theorem ofTypes_congr {types types' : List SourceType} (h : SourceType.distinct types = SourceType.distinct types')
    (members : Members) (typeName : Option String) : ofTypes types members typeName = ofTypes types' members typeName := by
  simp only [ofTypes, h]

/-- The names of the types, in order. -/
def typeNames (r : Request) : List String := r.types.map (·.name)

/-- Whether two requests ask for the same: the same types in the same order, the same members and the same name. -/
def sameAs (a b : Request) : Bool := a.types == b.types && a.members.sameAs b.members && a.typeName == b.typeName

end Request

end TestDouble
