import TestDouble.Descriptor.Written
import TestDouble.Json.Reader
import TestDouble.OrderedMap
import TestDouble.Refusal

/-!
# The registry of types

A registry holds the types that definitions may refer to, each under its own name. A type that is registered later replaces
an earlier one of the same name. A registry may be read off a JSON text that lists its types. A reference may carry one
separator in front, which is dropped before the name is looked up.
-/

namespace TestDouble

/-- Types by name. -/
structure Registry where
  /-- Each type under its name. -/
  types : OrderedMap SourceType
  deriving Inhabited

namespace Registry

/-- The registry without types. -/
def empty : Registry := ⟨∅⟩

/-- Adds a type, in place of one of the same name. -/
def register (r : Registry) (t : SourceType) : Registry := ⟨r.types.insert t.name t⟩

/-- The registry of the types in a list, registered one after another. -/
def ofList (types : List SourceType) : Registry := types.foldl register empty

/-- The types that a JSON text lists, if it is a list of types. -/
def typesOfText? (text : String) : Option (List SourceType) := (Json.document? text).bind (Document.list? SourceType.read?)

/-- The registry of the types that a JSON text lists, if it is a list of types. -/
def ofText? (text : String) : Option Registry := (typesOfText? text).map ofList

/-- The type that a reference means. -/
def get? (r : Registry) (reference : String) : Option SourceType := r.types.get? (TypeName.unrooted reference)

/-- Whether a reference means a type. -/
def contains (r : Registry) (reference : String) : Bool := r.types.contains (TypeName.unrooted reference)

/-- The number of types. -/
def size (r : Registry) : Nat := r.types.size

/-- Whether there are no types. -/
def isEmpty (r : Registry) : Bool := r.types.isEmpty

/-- The type that a reference means, or the refusal of a reference that means none. -/
def find (r : Registry) (reference : String) : Except Refusal SourceType :=
  match r.get? reference with
  | some t => .ok t
  | none => .error (.unknownType reference)

/-- The distinct types that references mean, in the order in which they are first referred to. The first reference that means
no type is refused. -/
def resolve (r : Registry) (references : List String) : Except Refusal (List SourceType) :=
  (references.mapM r.find).map SourceType.distinct

end Registry

end TestDouble
