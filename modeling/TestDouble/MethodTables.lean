import TestDouble.MethodDefinition
import TestDouble.OrderedMap

/-!
# The method tables of a test double

Methods of instances and methods of the type stand in two tables, each with at most one definition for a name. Beside them
stand the bodies that the mixins supply, whether or not a table uses them.
-/

namespace TestDouble

/-- The methods of a test double. -/
structure MethodTables where
  /-- The methods of instances, by name. -/
  instances : OrderedMap MethodDefinition := ∅
  /-- The methods of the type, by name. -/
  statics : OrderedMap MethodDefinition := ∅
  /-- The bodies that mixins supply. -/
  mixinBodies : List MethodDefinition := []
  deriving DecidableEq, Inhabited

namespace MethodTables

/-- All definitions, those of the type first. -/
def all (t : MethodTables) : List MethodDefinition := t.statics.values ++ t.instances.values

/-- The definitions of a table that have a visibility. -/
def withVisibility (table : OrderedMap MethodDefinition) (visibility : Visibility) : List MethodDefinition :=
  table.values.filter (fun definition => definition.visibility == visibility)

/-- The public methods of instances. -/
def publicMethods (t : MethodTables) : List MethodDefinition := withVisibility t.instances .isPublic

/-- The protected methods of instances. -/
def protectedMethods (t : MethodTables) : List MethodDefinition := withVisibility t.instances .isProtected

/-- The public methods of the type. -/
def publicStatics (t : MethodTables) : List MethodDefinition := withVisibility t.statics .isPublic

/-- The protected methods of the type. -/
def protectedStatics (t : MethodTables) : List MethodDefinition := withVisibility t.statics .isProtected

/-- The number of definitions in the two tables. -/
def size (t : MethodTables) : Nat := t.instances.size + t.statics.size

/-- Whether the two tables are empty. -/
def isEmpty (t : MethodTables) : Bool := t.instances.isEmpty && t.statics.isEmpty

end MethodTables

end TestDouble
