import TestDouble.Classified
import TestDouble.Identifier
import TestDouble.Members
import TestDouble.MethodTables

/-!
# Merging methods into tables

The automatic methods of a test double are those that its types contribute. Private methods never count, and the names of
constructors and final methods of the base are closed to automatic methods. A name goes to the base before the mixins and to
the mixins before the capabilities; among mixins, and among capabilities, to the one listed first. Of several methods of one
name the base has, the last one counts. Names that no method may be declared under are dropped.

Custom methods come on top, first the static ones and then the others, and are not bound by any of this. A custom method
takes its name in its own table and drives an automatic method of that name out of the other one; a custom method and a custom
static method of one name stand side by side.
-/

namespace TestDouble

namespace Classified

/-- The methods of the base that are never overridden automatically. -/
def unmockableMethods (c : Classified) : List Method :=
  match c.base with
  | none => []
  | some base => base.visibleMethods.filter (fun m => m.isUnmockable)

/-- The names closed to automatic methods. -/
def unmockable (c : Classified) : NameSet := NameSet.ofList (c.unmockableMethods.map (·.name))

/-- Whether a name is open to automatic methods. -/
def isOpen (c : Classified) (name : String) : Bool := !c.unmockable.contains name

/-- The visible methods of a type under open names, each as a definition under its name. -/
def contributions (c : Classified) (define : Method → String → MethodDefinition) (t : SourceType) :
    List (String × MethodDefinition) :=
  (t.visibleMethods.filter (fun m => c.isOpen m.name)).map (fun m => (m.name, define m t.name))

/-- What the base contributes. -/
def fromBase (c : Classified) : List (String × MethodDefinition) :=
  match c.base with
  | none => []
  | some base => c.contributions .inherited base

/-- What the mixins contribute, in order. -/
def fromMixins (c : Classified) : List (String × MethodDefinition) := c.mixins.flatMap (c.contributions .mixinDefault)

/-- What the capabilities contribute, in order. -/
def fromCapabilities (c : Classified) : List (String × MethodDefinition) :=
  c.capabilities.flatMap (c.contributions .contract)

/-- The automatic method of each name, legal or not. -/
def automatic (c : Classified) : OrderedMap MethodDefinition :=
  (((∅ : OrderedMap MethodDefinition).insertAll c.fromBase).insertAllNew c.fromMixins).insertAllNew c.fromCapabilities

/-- The bodies that the mixins supply: their visible methods that are not abstract, in order, whatever becomes of them. -/
def mixinBodies (c : Classified) : List MethodDefinition :=
  c.mixins.flatMap
    (fun t => (t.visibleMethods.filter (fun m => !m.isAbstract)).map (fun m => .mixinDefault m t.name))

end Classified

namespace MethodTables

/-- The automatic methods that may be declared. -/
def declarable (rules : IdentifierRules) (c : Classified) : OrderedMap MethodDefinition :=
  c.automatic.filter (fun name _ => rules.allowsMethod name)

/-- The tables of the automatic methods alone: each stands among the methods of the type or of instances, as it is declared. -/
def ofAutomatic (rules : IdentifierRules) (c : Classified) : MethodTables where
  instances := (declarable rules c).filter (fun _ definition => !definition.isStatic)
  statics := (declarable rules c).filter (fun _ definition => definition.isStatic)
  mixinBodies := c.mixinBodies

/-- Puts a custom static method on top. It takes its name among the methods of the type, and nothing of that name stays among
the methods of instances. -/
def putStatic (t : MethodTables) (name : String) (method : CustomMethod) : MethodTables where
  instances := t.instances.erase name
  statics := t.statics.insert name (.custom name true method)
  mixinBodies := t.mixinBodies

/-- Whether the methods of the type hold a method of a name that the user did not supply. -/
def hasAutomaticStatic (t : MethodTables) (name : String) : Bool :=
  (t.statics.get? name).any (fun definition => !definition.isCustom)

/-- Puts a custom method on top. It takes its name among the methods of instances; a method of that name among those of the
type stays only if the user supplied it too. -/
def putInstance (t : MethodTables) (name : String) (method : CustomMethod) : MethodTables where
  instances := t.instances.insert name (.custom name false method)
  statics := if t.hasAutomaticStatic name then t.statics.erase name else t.statics
  mixinBodies := t.mixinBodies

/-- Puts custom static methods on top, one after another. -/
def putStatics (t : MethodTables) (entries : List (String × CustomMethod)) : MethodTables :=
  entries.foldl (fun acc entry => acc.putStatic entry.1 entry.2) t

/-- Puts custom methods on top, one after another. -/
def putInstances (t : MethodTables) (entries : List (String × CustomMethod)) : MethodTables :=
  entries.foldl (fun acc entry => acc.putInstance entry.1 entry.2) t

/-- The tables of a test double with types and custom members. -/
def ofClassified (rules : IdentifierRules) (c : Classified) (custom : Members) : MethodTables :=
  ((ofAutomatic rules c).putStatics custom.staticMethods.entries).putInstances custom.methods.entries

end MethodTables

/-- What a merge yields. -/
structure Merged where
  /-- The methods. -/
  tables : MethodTables
  /-- The names closed to automatic methods. -/
  unmockable : NameSet

/-- The merge of types with custom members. -/
def Merged.ofClassified (rules : IdentifierRules) (c : Classified) (custom : Members) : Merged where
  tables := MethodTables.ofClassified rules c custom
  unmockable := c.unmockable

end TestDouble
