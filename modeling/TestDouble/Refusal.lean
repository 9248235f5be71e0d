/-!
# Refusals

Why a definition of a test double is refused. Each refusal has a stable code and a message that names what is at fault. The
refusals that come from the set of types asked for are told apart from those that come from members, names and timing.
-/

namespace TestDouble

/-- What is wrong with an entry of an ad-hoc definition. -/
inductive Flaw where
  /-- The key holds no word, so there is no name. -/
  | missingName
  /-- A word in front of the name is no modifier. -/
  | unknownModifier (word : String)
  /-- A constant has another modifier. -/
  | modifiedConstant
  /-- The key asks for a method and for a property. -/
  | methodAndProperty
  /-- The key asks for a method and the value is data. -/
  | dataForMethod
  /-- The key asks for a constant and the value is a method. -/
  | methodForConstant
  /-- A whole definition is data, but no object. -/
  | notAnObject
  /-- The key asks for a method and the data is no string to name it. -/
  | unnamedCallable
  /-- A method that is to be kept as data calls a closure in a file whose path is no text. -/
  | unwritablePath
  deriving DecidableEq

/-- The wording of a flaw. -/
def Flaw.reason : Flaw → String
  | .missingName => "missing member name"
  | .unknownModifier word => "unknown modifier '" ++ word ++ "'"
  | .modifiedConstant => "constants take no other modifiers"
  | .methodAndProperty => "a member cannot be both a method and a property"
  | .dataForMethod => "methods require a callable value"
  | .methodForConstant => "constants require a data value"
  | .notAnObject => "ad-hoc definitions must be keyed by member name"
  | .unnamedCallable => "methods must name their callable"
  | .unwritablePath => "path contains invalid UTF-8 characters"

/-- Why a definition is refused. -/
inductive Refusal where
  /-- Two extensible types are asked for. -/
  | secondBase (first second : String)
  /-- The extensible type is sealed. -/
  | sealedBase (name : String)
  /-- No type has the name. -/
  | unknownType (name : String)
  /-- Two different types have the name. -/
  | conflictingTypes (name : String)
  /-- An entry of an ad-hoc definition has a flaw; `key` is the text that is quoted. -/
  | malformedEntry (key : String) (flaw : Flaw)
  /-- An explicit name is no legal name of a type. -/
  | illegalName (name : String)
  /-- The definition can no longer be changed. -/
  | finalized
  deriving DecidableEq

namespace Refusal

/-- The stable code of a refusal. -/
def code : Refusal → String
  | .secondBase _ _ => "E060"
  | .sealedBase _ => "E061"
  | .unknownType _ => "E062"
  | .conflictingTypes _ => "E063"
  | .malformedEntry _ _ => "E070"
  | .illegalName _ => "E071"
  | .finalized => "E072"

/-- The wording of a refusal. -/
def message : Refusal → String
  | .secondBase first second => "Unable to extend '" ++ second ++ "': already extending '" ++ first ++ "'"
  | .sealedBase name => "Unable to extend sealed type '" ++ name ++ "'"
  | .unknownType name => "Undefined type '" ++ name ++ "'"
  | .conflictingTypes name => "Conflicting definitions for type '" ++ name ++ "'"
  | .malformedEntry key flaw => "Invalid definition '" ++ key ++ "': " ++ flaw.reason
  | .illegalName name => "Invalid type name '" ++ name ++ "'"
  | .finalized => "Unable to modify a finalized mock definition"

/-- Whether a refusal comes from the set of types asked for. -/
def concernsTypes : Refusal → Bool
  | .secondBase _ _ | .sealedBase _ | .unknownType _ | .conflictingTypes _ => true
  | _ => false

end Refusal

end TestDouble
