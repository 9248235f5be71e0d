import TestDouble.Identifier

/-!
# Configuration

What a user may set: which names are legal, and how the names of test doubles begin. `Config.validated` is applied to what is
read from a file: a beginning that has not the shape of an identifier gives way to the default.
-/

namespace TestDouble

/-- How test doubles are named. -/
structure Naming where
  /-- The beginning of a default name. -/
  start : String := "Mock"
  deriving DecidableEq, Inhabited

/-- A configuration. -/
structure Config where
  /-- Which names are legal. -/
  identifiers : IdentifierRules := {}
  /-- How test doubles are named. -/
  naming : Naming := {}
  deriving DecidableEq, Inhabited

/-- The configuration, with default naming where the beginning of names is no identifier. -/
def Config.validated (c : Config) : Config :=
  if Identifier.hasShape c.naming.start then c else { c with naming := {} }

/-- The default beginning of names is an identifier. -/
theorem Naming.hasShape_start : Identifier.hasShape ({} : Naming).start = true := by
  decide

/-- The names of a validated configuration begin with an identifier. -/
theorem Config.hasShape_validated (c : Config) : Identifier.hasShape c.validated.naming.start = true := by
  unfold Config.validated
  split
  · assumption
  · exact Naming.hasShape_start

end TestDouble
