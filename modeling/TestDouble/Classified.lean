import TestDouble.Descriptor.Basic
import TestDouble.Refusal

/-!
# Types by their part

The types of a definition are split into the one base, the capabilities and the mixins, the last two in the order listed.
Types are taken in order and the first one that cannot be placed is refused: a sealed extensible type, or an extensible type
after another one.
-/

namespace TestDouble

/-- The types of a definition by the part they take. -/
structure Classified where
  /-- The type that is extended, if there is one. -/
  base : Option SourceType := none
  /-- The contracts, in the order listed. -/
  capabilities : List SourceType := []
  /-- The sources of method bodies, in the order listed. -/
  mixins : List SourceType := []
  deriving DecidableEq, Inhabited

namespace Classified

/-- Places one more type. -/
def add (c : Classified) (t : SourceType) : Except Refusal Classified :=
  match t.kind with
  | .extensible =>
    if t.isSealed then .error (.sealedBase t.name)
    else
      match c.base with
      | some base => .error (.secondBase base.name t.name)
      | none => .ok { c with base := some t }
  | .capability => .ok { c with capabilities := c.capabilities ++ [t] }
  | .mixin => .ok { c with mixins := c.mixins ++ [t] }

/-- The distinct types of a list by the part they take. -/
def ofTypes (types : List SourceType) : Except Refusal Classified :=
  (SourceType.distinct types).foldlM add {}

/-- The type that a default name is taken from: the base, else the first capability, else the first mixin. -/
def primary (c : Classified) : Option SourceType :=
  c.base <|> c.capabilities.head? <|> c.mixins.head?

end Classified

end TestDouble
