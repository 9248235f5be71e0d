import TestDouble.Fingerprint
import TestDouble.MethodTables.Merge

/-!
# Resolution

To resolve a request is to place its types, merge its methods and take its fingerprint. A request whose types cannot be
placed is refused, and nothing else about it is looked at.
-/

namespace TestDouble

/-- Everything that the generation of one test double needs. -/
structure Resolution where
  /-- The methods. -/
  tables : MethodTables
  /-- The names closed to automatic methods. -/
  unmockable : NameSet
  /-- The name of the base, if there is one. -/
  base : Option String
  /-- The names of the capabilities, in order. -/
  capabilities : List String
  /-- The names of the mixins, in order. -/
  mixins : List String
  /-- The members that the user supplies. -/
  members : Members
  /-- The name asked for, if one is. -/
  typeName : Option String
  /-- What identifies the test double. -/
  fingerprint : Fingerprint

namespace Resolution

/-- The resolution of a request whose types are placed, from the merge of its methods. -/
def ofMerged (merged : Merged) (c : Classified) (r : Request) : Resolution where
  tables := merged.tables
  unmockable := merged.unmockable
  base := c.base.map (·.name)
  capabilities := c.capabilities.map (·.name)
  mixins := c.mixins.map (·.name)
  members := r.members
  typeName := r.typeName
  fingerprint := Fingerprint.ofRequest r

/-- The resolution of a request whose types are placed. -/
def ofClassified (rules : IdentifierRules) (c : Classified) (r : Request) : Resolution :=
  ofMerged (Merged.ofClassified rules c r.members) c r

/-- The resolution of a request. -/
def ofRequest (rules : IdentifierRules) (r : Request) : Except Refusal Resolution :=
  (Classified.ofTypes r.types).map (fun c => ofClassified rules c r)

/-- The resolutions of requests, each on its own, in order. -/
def ofRequests (rules : IdentifierRules) (requests : List Request) : List (Except Refusal Resolution) :=
  requests.map (ofRequest rules)

end Resolution

end TestDouble
