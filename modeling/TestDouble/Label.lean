import TestDouble.Classified

/-!
# Labels and default names

Labels number the test doubles that get a default name. A counter hands them out one after another and starts over after the
last number of sixty-four bits. A default name is made of a configured beginning, the short name of the primary type, if
there is one, and a label.
-/

namespace TestDouble

/-- Hands out labels. -/
structure LabelCounter where
  /-- The label that is handed out next. -/
  next : UInt64 := 0
  deriving DecidableEq, Inhabited

namespace LabelCounter

/-- The next label, and the counter after it. -/
def draw (counter : LabelCounter) : UInt64 × LabelCounter := (counter.next, ⟨counter.next + 1⟩)

/-- A number of labels drawn one after another. -/
def drawMany : Nat → LabelCounter → List UInt64
  | 0, _ => []
  | count + 1, counter => counter.draw.1 :: drawMany count counter.draw.2

end LabelCounter

/-- The text of a label. -/
def labelText (label : UInt64) : String := Nat.repr label.toNat

/-- The default name of a test double with types, under a label. -/
def defaultName (start : String) (types : Classified) (label : UInt64) : String :=
  match types.primary with
  | some primary => start ++ "_" ++ primary.shortName ++ "_" ++ labelText label
  | none => start ++ "_" ++ labelText label

end TestDouble
