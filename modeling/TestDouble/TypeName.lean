import TestDouble.Text.Segments

/-!
# Names of types

A type name is a list of segments joined by separators, as in a namespace. A name may be written with one separator in front,
which marks it as fully qualified.
-/

namespace TestDouble.TypeName

/-- The character between the segments of a type name. -/
def separator : Char := '\\'

/-- Whether a character is the separator. -/
def isSeparator (c : Char) : Bool := c == separator

/-- The characters of a name without one separator in front, if there is one. -/
def dropLead : List Char → List Char
  | [] => []
  | c :: rest => if isSeparator c then rest else c :: rest

/-- The name without one separator in front, if there is one. -/
def unrooted (name : String) : String := String.ofList (dropLead name.toList)

/-- The name with one separator in front. -/
def rooted (name : String) : String := String.ofList (separator :: name.toList)

/-- Whether a name starts with a separator. -/
def isRooted (name : String) : Bool := name.toList.head?.any isSeparator

/-- The segments of a name. -/
def segments (name : String) : List String := (Text.segments isSeparator name.toList).map String.ofList

/-- The last segment of a name. -/
def short (name : String) : String := (segments name).getLastD name

/-- A separator that is put in front is dropped again. -/
theorem unrooted_rooted (name : String) : unrooted (rooted name) = name := by
  rw [unrooted, rooted, String.toList_ofList]
  exact String.ofList_toList

/-- A name with a separator in front is another name. -/
theorem rooted_ne (name : String) : rooted name ≠ name := by
  intro h
  have hlength := congrArg (fun text : String => text.toList.length) h
  simp [rooted] at hlength

/-- A name is itself without a separator in front exactly when it starts with none. -/
theorem unrooted_eq_self_iff (name : String) : unrooted name = name ↔ isRooted name = false := by
  have hlead : unrooted name = name ↔ dropLead name.toList = name.toList := by
    rw [unrooted, ← String.toList_inj, String.toList_ofList]
  rw [hlead, isRooted]
  cases name.toList with
  | nil => simp [dropLead]
  | cons c rest => by_cases hc : isSeparator c = true <;> simp [dropLead, hc]

end TestDouble.TypeName
