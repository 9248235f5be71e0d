import TestDouble.Refusal
import TestDouble.Text.Blank

/-!
# Keys of ad-hoc definitions

A key reads like a declaration: any number of modifiers and then a name, with white space between the words. The modifiers
are `static`, `function`, `var` and `const`; their order and repetition mean nothing. A constant takes no other modifier, and
no member is both a method and a property.
-/

namespace TestDouble

/-- A word in front of the name of a member. -/
inductive Modifier where
  /-- The member belongs to the type and not to its instances. -/
  | static
  /-- The member is a method. -/
  | function
  /-- The member is a property. -/
  | var
  /-- The member is a constant. -/
  | const
  deriving DecidableEq, Inhabited

namespace Modifier

/-- The word for a modifier. -/
def word : Modifier → String
  | .static => "static"
  | .function => "function"
  | .var => "var"
  | .const => "const"

/-- The modifier a word stands for. -/
def ofWord? (text : String) : Option Modifier :=
  [Modifier.static, .function, .var, .const].find? (fun modifier => modifier.word == text)

end Modifier

/-- A key that has been read. -/
structure MemberKey where
  /-- The name of the member. -/
  name : String
  /-- The key has the modifier `static`. -/
  isStatic : Bool := false
  /-- The key has the modifier `function`. -/
  isFunction : Bool := false
  /-- The key has the modifier `var`. -/
  isProperty : Bool := false
  /-- The key has the modifier `const`. -/
  isConstant : Bool := false
  deriving DecidableEq, Inhabited

namespace MemberKey

/-- The key with a name and modifiers. -/
def ofModifiers (name : String) (modifiers : List Modifier) : MemberKey where
  name := name
  isStatic := modifiers.contains .static
  isFunction := modifiers.contains .function
  isProperty := modifiers.contains .var
  isConstant := modifiers.contains .const

/-- The modifiers that words stand for; the first word that is no modifier is the flaw. -/
def modifiers : List String → Except Flaw (List Modifier)
  | [] => .ok []
  | word :: rest =>
    match Modifier.ofWord? word with
    | none => .error (.unknownModifier word)
    | some modifier => (modifiers rest).map (modifier :: ·)

/-- The flaw of a key whose modifiers do not go together. -/
def clash? (key : MemberKey) : Option Flaw :=
  if key.isConstant && (key.isStatic || key.isFunction || key.isProperty) then some .modifiedConstant
  else if key.isFunction && key.isProperty then some .methodAndProperty
  else none

/-- The key that words spell: the last word is the name, whatever it is, and the words before it are modifiers. -/
def ofWords (words : List String) : Except Flaw MemberKey :=
  match words.getLast? with
  | none => .error .missingName
  | some name =>
    match modifiers words.dropLast with
    | .error flaw => .error flaw
    | .ok found =>
      match clash? (ofModifiers name found) with
      | some flaw => .error flaw
      | none => .ok (ofModifiers name found)

/-- The key that a text spells. A refusal quotes the whole text. -/
def parse (text : String) : Except Refusal MemberKey :=
  (ofWords (Text.words text)).mapError (Refusal.malformedEntry text)

end MemberKey

end TestDouble
