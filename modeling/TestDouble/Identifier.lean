import TestDouble.Text.Case
import TestDouble.TypeName

/-!
# Legal names

A name has the shape of an identifier when it starts with an ASCII letter, an underscore or a character outside ASCII and
goes on with those and decimal digits. A method name is legal when it has that shape and is not reserved; with relaxed
keywords only the word `class` stays forbidden. A type name is legal when every one of its segments has the shape and is not
reserved, whether keywords are relaxed or not. Reserved words are compared without regard to the case of ASCII letters.
-/

namespace TestDouble

namespace Identifier

/-- Characters an identifier may start with. -/
def isStart (c : Char) : Bool := c.isAlpha || c == '_' || decide (0x80 ≤ c.toNat)

/-- Characters an identifier may go on with. -/
def isPart (c : Char) : Bool := isStart c || c.isDigit

/-- Whether characters have the shape of an identifier. -/
def hasShapeChars : List Char → Bool
  | [] => false
  | c :: rest => isStart c && rest.all isPart

/-- Whether a text has the shape of an identifier. -/
def hasShape (text : String) : Bool := hasShapeChars text.toList

/-- The words that never read back as a plain identifier, in lower case. -/
def reservedWords : List String :=
  ["__halt_compiler", "abstract", "and", "array", "as", "break", "callable", "case", "catch", "class", "clone", "const",
    "continue", "declare", "default", "die", "do", "echo", "else", "elseif", "empty", "enddeclare", "endfor", "endforeach",
    "endif", "endswitch", "endwhile", "eval", "exit", "extends", "final", "finally", "fn", "for", "foreach", "function",
    "global", "goto", "if", "implements", "include", "include_once", "instanceof", "insteadof", "interface", "isset", "list",
    "match", "namespace", "new", "or", "print", "private", "protected", "public", "readonly", "require", "require_once",
    "return", "static", "switch", "throw", "trait", "try", "unset", "use", "var", "while", "xor", "yield", "__class__",
    "__dir__", "__file__", "__function__", "__line__", "__method__", "__namespace__", "__trait__"]

/-- The word that no method may be named, relaxed keywords or not. -/
def alwaysReserved : String := "class"

end Identifier

/-- Which names are legal in the code that is generated. -/
structure IdentifierRules where
  /-- Keywords are accepted as method names, all but one. -/
  relaxedKeywords : Bool := false
  /-- Words reserved on top of the built-in ones. -/
  additionalReserved : List String := []
  deriving DecidableEq, Inhabited

namespace IdentifierRules

/-- Whether a text is a reserved word. -/
def isReserved (rules : IdentifierRules) (text : String) : Bool :=
  Identifier.reservedWords.contains (Text.lowered text) ||
    (rules.additionalReserved.map Text.lowered).contains (Text.lowered text)

/-- Whether a method may be declared under a name. -/
def allowsMethod (rules : IdentifierRules) (name : String) : Bool :=
  Identifier.hasShape name &&
    if rules.relaxedKeywords then Text.lowered name != Identifier.alwaysReserved else !rules.isReserved name

/-- Whether a text may stand as one segment of a type name. -/
def allowsSegment (rules : IdentifierRules) (segment : String) : Bool :=
  Identifier.hasShape segment && !rules.isReserved segment

/-- Whether a type may be declared under a name: one separator in front is dropped, and every segment of the rest must be
legal. The empty name has one empty segment, which no rule allows. -/
def allowsType (rules : IdentifierRules) (name : String) : Bool :=
  (TypeName.segments (TypeName.unrooted name)).all rules.allowsSegment

/-- The legal method names among candidates, as a list in the order of the candidates. -/
def legalMethods (rules : IdentifierRules) (candidates : List String) : List String :=
  candidates.filter rules.allowsMethod

end IdentifierRules

end TestDouble
