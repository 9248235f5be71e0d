import TestDouble.Text.Segments
import TestDouble.Text.Utf8

/-!
# File paths

A path is a sequence of bytes with slashes. Most paths are texts in UTF-8, but any bytes will do; where a path that is no text
has to be shown as one, what cannot be read in it is replaced. The components of a path are what stands between the slashes:
empty pieces mean nothing, and a single dot means something only at the very start of a path that does not begin with a slash.
Two paths name the same place when their components are the same. The parent of a path is what stands up to its last component; a
path without components and the root have none.
-/

namespace TestDouble

/-- A file path as written. -/
structure FilePath where
  /-- The bytes of the path. -/
  bytes : List UInt8
  deriving DecidableEq, Inhabited

namespace FilePath

/-! ## Paths and texts -/

/-- The path that is written as a text. -/
def ofText (text : String) : FilePath := ⟨Text.utf8 text⟩

/-- The text that a path is written as, if it is a text. -/
def text? (path : FilePath) : Option String := Text.ofUtf8? path.bytes

/-- Whether a path is a text. -/
def isText (path : FilePath) : Bool := path.text?.isSome

/-- The text that is shown of a path. -/
def shown (path : FilePath) : String := Text.mended path.bytes

@[simp] theorem text?_ofText (text : String) : (ofText text).text? = some text := Text.ofUtf8?_utf8 text

@[simp] theorem isText_ofText (text : String) : (ofText text).isText = true := by
  rw [isText, text?_ofText, Option.isSome_some]

@[simp] theorem shown_ofText (text : String) : (ofText text).shown = text := Text.mended_utf8 text

/-- A path that is a text is written as what is shown of it. -/
theorem ofText_shown {path : FilePath} (h : path.isText = true) : ofText path.shown = path := by
  obtain ⟨text, htext⟩ := Option.isSome_iff_exists.mp h
  have hbytes : path.bytes = Text.utf8 text := (Text.ofUtf8?_eq_some_iff path.bytes text).mp htext
  rw [ofText, shown, hbytes, Text.mended_utf8, ← hbytes]

/-! ## Components -/

/-- A component of a path. -/
inductive Component where
  /-- The root: the path starts with a slash. -/
  | root
  /-- The place where the path starts, written as a dot. -/
  | here
  /-- One level up, written as two dots. -/
  | up
  /-- A file or directory with a name. -/
  | name (bytes : List UInt8)
  deriving DecidableEq, Repr

/-- The byte that separates the pieces of a path. -/
def slash : UInt8 := 0x2F

/-- The byte of which the pieces with a meaning of their own are made. -/
def dot : UInt8 := 0x2E

/-- Whether a byte separates the pieces of a path. -/
def isSlash (byte : UInt8) : Bool := byte == slash

/-- The pieces of a path between its slashes. -/
def pieces (path : List UInt8) : List (List UInt8) := Text.segments isSlash path

/-- Whether a path starts at the root. -/
def isAbsolute : List UInt8 → Bool
  | [] => false
  | byte :: _ => isSlash byte

/-- Whether a piece that is not the first one of its path means nothing. -/
def isVoid (piece : List UInt8) : Bool := piece == [] || piece == [dot]

/-- Whether a piece means one level up. -/
def isUp (piece : List UInt8) : Bool := piece == [dot, dot]

/-- The component that a piece stands for, if it is neither empty nor a dot. -/
def component (piece : List UInt8) : Component :=
  if isUp piece then .up else .name piece

/-- The component at the start of a path, read off its first piece. -/
def firstComponent (path : List UInt8) (piece : List UInt8) : List Component :=
  if isAbsolute path then [.root]
  else if piece = [] then []
  else if piece = [dot] then [.here]
  else [component piece]

/-- The components of a path, from the first to the last. -/
def components (path : FilePath) : List Component :=
  match pieces path.bytes with
  | [] => []
  | first :: rest => firstComponent path.bytes first ++ (rest.filter (fun piece => !isVoid piece)).map component

/-- Whether two paths have the same components. -/
def sameAs (a b : FilePath) : Bool := a.components == b.components

/-! ## Parents -/

/-- The pieces of a path without the meaningless ones at its end; the first piece stays. -/
def trimmed : List (List UInt8) → List (List UInt8)
  | [] => []
  | first :: rest => first :: (rest.reverse.dropWhile isVoid).reverse

/-- Pieces put together with slashes between them. -/
def joined : List (List UInt8) → List UInt8
  | [] => []
  | [piece] => piece
  | piece :: next :: rest => piece ++ slash :: joined (next :: rest)

/-- The bytes of a path up to its last component: of a single component nothing or, below the root, the root is left. -/
def parentBytes? (path : List UInt8) : Option (List UInt8) :=
  match trimmed (pieces path) with
  | [] => none
  | [only] =>
    if only.isEmpty then none else some []
  | first :: next :: rest =>
    match trimmed (first :: (next :: rest).dropLast) with
    | [[]] => some [slash]
    | kept => some (joined kept)

/-- The path up to the last component. -/
def parent? (path : FilePath) : Option FilePath := (parentBytes? path.bytes).map FilePath.mk

/-- A path and the paths above it, from the path itself upwards, at most a given number of them. -/
def ancestors : Nat → FilePath → List FilePath
  | 0, _ => []
  | depth + 1, path =>
    match path.parent? with
    | none => [path]
    | some above => path :: ancestors depth above

/-- A path below another: an absolute path stands for itself, and no second slash follows one at the end. -/
def join (path below : FilePath) : FilePath :=
  if isAbsolute below.bytes then below
  else if path.bytes.isEmpty || path.bytes.getLast? == some slash then ⟨path.bytes ++ below.bytes⟩
  else ⟨path.bytes ++ slash :: below.bytes⟩

end FilePath

end TestDouble
