import TestDouble.FilePath

/-!
# File trees

A file tree says what stands at which place: a directory or a file with its bytes. A place is the list of names that lead to
it from the root, and the root is a directory. A path is followed piece by piece: an empty piece and a dot stay where they
are, two dots go one level up, a name goes one level down, and each of these is possible only in a directory that exists. So
a path through a file or through a missing directory leads nowhere, even if two dots take it back. So does a path that is too
long to be followed. A relative path starts at the root.
-/

namespace TestDouble

/-- The names that lead from the root to a place, in bytes. -/
abbrev Place := List (List UInt8)

namespace FileTree

/-- What stands at a place. -/
inductive Entry where
  /-- A directory. -/
  | directory
  /-- A file and its bytes. -/
  | file (content : ByteArray)

end FileTree

/-- A file tree. -/
structure FileTree where
  /-- The places below the root at which something stands, each with what stands there. Of one place the first entry counts. -/
  entries : List (Place × FileTree.Entry) := []

namespace FileTree

/-- What stands at a place, if anything does. -/
def at? (tree : FileTree) (place : Place) : Option Entry :=
  if place.isEmpty then some .directory else tree.entries.lookup place

/-- Whether a directory stands at a place. -/
def isDirectory (tree : FileTree) (place : Place) : Bool :=
  match tree.at? place with
  | some .directory => true
  | _ => false

/-- The tree with something put at a place. -/
def put (tree : FileTree) (place : Place) (entry : Entry) : FileTree := ⟨(place, entry) :: tree.entries⟩

/-- What is put at a place other than the root stands there, and all else stands where it stood. -/
theorem at?_put (tree : FileTree) {place : Place} (h : place ≠ []) (entry : Entry) (other : Place) :
    (tree.put place entry).at? other = if other = place then some entry else tree.at? other := by
  cases other with
  | nil => simp [at?, Ne.symm h]
  | cons name rest =>
    by_cases he : name :: rest = place
    · subst he
      simp [at?, put]
    · have hb : (name :: rest == place) = false := by simpa using he
      simp [at?, put, List.lookup_cons, hb, he]

/-- The place that a piece of a path means, seen from a place. -/
def towards (place : Place) (piece : List UInt8) : Place :=
  if FilePath.isVoid piece then place
  else if FilePath.isUp piece then place.dropLast
  else place ++ [piece]

/-! ## Following paths -/

/-- The place that a piece of a path leads to, if something stands there. -/
def step? (tree : FileTree) (place : Place) (piece : List UInt8) : Option Place :=
  let next := towards place piece
  if tree.isDirectory place && (tree.at? next).isSome then some next else none

/-- The greatest number of bytes in a path that is followed. -/
def pathLimit : Nat := 4095

/-- The place that a path leads to; the empty path and one over the limit lead nowhere. -/
def resolve? (tree : FileTree) (path : FilePath) : Option Place :=
  if path.bytes.isEmpty || decide (pathLimit < path.bytes.length) then none
  else (FilePath.pieces path.bytes).foldlM tree.step? []

/-- The bytes of the file that a path leads to. -/
def read? (tree : FileTree) (path : FilePath) : Option ByteArray :=
  match (tree.resolve? path).bind tree.at? with
  | some (.file content) => some content
  | _ => none

/-- The text of the file that a path leads to, if its bytes are UTF-8. -/
def readText? (tree : FileTree) (path : FilePath) : Option String := (tree.read? path).bind String.fromUTF8?

/-- The path from the root to the directory that a path leads to, without dots. -/
def directory? (tree : FileTree) (path : FilePath) : Option FilePath :=
  match tree.resolve? path with
  | none => none
  | some place => if tree.isDirectory place then some ⟨FilePath.slash :: FilePath.joined place⟩ else none

/-! ## Making files and directories -/

/-- Follows a piece of a path; where nothing stands a directory is made. -/
def make? : FileTree × Place → List UInt8 → Option (FileTree × Place)
  | (tree, place), piece =>
    let next := towards place piece
    if tree.isDirectory place then
      match tree.at? next with
      | none => some (tree.put next .directory, next)
      | some _ => some (tree, next)
    else none

/-- The tree with a directory at the end of a path; directories that are missing on the way are made. -/
def withDirectory? (tree : FileTree) (path : FilePath) : Option FileTree :=
  match (FilePath.pieces path.bytes).foldlM make? (tree, []) with
  | none => none
  | some (later, place) => if later.isDirectory place then some later else none

/-- The tree with a file at the end of a path, in place of one that stands there; directories that are missing on the way are
made. -/
def withFile? (tree : FileTree) (path : FilePath) (content : ByteArray) : Option FileTree :=
  let pieces := FilePath.pieces path.bytes
  match pieces.dropLast.foldlM make? (tree, []) with
  | none => none
  | some (later, place) =>
    let next := towards place (pieces.getLast?.getD [])
    if later.isDirectory place && !later.isDirectory next then some (later.put next (.file content)) else none

end FileTree

end TestDouble
