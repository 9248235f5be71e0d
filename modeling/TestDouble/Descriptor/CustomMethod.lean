import TestDouble.Descriptor.Basic
import TestDouble.FilePath

/-!
# Custom methods

A custom method is one that the user of a test double supplies. What it calls is named by a reference, or is a closure.
Closures cannot be compared as values; the place where a closure was declared stands for it. The file of that place is given by
its path, and where a method is shown or written by a text (`CustomMethod.shown`), which says all only if the path is a text
(`CustomMethod.isWritable`).
-/

namespace TestDouble

/-- The place in a file where a closure was declared. -/
structure Site (Path : Type := FilePath) where
  /-- The file. -/
  file : Path
  /-- The first line of the declaration. -/
  startLine : UInt32
  /-- The last line of the declaration. -/
  endLine : UInt32
  deriving DecidableEq, Inhabited

/-- The same place, with its file given in another way. -/
def Site.map {Path Path' : Type} (f : Path → Path') (s : Site Path) : Site Path' := ⟨f s.file, s.startLine, s.endLine⟩

/-- Whether two sites are the same place. -/
def Site.sameAs (a b : Site) : Bool := a.file.sameAs b.file && a.startLine == b.startLine && a.endLine == b.endLine

/-- What a custom method calls. -/
inductive Callable (Path : Type := FilePath) where
  /-- A function known by name. -/
  | named (reference : String)
  /-- A closure, known by where it was declared. -/
  | closure (site : Site Path)
  deriving DecidableEq, Inhabited

/-- The same callable, with the file of a closure given in another way. -/
def Callable.map {Path Path' : Type} (f : Path → Path') : Callable Path → Callable Path'
  | .named reference => .named reference
  | .closure site => .closure (site.map f)

/-- Whether two callables are the same: the same reference, or closures declared in the same place. -/
def Callable.sameAs : Callable → Callable → Bool
  | .named a, .named b => a == b
  | .closure a, .closure b => a.sameAs b
  | _, _ => false

/-- A method supplied by the user. -/
structure CustomMethod (Path : Type := FilePath) where
  /-- What the method calls; a method without a callable has an empty body. -/
  callable : Option (Callable Path) := none
  /-- The parameters, in order. -/
  parameters : List Parameter := []
  /-- The declared type of the result, if there is one. -/
  returnType : Option String := none
  deriving DecidableEq, Inhabited

namespace CustomMethod

/-- A method that calls a function known by name. -/
def named (reference : String) : CustomMethod := { callable := some (.named reference) }

/-- A method that calls a closure. -/
def closure (site : Site) : CustomMethod := { callable := some (.closure site) }

/-- The method with one more parameter at the end. -/
def addParameter (m : CustomMethod) (p : Parameter) : CustomMethod := { m with parameters := m.parameters ++ [p] }

/-- The method with a declared type of its result. -/
def returning (m : CustomMethod) (type : String) : CustomMethod := { m with returnType := some type }

/-- The same method, with the file of a closure given in another way. -/
def map {Path Path' : Type} (f : Path → Path') (m : CustomMethod Path) : CustomMethod Path' where
  callable := m.callable.map (Callable.map f)
  parameters := m.parameters
  returnType := m.returnType

/-- The method with the file of a closure as it is shown. -/
def shown (m : CustomMethod) : CustomMethod String := m.map FilePath.shown

/-- The method that is given with the file of a closure as a text. -/
def ofText (m : CustomMethod String) : CustomMethod := m.map FilePath.ofText

/-- The file of a closure, where the method calls a closure. -/
def file? {Path : Type} (m : CustomMethod Path) : Option Path :=
  match m.callable with
  | some (.closure site) => some site.file
  | _ => none

/-- Whether nothing is lost when the method is shown: the path of the file of a closure is a text. -/
def isWritable (m : CustomMethod) : Bool := m.file?.all FilePath.isText

/-- A method is the same when the file of its closure is given in another way and back. -/
theorem map_map_eq_self {Path Path' : Type} {f : Path → Path'} {g : Path' → Path} {m : CustomMethod Path}
    (h : ∀ file, m.file? = some file → g (f file) = file) : (m.map f).map g = m := by
  obtain ⟨callable, parameters, returnType⟩ := m
  match callable with
  | none => rfl
  | some (.named reference) => rfl
  | some (.closure site) => simp only [map, Option.map_some, Callable.map, Site.map, h site.file rfl]

/-- A method of which nothing is lost is given by what is shown of it. -/
theorem ofText_shown {m : CustomMethod} (h : m.isWritable = true) : ofText m.shown = m := by
  refine map_map_eq_self fun file hfile => FilePath.ofText_shown ?_
  rwa [isWritable, hfile, Option.all_some] at h

/-- Of a method that is given with a text nothing else is shown. -/
@[simp] theorem shown_ofText (m : CustomMethod String) : (ofText m).shown = m :=
  map_map_eq_self fun file _ => FilePath.shown_ofText file

/-- Nothing is lost of a method that is given with a text. -/
@[simp] theorem isWritable_ofText (m : CustomMethod String) : (ofText m).isWritable = true := by
  obtain ⟨callable, parameters, returnType⟩ := m
  match callable with
  | none => rfl
  | some (.named reference) => rfl
  | some (.closure site) => exact FilePath.isText_ofText site.file

/-- Whether two callables, each possibly absent, are the same. -/
def sameCallable : Option Callable → Option Callable → Bool
  | none, none => true
  | some a, some b => a.sameAs b
  | _, _ => false

/-- Whether two methods are the same, callables compared as `Callable.sameAs` says. -/
def sameAs (a b : CustomMethod) : Bool :=
  sameCallable a.callable b.callable && a.parameters == b.parameters && a.returnType == b.returnType

end CustomMethod

end TestDouble
