import TestDouble.Descriptor.Written
import TestDouble.FilePath
import TestDouble.Toml.Reader

/-!
# Configuration files

A configuration is kept in a TOML file of a fixed name. It is looked for in a directory and the directories above it, as many
as `Config.searchDepth` in all; a file that cannot be read as text, or that holds no configuration, is passed over for the
next one. A file that is asked for by its own path must be readable and hold a configuration. How a path is read is left open
here: any function from paths to texts will do.
-/

namespace TestDouble

/-- Why a configuration file that was asked for cannot be used. -/
inductive ConfigFailure where
  /-- There is no such file, or it is no text. -/
  | unreadable (file : FilePath)
  /-- The text is no configuration. -/
  | malformed

namespace ConfigFailure

/-- What is said of a file that cannot be read; what is said of a malformed one depends on what is wrong in it. -/
def message? : ConfigFailure → Option String
  | .unreadable file => some ("Failed to read config file " ++ file.shown)
  | .malformed => none

end ConfigFailure

namespace Config

/-- The name of a configuration file. -/
def fileName : FilePath := .ofText ".mockdef.toml"

/-- The number of directories in which a file is looked for. -/
def searchDepth : Nat := 10

/-- The configuration that a TOML text spells. -/
def ofToml? (text : String) : Option Config := ((Toml.document? text).bind (read? .toml)).map validated

/-- The files that may hold the configuration for a directory, the nearest first. -/
def filesFor (start : FilePath) : List FilePath := (FilePath.ancestors searchDepth start).map (·.join fileName)

/-- The configuration for a directory: that of the nearest file which has one, or the default. -/
def found (readText? : FilePath → Option String) (start : FilePath) : Config :=
  ((filesFor start).findSome? (fun file => (readText? file).bind ofToml?)).getD {}

/-- The configuration in a file. -/
def load (readText? : FilePath → Option String) (file : FilePath) : Except ConfigFailure Config :=
  match readText? file with
  | none => .error (.unreadable file)
  | some text =>
    match ofToml? text with
    | none => .error .malformed
    | some c => .ok c

end Config

end TestDouble
