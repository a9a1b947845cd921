import PluginSandbox.FileError

/-!
# Files of the command line

What the command line asks of the files of its host, in whatever monad the host lives, and what it builds
from that: creating a directory with those above it, and opening a file to write at its end.

Paths are sequences of names joined by slashes.  Empty names count for nothing, and neither do full stops
except at the start.
-/

namespace PluginSandbox

/-- What a host can do with its files.  A path is present if there is a file or a directory at it; a file is created
only where there is none; and text is written at the end of a file. -/
structure Files (m : Type → Type) where
  read : String → m (Except FileError ByteArray)
  present : String → m Bool
  isDirectory : String → m Bool
  createDirectory : String → m (Except FileError Unit)
  createFile : String → m (Except FileError Unit)
  append : String → String → m Unit

/-- A path as a start, which may be the root, and the names behind it, the last one first. -/
structure PathNames where
  absolute : Bool
  reversed : List String
  deriving DecidableEq, Inhabited

namespace PathNames

/-- The names of a path without those that count for nothing. -/
def significant : List String → List String
  | [] => []
  | first :: rest =>
    (if first = "" then [] else [first]) ++ rest.filter fun n => n ≠ "" ∧ n ≠ "."

/-- The parts of a text between slashes. -/
def splitSlashes (text : String) : List String :=
  go [] text.toList
where
  /-- The parts of some characters, the first one behind a part that has been read already. -/
  go (part : List Char) : List Char → List String
    | [] => [String.ofList part.reverse]
    | c :: rest =>
      if c = '/' then String.ofList part.reverse :: go [] rest else go (c :: part) rest

/-- The names of a path. -/
def ofText (text : String) : PathNames where
  absolute := text.startsWith "/"
  reversed := (significant (splitSlashes text)).reverse

/-- The text of a path. -/
def text (p : PathNames) : String :=
  (if p.absolute then "/" else "") ++ "/".intercalate p.reversed.reverse

/-- The directory that a path lies in; a path without names lies in none. -/
def parent? (p : PathNames) : Option PathNames :=
  match p.reversed with
  | [] => none
  | _ :: above => some { p with reversed := above }

end PathNames

namespace Files

variable {m : Type → Type} [Monad m]

/-- Creates a directory, or leaves it alone if it is there already. -/
def ensureDirectory (files : Files m) (path : String) : m (Except FileError Unit) := do
  match ← files.createDirectory path with
  | .ok () => return .ok ()
  | .error e => if ← files.isDirectory path then return .ok () else return .error e

/-- Creates a directory, and those above it where they are missing.  The names come with the last one
first. -/
def createDirectories (files : Files m) (absolute : Bool) : List String → m (Except FileError Unit)
  | [] => return .ok ()
  | name :: above => do
    let path := (PathNames.mk absolute (name :: above)).text
    match ← files.ensureDirectory path with
    | .error .notFound =>
      match ← files.createDirectories absolute above with
      | .ok () => files.ensureDirectory path
      | .error e => return .error e
    | result => return result

end Files
end PluginSandbox
