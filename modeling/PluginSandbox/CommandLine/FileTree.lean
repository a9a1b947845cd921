import PluginSandbox.CommandLine.Files

/-!
# Files in memory

A tree of files and directories, as a host of commands.  A path is walked name by name, from the root or
from the working directory, and each name but the last one must lead to a directory.  The directory above
the root is the root itself.

The length of a path is bounded, and so is that of each of its names, where it is looked up.
-/

namespace PluginSandbox

/-- What is found at a path: a file, a directory, or a device that swallows what is written to it and has nothing to
read. -/
inductive FileNode where
  | file (bytes : ByteArray)
  | directory
  | sink
  deriving Inhabited

/-- Files and directories, the newest first, by the names that lead to them from the root, and the names that lead to
the working directory. -/
structure FileTree where
  home : List String := []
  nodes : List (List String × FileNode) := []
  deriving Inhabited

namespace FileTree

/-- The greatest number of bytes of a name. -/
def longestName : Nat :=
  255

/-- The greatest number of bytes of a path. -/
def longestPath : Nat :=
  4095

/-- What is found behind some names. -/
def node? (t : FileTree) (names : List String) : Option FileNode :=
  if names = [] then some .directory else t.nodes.lookup names

/-- The tree with something behind some names. -/
def put (t : FileTree) (names : List String) (node : FileNode) : FileTree :=
  { t with nodes := (names, node) :: t.nodes }

/-- The names behind one more name. -/
def step (names : List String) (name : String) : List String :=
  if name = "" ∨ name = "." then names
  else if name = ".." then names.dropLast
  else names ++ [name]

/-- The names that a walk along a path ends behind. -/
def walk (t : FileTree) (names : List String) : List String → Except FileError (List String)
  | [] => .ok names
  | name :: rest =>
    match t.node? names with
    | none => .error .notFound
    | some .directory =>
      if longestName < name.utf8ByteSize then .error .nameTooLong
      else t.walk (step names name) rest
    | some _ => .error .notDirectory

/-- The names that a path leads to. -/
def resolve (t : FileTree) (path : String) : Except FileError (List String) :=
  if path.contains '\x00' then .error .nulInPath
  else if longestPath < path.utf8ByteSize then .error .nameTooLong
  else if path = "" then .error .notFound
  else t.walk (if path.startsWith "/" then [] else t.home) (PathNames.splitSlashes path)

/-- What a path leads to. -/
def find (t : FileTree) (path : String) : Except FileError FileNode := do
  match t.node? (← t.resolve path) with
  | some node => return node
  | none => throw .notFound

/-- The bytes of a file. -/
def read (t : FileTree) (path : String) : Except FileError ByteArray := do
  match ← t.find path with
  | .file bytes => return bytes
  | .directory => throw .isDirectory
  | .sink => return .empty

/-- The tree with one more directory. -/
def createDirectory (t : FileTree) (path : String) : Except FileError FileTree := do
  let names ← t.resolve path
  match t.node? names with
  | some _ => throw .alreadyExists
  | none => return t.put names .directory

/-- The path of the directory that a path which ends in a slash lies in. -/
def aboveSlash (path : String) : String :=
  let names := (PathNames.splitSlashes path).reverse.dropWhile (· = "")
  "/".intercalate ((names.drop 1).reverse ++ ["."])

/-- The tree with an empty file where there was nothing.  A path that ends in a slash can only name a
directory. -/
def createFile (t : FileTree) (path : String) : Except FileError FileTree := do
  let names ← t.resolve path |>.mapError fun e =>
    if path.endsWith "/" ∧ (t.resolve (aboveSlash path)).isOk then .isDirectory else e
  match t.node? names with
  | some .directory => throw .isDirectory
  | some _ => return t
  | none => return t.put names (.file .empty)

/-- The tree with more bytes at the end of a file. -/
def append (t : FileTree) (path : String) (data : ByteArray) : FileTree :=
  match t.resolve path with
  | .error _ => t
  | .ok names =>
    match t.node? names with
    | some (.file bytes) => t.put names (.file (bytes ++ data))
    | _ => t

/-- The tree with a directory behind some names, unless there is one. -/
def withDirectory (t : FileTree) (names : List String) : FileTree :=
  if (t.node? names).isSome then t else t.put names .directory

/-- The tree with a file, and with every directory that its path leads through.  The names are those of the
path from some place on. -/
def addFile (bytes : ByteArray) (t : FileTree) (place : List String) : List String → FileTree
  | [] => t
  | [name] => t.put (step place name) (.file bytes)
  | name :: rest =>
    let place := step place name
    (t.withDirectory place).addFile bytes place rest

/-- What every tree holds: the directories of a system, the device that swallows what is written to it, and
a working directory. -/
def fresh (home : List String) : FileTree :=
  let system := ["bin", "dev", "etc", "home", "proc", "root", "sys", "tmp", "usr", "var"].map ([·])
  let leading := (List.range (home.length + 1)).map home.take
  (system ++ leading).foldl withDirectory { home, nodes := [(["dev", "null"], .sink)] }

/-- A fresh tree with some files, each with its path and its bytes. -/
def ofFiles (home : List String) (files : List (String × ByteArray)) : FileTree :=
  files.foldl (fun t (path, bytes) => t.addFile bytes t.home (PathNames.splitSlashes path))
    (fresh home)

/-- Replaces the tree, or gives an error. -/
def change (result : Except FileError FileTree) : StateM FileTree (Except FileError Unit) := do
  match result with
  | .ok t =>
    set t
    return .ok ()
  | .error e => return .error e

/-- A tree as the files of a host. -/
def files : Files (StateM FileTree) where
  read path := return (← get).read path
  present path := return (← get).find path matches .ok _
  isDirectory path := return (← get).find path matches .ok .directory
  createDirectory path := do change ((← get).createDirectory path)
  createFile path := do change ((← get).createFile path)
  append path text := modify fun t => t.append path text.toUTF8

end FileTree
end PluginSandbox
