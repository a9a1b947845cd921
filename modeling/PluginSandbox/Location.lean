import PluginSandbox.Json.Basic
import PluginSandbox.Json.Decoder
import PluginSandbox.Json.Shape
import PluginSandbox.Text.Dotted

/-!
# Locations and the names found there

A toolchain asks about packages at a *location*: one module of the platform, the class path where the
units and the contract type live, the place of the sources, or the place of the output.  What may be
seen is decided by *realm*, which is the location's name (`Location.realm`).

The module also holds the names that a listing shows: the contract type that every plugin implements
and the symbols of platform functions.
-/

namespace PluginSandbox

/-- A place that a toolchain asks about: a module of the platform, the class path, which is the realm of user code with
the units and the contract type, and where source text is kept and compiled output is bound. -/
inductive Location where
  | systemModule (name : String)
  | classPath
  | sourcePath
  | classOutput
  deriving DecidableEq, Inhabited

namespace Location

/-- The name of the realm of one platform module. -/
def systemModuleRealm (name : String) : String :=
  "system-modules[" ++ name ++ "]"

/-- The realm that decides what is visible at a location. -/
def realm : Location → String
  | .systemModule name => systemModuleRealm name
  | .classPath => "class-path"
  | .sourcePath => "source-path"
  | .classOutput => "class-output"

/-- The rank of a kind of location: platform modules come first. -/
def rank : Location → Nat
  | .systemModule _ => 0
  | .classPath => 1
  | .sourcePath => 2
  | .classOutput => 3

/-- The order of locations: platform modules by name, then the class path, the source path and the
output. -/
def le (a b : Location) : Bool :=
  match a, b with
  | .systemModule x, .systemModule y => !decide (y < x)
  | a, b => a.rank ≤ b.rank

/-- The written form of a location. -/
def toJson : Location → Json
  | .systemModule name => .tagged "SystemModule" (.str name)
  | .classPath => .str "ClassPath"
  | .sourcePath => .str "SourcePath"
  | .classOutput => .str "ClassOutput"

/-- The form of a location in a text. -/
def shape : Json.Shape :=
  .variant [("SystemModule", some .text), ("ClassPath", none), ("SourcePath", none),
    ("ClassOutput", none)]

/-- The location that a part of a text stands for. -/
def ofParsed? (p : Json.Parsed) : Option Location := do
  match ← p.variant? with
  | ("SystemModule", some payload) => payload.string?.map .systemModule
  | ("ClassPath", none) => some .classPath
  | ("ClassPath", some .null) => some .classPath
  | ("SourcePath", none) => some .sourcePath
  | ("SourcePath", some .null) => some .sourcePath
  | ("ClassOutput", none) => some .classOutput
  | ("ClassOutput", some .null) => some .classOutput
  | _ => none

/-- A location is a module of the platform. -/
def isSystemModule : Location → Bool
  | .systemModule _ => true
  | _ => false

end Location

/-- The kinds of entries that a listing may be asked for: the source text of a unit, the contract type, which is
compiled beforehand, and a function of the platform. -/
inductive EntryKind where
  | source
  | compiled
  | native
  deriving DecidableEq, Inhabited

namespace EntryKind

/-- The name of a kind. -/
def name : EntryKind → String
  | .source => "Source"
  | .compiled => "Compiled"
  | .native => "Native"

/-- Every kind, in order. -/
def all : List EntryKind :=
  [.source, .compiled, .native]

/-- The kind of a name. -/
def ofName? (s : String) : Option EntryKind :=
  all.find? fun k => k.name = s

/-- Kinds as a bracketed list of their names. -/
def listText (kinds : List EntryKind) : String :=
  "[" ++ ", ".intercalate (kinds.map name) ++ "]"

end EntryKind

/-- The abstract type that every plugin implements, with the package it lives in, which is also that of the units. -/
structure ContractType where
  package : String
  name : String
  deriving DecidableEq, Inhabited

namespace ContractType

/-- The one operation a plugin must export; it takes no arguments. -/
def entryOperation : String :=
  "execute"

/-- The contract type's name with its package. -/
def qualifiedName (c : ContractType) : String :=
  qualify c.package c.name

end ContractType

/-- A platform function as a toolchain sees it: the package it belongs to, its simple name and the number of arguments
it takes. -/
structure LibrarySymbol where
  package : String
  name : String
  arity : Nat
  deriving DecidableEq, Inhabited

/-- A symbol's name with its package. -/
def LibrarySymbol.qualifiedName (s : LibrarySymbol) : String :=
  qualify s.package s.name

end PluginSandbox
