import PluginSandbox.Compiler.Meaning
import PluginSandbox.Language.Parser.Unit

/-!
# Programs

A program is what some units say together: their syntax trees, what the names in them mean, and the functions
of the platform.  A name that is called means a function of a unit or of the platform (`Callee`):

* in a call without a target, a function of the unit itself goes first;
* a call with a target calls a function of the plugin that the target means, which may be the unit itself.

A plugin may declare a name twice; the first function of a name is the one that is called.
-/

namespace PluginSandbox

/-- The functions that a source text declares. -/
def ParsedUnit.functions (p : ParsedUnit) : List FunctionDecl :=
  match p.plugin with
  | some plugin => plugin.functions
  | none => []

/-- The first function of a name that a source text declares. -/
def ParsedUnit.function? (p : ParsedUnit) (name : String) : Option FunctionDecl :=
  p.functions.find? fun f => f.name = name

/-- The function of the platform that a symbol at a location stands for. -/
def Catalogue.function? (c : Catalogue) (location : Location) (symbol : LibrarySymbol) :
    Option NativeFunction :=
  (c.package location symbol.package).find? fun f => f.symbol = symbol

/-- A unit and what its text says. -/
structure Member where
  unit : PluginUnit
  parsed : ParsedUnit

/-- The member of a program that a unit is. -/
def Member.ofUnit (u : PluginUnit) : Member where
  unit := u
  parsed := (ParsedUnit.ofSource u.source).1

/-- Units that may call one another and the platform, and what names mean to them. -/
structure Program where
  members : List Member
  meaning : Meaning
  catalogue : Catalogue

/-- What a call calls. -/
inductive Callee where
  | function (owner : Member) (decl : FunctionDecl)
  | native (function : NativeFunction)

namespace Program

/-- The program of the units of a session. -/
def ofResolver (r : Resolver) : Program where
  members := r.units.map Member.ofUnit
  meaning := r.meaning
  catalogue := r.catalogue

/-- The member of a qualified name. -/
def member? (p : Program) (name : String) : Option Member :=
  p.members.find? fun m => m.unit.qualifiedName = name

/-- What a name that is called without a target means in a unit. -/
def callee? (p : Program) (owner : Member) (name : String) : Option Callee :=
  match owner.parsed.function? name with
  | some decl => some (.function owner decl)
  | none =>
    match p.meaning.callee owner.unit owner.parsed.imports name with
    | some (location, .library symbol) => (p.catalogue.function? location symbol).map .native
    | _ => none

/-- What a name that is called on a target means in a unit. -/
def memberCallee? (p : Program) (owner : Member) (target method : String) : Option Callee := do
  match p.meaning.own owner.unit owner.parsed.imports target with
  | some (_, .unit unit) =>
    let other ← p.member? unit.qualifiedName
    let decl ← other.parsed.function? method
    return .function other decl
  | _ => none

end Program
end PluginSandbox
