import PluginSandbox.Compiler.Problem
import PluginSandbox.Compiler.Query
import PluginSandbox.Language.Tree

/-!
# Looking names up

A name that an import binds is found through the import, which counts as used from then on.  So the checker
remembers the imports of the unit it is at, and what each of them is bound to.
-/

namespace PluginSandbox

/-- What an import binds its name to: the entry that it names and where that was found, if it was, and whether the name
was used. -/
structure Binding where
  decl : Import
  target : Found
  used : Bool
  deriving DecidableEq, Inhabited

/-- A step of the checker: it asks and reports, and remembers the imports of the unit being checked. -/
abbrev Checker := StateT (List Binding) Query

namespace Checker

/-- Asks a question. -/
def ask (question : Question) : Checker Found :=
  StateT.lift (.ask question .done)

/-- Reports a problem at a place of a unit. -/
def report (unit : PluginUnit) (p : Position) (problem : CheckProblem) : Checker Unit :=
  StateT.lift (.report (problem.diagnostic unit.qualifiedName p) (.done ()))

/-- The package that is searched last for the name of a function. -/
def implicitPackage : String := "lang"

/-- The entry of a name in a package on the class path. -/
def findOnClassPath (package name : String) : Checker Found :=
  ask (.onClassPath package name)

/-- The entry of a name in a package in the first module of the platform that has one. -/
def findInModules (package name : String) : Checker Found :=
  ask (.inModules package name)

/-- The entry of a name in a package on the class path, else in the modules of the platform. -/
def findAnywhere (package name : String) : Checker Found := do
  match ← findOnClassPath package name with
  | some found => return some found
  | none => findInModules package name

/-- Binds the name of an import.  A name that is bound already is not bound again; a name that is not
found is bound to nothing. -/
def bindImport (unit : PluginUnit) (decl : Import) : Checker Unit := do
  if (← get).any fun b => b.decl.name = decl.name then
    report unit decl.position (.duplicateImport decl.name)
  else
    let target ← findAnywhere decl.package decl.name
    if target.isNone then report unit decl.position (.unknownSymbol decl.qualifiedName)
    modify fun bindings => bindings ++ [{ decl, target, used := false }]

/-- Whether a binding binds a name to something. -/
def bindsName (name : String) (b : Binding) : Bool :=
  b.decl.name = name && b.target.isSome

/-- What an import binds a name to; the import counts as used then. -/
def imported (name : String) : Checker Found := do
  match (← get).find? (bindsName name) with
  | none => return none
  | some b =>
    modify fun bindings =>
      bindings.map fun b => if bindsName name b then { b with used := true } else b
    return b.target

/-- What a name means that an import may bind: else it is looked for in a unit's own package. -/
def findOwn (unit : PluginUnit) (name : String) : Checker Found := do
  match ← imported name with
  | some found => return some found
  | none => findOnClassPath unit.package name

/-- Warns of those of some imports that were found but never used. -/
def warnUnusedAmong (unit : PluginUnit) : List Binding → Checker Unit
  | [] => return ()
  | b :: rest => do
    if b.target.isSome && !b.used then
      report unit b.decl.position (.unusedImport b.decl.qualifiedName)
    warnUnusedAmong unit rest

/-- Warns of the imports that were found but never used. -/
def warnUnused (unit : PluginUnit) : Checker Unit := do
  warnUnusedAmong unit (← get)

end Checker
end PluginSandbox
