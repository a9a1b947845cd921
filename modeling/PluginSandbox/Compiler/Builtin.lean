import PluginSandbox.Bytecode.Encoding
import PluginSandbox.Compiler.Generator
import PluginSandbox.Compiler.Listing
import PluginSandbox.Language.Parser.Unit

/-!
# The built-in toolchain

The toolchain that comes with this library parses all units of a task, then checks and lowers one after
the other, and writes its output only if nothing was reported as an error: either every unit has output
or none has.

A name that a unit does not declare itself is looked for through the session, so a package that the
policy hides looks like one that does not exist.
-/

namespace PluginSandbox

/-- The functions of a unit with the numbers of their parameters, by the unit's name. -/
abbrev Signatures := List (String × List (String × Nat))

namespace Checker

/-- The entry that a plugin's supertype means.  A single name is an import or belongs to the unit's own
package; a path names a package of the class path. -/
def supertypeEntry (unit : PluginUnit) : List String → Checker Found
  | [name] => findOwn unit name
  | path => findOnClassPath (joinPath path.dropLast) (path.getLast?.getD "")

/-- The contract type that an entry is; any other entry is reported, and so is a missing one. -/
def contractOf (unit : PluginUnit) (path : List String) (p : Position) :
    Found → Checker (Option ContractType)
  | some (_, .contract contract) => return some contract
  | some _ => do
    report unit p (.notContract (joinPath path))
    return none
  | none => do
    report unit p (.unknownType (joinPath path))
    return none

/-- The contract type that a plugin's supertype means. -/
def supertype (unit : PluginUnit) (path : List String) (p : Position) :
    Checker (Option ContractType) := do
  contractOf unit path p (← supertypeEntry unit path)

/-- Reports every function whose name an earlier one has. -/
def duplicateFunctions (unit : PluginUnit) : List String → List FunctionDecl → Checker Unit
  | _, [] => return ()
  | seen, f :: rest => do
    if f.name ∈ seen then report unit f.position (.duplicateFunction f.name)
    duplicateFunctions unit (f.name :: seen) rest

/-- Reports a plugin without an entry operation, or with one that takes parameters. -/
def entryOperation (unit : PluginUnit) (plugin : PluginDecl) : Checker Unit := do
  match plugin.functions.find? fun f => f.name = ContractType.entryOperation with
  | none => report unit plugin.position (.missingEntry plugin.name)
  | some f => if !f.params.isEmpty then report unit f.position .entryParameters

/-- The compiled form of a plugin, if its supertype is the contract. -/
def plugin (unit : PluginUnit) (siblings : Signatures) (parsed : ParsedUnit) (decl : PluginDecl) :
    Checker (Option Module) := do
  if decl.name ≠ unit.shortName then
    report unit decl.position (.wrongName decl.name unit.shortName)
  let contract ← supertype unit decl.supertype decl.supertypePosition
  duplicateFunctions unit [] decl.functions
  entryOperation unit decl
  let ctx : UnitContext := { unit, functions := parsed.signatures, siblings }
  let functions ← decl.functions.mapM (Generator.function ctx)
  warnUnused unit
  return contract.map fun contract =>
    { formatVersion := Module.currentVersion, name := unit.qualifiedName
      contract := contract.qualifiedName, functions := functions.toArray }

/-- The compiled form of a unit, if it has one. -/
def unit (unit : PluginUnit) (siblings : Signatures) (parsed : ParsedUnit) :
    Checker (Option Module) := do
  set ([] : List Binding)
  parsed.imports.forM (bindImport unit)
  match parsed.plugin with
  | some decl => plugin unit siblings parsed decl
  | none =>
    report unit ⟨0, 0⟩ (.noPlugin unit.qualifiedName)
    warnUnused unit
    return none

/-- The compiled forms of some units, for those that have one. -/
def units (siblings : Signatures) :
    List (PluginUnit × ParsedUnit) → Checker (List (PluginUnit × Module))
  | [] => return []
  | (u, parsed) :: rest => do
    let m ← unit u siblings parsed
    let more ← units siblings rest
    match m with
    | some m => return (u, m) :: more
    | none => return more

end Checker

namespace Builtin

/-- The diagnostic of a syntax error in a unit. -/
def syntaxDiagnostic (unit : PluginUnit) (e : SyntaxError) : Diagnostic where
  severity := .error
  message := e.problem.text
  line := e.position.line
  column := e.position.column
  unit := some unit.qualifiedName

/-- Parses a unit and reports what is wrong with its text. -/
def parse (unit : PluginUnit) : Compilation (PluginUnit × ParsedUnit) := do
  let (parsed, errors) := ParsedUnit.ofSource unit.source
  errors.forM fun e => do
    let _ ← Compilation.request (.report (syntaxDiagnostic unit e))
  return (unit, parsed)

/-- Writes the output of a unit, and reports if that is refused. -/
def write (unit : PluginUnit) (m : Module) : Compilation Unit := do
  match ← Compilation.request (.output .classOutput unit.qualifiedName unit m.encode) with
  | .ok () => return ()
  | .error e =>
    let _ ← Compilation.request (.report
      { severity := .error, message := s!"failed to write output: {e.message}", line := 1, column := 1
        unit := some unit.qualifiedName })

/-- Whether anything was reported as an error so far. -/
def anyErrors : Compilation Bool := do
  return hasErrors (← Compilation.request .reported)

/-- Writes the output of all units, unless anything was reported as an error. -/
def writeAll (modules : List (PluginUnit × Module)) : Compilation Bool := do
  if ← anyErrors then return false
  modules.forM fun (u, m) => write u m
  return !(← anyErrors)

/-- Compiles units: either all of them have output, or none. -/
def compile (units : List PluginUnit) : Compilation Bool := do
  let parsed ← units.mapM parse
  let siblings := parsed.map fun (u, p) => (u.qualifiedName, p.signatures)
  let ((modules, _), _) ← ((Checker.units siblings parsed).run []).serve.run []
  writeAll modules

/-- The toolchain that comes with this library. -/
def toolchain : Toolchain where
  name := "scriptc"
  compile := compile

end Builtin
end PluginSandbox
