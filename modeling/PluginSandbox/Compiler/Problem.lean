import PluginSandbox.Diagnostic
import PluginSandbox.Language.Token
import PluginSandbox.Location

/-!
# What the checker finds

The static rules of the plugin language that a unit can break, and the text that says so.  All of them
are errors, except for an import that is never used.
-/

namespace PluginSandbox

/-- What the checker has to say about a unit.  What cannot be seen is unknown to it. -/
inductive CheckProblem where
  | noPlugin (unit : String)
  | wrongName (actual expected : String)
  | duplicateFunction (name : String)
  | missingEntry (plugin : String)
  | entryParameters
  | duplicateImport (name : String)
  | unknownSymbol (path : String)
  | unusedImport (path : String)
  | notContract (path : String)
  | unknownType (path : String)
  | unknownPlugin (name : String)
  | callOnContract (contract : String)
  | callOnFunction (function : String)
  | wrongArity (function : String) (expected supplied : Nat)
  | duplicateParameter (name : String)
  | unknownValue (name : String)
  | variableCalled (name : String)
  | pluginCalled (name : String)
  | typeCalled (name : String)
  | unknownFunction (name : String)
  | noMember (target method : String)
  deriving DecidableEq

namespace CheckProblem

/-- The text of a problem. -/
def text : CheckProblem → String
  | .noPlugin unit => s!"unit `{unit}` declares no plugin"
  | .wrongName actual expected =>
    s!"plugin `{actual}` must be named `{expected}` to match its unit"
  | .duplicateFunction name => s!"function `{name}` is defined more than once"
  | .missingEntry plugin =>
    s!"plugin `{plugin}` does not implement `{ContractType.entryOperation}`"
  | .entryParameters => s!"`{ContractType.entryOperation}` must take no parameters"
  | .duplicateImport name => s!"`{name}` is imported more than once"
  | .unknownSymbol path => s!"cannot find symbol `{path}`"
  | .unusedImport path => s!"unused import `{path}`"
  | .notContract path => s!"`{path}` is not the plugin contract"
  | .unknownType path => s!"cannot find type `{path}`"
  | .unknownPlugin name => s!"cannot find plugin `{name}` in this scope"
  | .callOnContract contract => s!"cannot call functions on the contract type `{contract}`"
  | .callOnFunction function => s!"`{function}` is a function, not a plugin"
  | .wrongArity function expected supplied =>
    let plural := if expected = 1 then "" else "s"
    let verb := if supplied = 1 then "was" else "were"
    s!"function `{function}` takes {expected} argument{plural} but {supplied} {verb} supplied"
  | .duplicateParameter name => s!"parameter `{name}` is declared twice"
  | .unknownValue name => s!"cannot find value `{name}` in this scope"
  | .variableCalled name => s!"`{name}` is a variable, not a function"
  | .pluginCalled name => s!"plugin `{name}` is not a function"
  | .typeCalled name => s!"type `{name}` is not a function"
  | .unknownFunction name => s!"cannot find function `{name}` in this scope"
  | .noMember target method => s!"plugin `{target}` has no function `{method}`"

/-- How serious a problem is. -/
def severity : CheckProblem → Severity
  | .unusedImport _ => .warning
  | _ => .error

/-- The diagnostic of a problem at a place of a unit. -/
def diagnostic (problem : CheckProblem) (unit : String) (p : Position) : Diagnostic where
  severity := problem.severity
  message := problem.text
  line := max p.line 1
  column := max p.column 1
  unit := some unit

end CheckProblem
end PluginSandbox
