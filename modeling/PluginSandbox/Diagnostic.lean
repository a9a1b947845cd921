import PluginSandbox.Json.Basic

/-!
# Diagnostics

What a toolchain reports about the units it compiles.  Diagnostics are kept in the order they were
reported; a compilation fails as soon as one of them is an error.
-/

namespace PluginSandbox

/-- How serious a diagnostic is.  Only an error keeps a compilation from succeeding. -/
inductive Severity where
  | error
  | warning
  | note
  deriving DecidableEq, Inhabited

namespace Severity

/-- The word that shows a severity to a reader. -/
def text : Severity → String
  | .error => "error"
  | .warning => "warning"
  | .note => "note"

/-- The name of a severity in a report. -/
def name : Severity → String
  | .error => "Error"
  | .warning => "Warning"
  | .note => "Note"

/-- The severity of a name in a report. -/
def ofName? (s : String) : Option Severity :=
  [error, warning, note].find? fun k => k.name = s

end Severity

/-- One report about a unit, which is given by its qualified name, or about the whole compilation.  Lines and columns
count from one. -/
structure Diagnostic where
  severity : Severity
  message : String
  line : Nat
  column : Nat
  unit : Option String
  deriving DecidableEq, Inhabited

namespace Diagnostic

/-- Whether a diagnostic is an error. -/
def isError (d : Diagnostic) : Bool :=
  d.severity == .error

/-- A diagnostic as a line of text. -/
def text (d : Diagnostic) : String :=
  let place := match d.unit with
    | some unit => unit ++ ":"
    | none => ""
  s!"{place}{d.line}:{d.column}: {d.severity.text}: {d.message}"

/-- A diagnostic in a report. -/
def toJson (d : Diagnostic) : Json :=
  .obj [("severity", .str d.severity.name), ("message", .str d.message), ("line", .nat d.line),
    ("column", .nat d.column), ("unit", Json.option Json.str d.unit)]

end Diagnostic

/-- Whether some diagnostic is an error. -/
def hasErrors (ds : Array Diagnostic) : Bool :=
  ds.any Diagnostic.isError

/-- The number of errors among some diagnostics. -/
def errorCount (ds : Array Diagnostic) : Nat :=
  ds.countP Diagnostic.isError

end PluginSandbox
