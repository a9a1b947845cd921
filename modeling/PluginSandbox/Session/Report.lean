import PluginSandbox.Session.Basic

/-!
# Reports

A report is what a host learns about a session: its states, its diagnostics, its output and what became of
the execution.
-/

namespace PluginSandbox

/-- An artifact as a report shows it: its name, its digest and the number of its bytes. -/
structure ArtifactSummary where
  name : String
  digest : String
  size : Nat
  deriving DecidableEq, Inhabited

namespace ArtifactSummary

/-- The summary of an artifact. -/
def ofArtifact (a : Artifact) : ArtifactSummary where
  name := a.name
  digest := a.digest
  size := a.bytes.size

/-- A summary in a report. -/
def toJson (a : ArtifactSummary) : Json :=
  .obj [("name", .str a.name), ("sha256", .str a.digest), ("bytes", .nat a.size)]

end ArtifactSummary

/-- What a host learns about a session: the state it ended in and those it passed through, the diagnostics and decisions
in order, the output in the order of the names, and what became of the execution.  The written report leaves out the
lines that the plugin logged, and the audit events. -/
structure SessionReport where
  sessionId : String
  state : SessionState
  history : List SessionState
  diagnostics : Array Diagnostic
  artifacts : List ArtifactSummary
  output : Array String := #[]
  failure : Option ExecutionFailure := none
  decisions : Array Decision
  log : Array (LogLevel × String) := #[]
  trail : List AuditEvent
  deriving DecidableEq, Inhabited

namespace SessionReport

/-- The report on a session that was compiled and not executed. -/
def ofCompiled (s : CompiledSession) : SessionReport where
  sessionId := s.correlation.sessionId
  state := s.state
  history := s.history
  diagnostics := s.diagnostics
  artifacts := s.artifacts.toList.map .ofArtifact
  decisions := s.decisions
  trail := s.trail

/-- The report on a session that was executed. -/
def ofFinished (s : FinishedSession) : SessionReport :=
  { ofCompiled s.toCompiledSession with
    output := s.output, failure := s.failure, log := s.log }

/-- The entry was executed and completed. -/
def succeeded (r : SessionReport) : Bool :=
  r.state == .executed

/-- The units compiled without errors. -/
def compiled (r : SessionReport) : Bool :=
  r.history.contains .compiledOk

/-- The written form of a report. -/
def toJson (r : SessionReport) : Json :=
  .obj [("session_id", .str r.sessionId), ("state", .str r.state.name),
    ("history", .arr (r.history.map fun s => .str s.name)),
    ("diagnostics", .arr (r.diagnostics.toList.map Diagnostic.toJson)),
    ("artifacts", .arr (r.artifacts.map ArtifactSummary.toJson)),
    ("output", Json.strings r.output.toList),
    ("failure", Json.option ExecutionFailure.toJson r.failure),
    ("decisions", .arr (r.decisions.toList.map Decision.toJson))]

end SessionReport
end PluginSandbox
