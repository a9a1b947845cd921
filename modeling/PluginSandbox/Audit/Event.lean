import PluginSandbox.Audit.Timestamp
import PluginSandbox.Resolution
import PluginSandbox.Session.State

/-!
# Audit events

What a session does is recorded as events: its start, every decision of its resolver, every first binding
of an output, the end of its compilation, what its loader loads or refuses, and the end of its execution.

An event is stamped with the moment at which it is made, and with the severity of its kind unless it says otherwise.
-/

namespace PluginSandbox

/-- How much an audit event matters. -/
inductive AuditSeverity where
  | critical
  | high
  | medium
  | low
  deriving DecidableEq, Inhabited

/-- The name of a severity. -/
def AuditSeverity.name : AuditSeverity → String
  | .critical => "Critical"
  | .high => "High"
  | .medium => "Medium"
  | .low => "Low"

/-- The severity of a name. -/
def AuditSeverity.ofName? (s : String) : Option AuditSeverity :=
  [critical, high, medium, low].find? fun k => k.name = s

/-- The kinds of audit events.  A listing of the resolver is answered in one of three ways; an output is bound to a name
once; a loader loads a module, or there is none of that name, or the module refers to a platform function that plugins
do not see. -/
inductive AuditKind where
  | sessionStart
  | compileFinished
  | executionEnd
  | resolutionAllowed
  | resolutionContract
  | resolutionDenied
  | outputBound
  | artifactMaterialized
  | loadRejected
  | linkRejected
  deriving DecidableEq, Inhabited

namespace AuditKind

/-- Every kind. -/
def all : List AuditKind :=
  [.sessionStart, .compileFinished, .executionEnd, .resolutionAllowed, .resolutionContract,
   .resolutionDenied, .outputBound, .artifactMaterialized, .loadRejected, .linkRejected]

/-- The name of a kind. -/
def name : AuditKind → String
  | .sessionStart => "SessionStart"
  | .compileFinished => "CompileFinished"
  | .executionEnd => "ExecutionEnd"
  | .resolutionAllowed => "ResolutionAllowed"
  | .resolutionContract => "ResolutionContract"
  | .resolutionDenied => "ResolutionDenied"
  | .outputBound => "OutputBound"
  | .artifactMaterialized => "ArtifactMaterialized"
  | .loadRejected => "LoadRejected"
  | .linkRejected => "LinkRejected"

/-- The kind of a name. -/
def ofName? (s : String) : Option AuditKind :=
  all.find? fun k => k.name = s

/-- How much an event of a kind matters unless it says otherwise. -/
def severity : AuditKind → AuditSeverity
  | .resolutionDenied => .medium
  | .loadRejected => .high
  | .linkRejected => .critical
  | _ => .low

/-- The kind of event that a verdict is recorded as. -/
def ofVerdict : Verdict → AuditKind
  | .allowed => .resolutionAllowed
  | .contract => .resolutionContract
  | .denied => .resolutionDenied

end AuditKind

/-- What ties the events of a session together: the identifier of the session, and that of the request that opened
it. -/
structure Correlation where
  sessionId : String
  requestId : String
  deriving DecidableEq, Inhabited

/-- An audit event.  Its symbol is the name that it is about, and its state is the one that the session is in. -/
structure AuditEvent where
  kind : AuditKind
  severity : AuditSeverity
  timestamp : Timestamp
  details : String
  correlation : Option Correlation := none
  decision : Option Decision := none
  symbol : Option String := none
  state : Option SessionState := none
  deriving DecidableEq, Inhabited

namespace AuditEvent

/-- The event of a kind without further parts. -/
def ofKind (now : Timestamp) (kind : AuditKind) (details : String) : AuditEvent :=
  { kind, severity := kind.severity, timestamp := now, details }

/-- A session was opened with a toolchain. -/
def sessionStart (now : Timestamp) (c : Correlation) (toolchain : String) : AuditEvent :=
  { ofKind now .sessionStart s!"Session started with toolchain {toolchain}" with
    correlation := some c, state := some .pending }

/-- A listing was decided. -/
def resolution (now : Timestamp) (c : Correlation) (d : Decision) : AuditEvent :=
  { ofKind now (.ofVerdict d.verdict)
      s!"{d.realm} package {d.package} kinds {EntryKind.listText d.kinds}: {d.entries} entries" with
    correlation := some c, decision := some d }

/-- An output was bound for the first time. -/
def outputBound (now : Timestamp) (c : Correlation) (name unit : String) : AuditEvent :=
  { ofKind now .outputBound s!"Output for {name} bound from unit {unit}" with
    correlation := some c, symbol := some name }

/-- A compilation ended. -/
def compileFinished (now : Timestamp) (c : Correlation) (state : SessionState) (errors : Nat) : AuditEvent :=
  { ofKind now .compileFinished s!"Compilation finished: {state.text} ({errors} errors)" with
    correlation := some c, state := some state }

/-- A module was loaded. -/
def materialized (now : Timestamp) (c : Correlation) (name digest : String) : AuditEvent :=
  { ofKind now .artifactMaterialized s!"Materialized {name} (sha256 {digest})" with
    correlation := some c, symbol := some name }

/-- A name to be loaded was not among the artifacts. -/
def loadRejected (now : Timestamp) (c : Correlation) (name : String) : AuditEvent :=
  { ofKind now .loadRejected s!"{name} is not in this session's artifact set" with
    correlation := some c, symbol := some name }

/-- A module refers to a platform function that plugins do not see. -/
def linkRejected (now : Timestamp) (c : Correlation) (name symbol : String) : AuditEvent :=
  { ofKind now .linkRejected s!"{name} links forbidden symbol {symbol}" with
    correlation := some c, symbol := some symbol }

/-- An execution ended. -/
def executionEnd (now : Timestamp) (c : Correlation) (state : SessionState) (details : String) : AuditEvent :=
  { ofKind now .executionEnd details with
    severity := if state = .executionFailed then .medium else AuditKind.executionEnd.severity
    correlation := some c, state := some state }

end AuditEvent
end PluginSandbox
