import PluginSandbox.Machine.Plugin
import PluginSandbox.Session.State
import PluginSandbox.Toolchain

/-!
# Sessions

A session is one cycle of compilation and execution.  Its phases are types of their own, and each step
takes a session of one phase to one of a later phase:

* a `PendingSession` takes units, and `PendingSession.compile` runs the toolchain once over all of them;
* a `CompiledSession` holds sealed output, and only one that succeeded can be executed;
* a `FinishedSession` tells how that went.

Nothing a toolchain or a plugin does escapes the session.  A crash of the toolchain becomes an error among
the diagnostics, and a failure of the plugin becomes part of the finished session.
-/

namespace PluginSandbox

/-- What a session is in every phase.  Its resolver holds the units and the output.  The history has the states that it
has passed through, in order, and the trail has the audit events of its finished phases.  The clock is read once for
each event. -/
structure Session where
  correlation : Correlation
  configuration : Configuration
  clock : Clock
  resolver : Resolver
  history : List SessionState
  trail : List AuditEvent

namespace Session

/-- The state a session is in. -/
def state (s : Session) : SessionState :=
  s.history.getLast?.getD .pending

/-- The session in its next state. -/
def become (s : Session) (next : SessionState) : Session :=
  { s with history := s.history ++ [next] }

/-- The moment that the next event of a session is stamped with. -/
def now (s : Session) : Timestamp :=
  s.clock.reading s.trail.length

/-- The session with more audit events. -/
def record (s : Session) (events : List AuditEvent) : Session :=
  { s with trail := s.trail ++ events }

/-- The units of a session, in the order they were registered. -/
def units (s : Session) : List PluginUnit :=
  s.resolver.units

/-- The output of a session. -/
def artifacts (s : Session) : ArtifactStore :=
  s.resolver.artifacts

/-- The decisions of a session's resolver, in order. -/
def decisions (s : Session) : Array Decision :=
  s.resolver.decisions

end Session

/-- A session that has not been compiled, with the toolchain that will compile it. -/
structure PendingSession extends Session where
  toolchain : Toolchain

/-- A session that has been compiled, with success or without.  The diagnostics stand in the order in which they were
reported. -/
structure CompiledSession extends Session where
  diagnostics : Array Diagnostic

/-- A session whose entry has been executed, with success or without: the lines that the plugin printed, how it failed,
if it did, and the lines that it logged. -/
structure FinishedSession extends CompiledSession where
  output : Array String
  failure : Option ExecutionFailure
  log : Array (LogLevel × String)

namespace PendingSession

/-- Opens a session, which needs a toolchain. -/
def start (correlation : Correlation) (configuration : Configuration) (catalogue : Catalogue)
    (toolchain : Option Toolchain) (clock : Clock) : Except SandboxError PendingSession :=
  match toolchain with
  | none => .error .noToolchain
  | some toolchain =>
    .ok
      { correlation, configuration, toolchain, clock
        resolver := { catalogue, policy := .ofConfiguration configuration, correlation, clock := clock.behind 1 }
        history := [.pending]
        trail := [.sessionStart (clock.reading 0) correlation toolchain.name] }

/-- Adds a unit.  Each name can be taken once. -/
def register (s : PendingSession) (unit : PluginUnit) : Except SandboxError PendingSession :=
  if s.units.any fun u => u.qualifiedName = unit.qualifiedName then
    .error (.duplicateUnit unit.qualifiedName)
  else .ok { s with resolver := s.resolver.register unit }

/-- The diagnostic that a crash of the toolchain leaves. -/
def crashDiagnostic (text : Option String) : Diagnostic where
  severity := .error
  message := "toolchain crashed: " ++ text.getD "unknown panic payload"
  line := 1
  column := 1
  unit := none

/-- The diagnostics of a compilation, with the one that a crash leaves. -/
def diagnosticsOf (ending : CompilationEnd Bool) (reported : Array Diagnostic) : Array Diagnostic :=
  match ending with
  | .done _ => reported
  | .crashed text => reported.push (crashDiagnostic text)

/-- Runs the toolchain once over all units and seals the output.  The session compiles if the toolchain
says so and no diagnostic is an error. -/
def compile (s : PendingSession) : CompiledSession :=
  let (ending, workspace) := (s.toolchain.compile s.units).run { resolver := s.resolver }
  let diagnostics := diagnosticsOf ending workspace.diagnostics
  let state :=
    if ending = .done true ∧ !hasErrors diagnostics then .compiledOk else .compiledFailed
  let compiling := { s.toSession.become .compiling with resolver := workspace.resolver.sealed }
  let compiled := (compiling.become state).record workspace.resolver.trail.toList
  { compiled.record [.compileFinished compiled.now s.correlation state (errorCount diagnostics)] with diagnostics }

end PendingSession

/-- The execution of an entry: loading it, making a plugin of it and running that.  There is a result once it has
ended; the lines that the plugin printed and logged and the audit events of loading are there in any case. -/
structure EntryRun where
  result : Option (Except ExecutionFailure Unit)
  output : Array String := #[]
  log : Array (LogLevel × String) := #[]
  loading : Array AuditEvent := #[]

namespace CompiledSession

/-- A session succeeded in compiling. -/
def Succeeded (s : CompiledSession) : Prop :=
  s.state = .compiledOk

instance (s : CompiledSession) : Decidable s.Succeeded :=
  inferInstanceAs (Decidable (s.state = .compiledOk))

/-- The loader of a session, before it has loaded anything. -/
def loader (s : CompiledSession) : Loader where
  source :=
    { artifacts := s.artifacts, policy := s.resolver.policy, catalogue := s.resolver.catalogue
      correlation := s.correlation, clock := s.clock.behind s.trail.length }

/-- The lines that are left of an execution: none if the machine broke down. -/
def keptOutput (result : Option (Except PluginFailure Unit)) (output : Array String) :
    Array String :=
  match result with
  | some (.error (.crashed _)) => #[]
  | _ => output

/-- The execution of an entry within a limit.  Loading it takes some of the time. -/
def runEntry (s : CompiledSession) (host : Host) (entry : String) (limit : Limit) : EntryRun :=
  match limit.behind? (s.loader.delay entry + 1) with
  | none => { result := none }
  | some limit =>
    let (loaded, loader) := s.loader.load entry
    match loaded with
    | .error cause => { result := some (.error (.load cause)), loading := loader.trail }
    | .ok m =>
      match Plugin.instantiate m s.configuration.maxCallDepth with
      | .error failure =>
        { result := some (.error (.ofEntry entry failure)), loading := loader.trail }
      | .ok plugin =>
        let run := plugin.execute host loader limit
        { result := run.result.map fun r => r.mapError .ofPlugin
          output := keptOutput run.result run.plugin.output
          log := run.plugin.context.log
          loading := run.loader.trail }

/-- The finished session behind the execution of an entry. -/
def finish (s : CompiledSession) (run : EntryRun) (result : Except ExecutionFailure Unit) :
    FinishedSession :=
  let (state, failure, summary) := match result with
    | .ok () => (SessionState.executed, none, s!"{run.output.size} lines of output")
    | .error failure => (SessionState.executionFailed, some failure, failure.message)
  let finished := (s.toSession.become state).record run.loading.toList
  { finished.record [.executionEnd finished.now s.correlation state summary] with
    diagnostics := s.diagnostics, output := run.output, failure, log := run.log }

/-- Executes an entry, if that ends within some number of steps.  What the plugin printed is kept also
when it fails, but not when the machine breaks down. -/
def execute (s : CompiledSession) (_ : s.Succeeded) (host : Host) (entry : String) (steps : Nat) :
    Option FinishedSession :=
  let run := s.runEntry host entry (.steps steps)
  run.result.map (s.finish run)

/-- The number of units of time in a millisecond of a deadline. -/
def unitsPerMilli : Nat :=
  20000

/-- Executes an entry within a deadline.  An execution that has not ended by then is abandoned, and what
it printed is lost. -/
def executeWithDeadline (s : CompiledSession) (_ : s.Succeeded) (host : Host) (entry : String)
    (millis : Nat) : FinishedSession :=
  let run := s.runEntry host entry (.time (millis * unitsPerMilli))
  match run.result with
  | some result => s.finish run result
  | none => s.finish { run with output := #[] } (.error (.deadlineExceeded millis))

end CompiledSession

namespace FinishedSession

/-- A session whose entry completed. -/
def Succeeded (s : FinishedSession) : Prop :=
  s.state = .executed

instance (s : FinishedSession) : Decidable s.Succeeded :=
  inferInstanceAs (Decidable (s.state = .executed))

end FinishedSession
end PluginSandbox
