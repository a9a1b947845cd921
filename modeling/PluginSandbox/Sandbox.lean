import PluginSandbox.Compiler.Builtin
import PluginSandbox.Session.Report

/-!
# Sandboxes

A sandbox is what a host sets up once: a configuration, a platform, a toolchain and itself.  It takes units
through a session from its opening to a report, and the first unit is the one that is executed.
-/

namespace PluginSandbox

/-- What a host needs to compile and execute plugins: the configuration of its sessions, the platform, the toolchain, if
there is one, the host itself, and what its clock will show in a session. -/
structure Sandbox where
  configuration : Configuration
  catalogue : Catalogue
  toolchain : Option Toolchain
  host : Host
  clock : Clock

/-- The refusal of some units, with the audit events until then. -/
structure Refusal where
  cause : SandboxError
  trail : List AuditEvent := []
  deriving DecidableEq

namespace Sandbox

/-- The sandbox of a configuration with the platform and the toolchain of this library, before its clock is set. -/
def ofConfiguration (configuration : Configuration) (host : Host) : Sandbox where
  configuration := configuration
  catalogue := .standard configuration.contract
  toolchain := some Builtin.toolchain
  host := host
  clock := .still default

/-- Opens a session. -/
def start (b : Sandbox) (correlation : Correlation) : Except Refusal PendingSession :=
  (PendingSession.start correlation b.configuration b.catalogue b.toolchain b.clock).mapError fun e => ⟨e, []⟩

/-- Registers a unit, or refuses it with what the session has left so far. -/
def register (session : PendingSession) (unit : PluginUnit) : Except Refusal PendingSession :=
  (session.register unit).mapError fun e => ⟨e, session.trail⟩

/-- Opens a session, registers all units and compiles them.  The name of the first unit comes along. -/
def compile (b : Sandbox) (correlation : Correlation) (units : List PluginUnit) :
    Except Refusal (String × CompiledSession) := do
  match units with
  | [] => throw ⟨.config .noUnits, []⟩
  | first :: _ =>
    let session ← units.foldlM register (← b.start correlation)
    return (first.qualifiedName, session.compile)

/-- Compiles units and executes nothing. -/
def check (b : Sandbox) (correlation : Correlation) (units : List PluginUnit) :
    Except Refusal SessionReport := do
  let (_, session) ← b.compile correlation units
  return .ofCompiled session

/-- Compiles units and executes the first one within a deadline. -/
def runWithDeadline (b : Sandbox) (correlation : Correlation) (units : List PluginUnit)
    (millis : Nat) : Except Refusal SessionReport := do
  let (entry, session) ← b.compile correlation units
  if h : session.Succeeded then
    return .ofFinished (session.executeWithDeadline h b.host entry millis)
  else return .ofCompiled session

/-- Compiles units and executes the first one, within the deadline of the configuration.  Where there is
none, there is a report only if the execution ends within some number of steps. -/
def run (b : Sandbox) (correlation : Correlation) (units : List PluginUnit) (steps : Nat) :
    Except Refusal (Option SessionReport) := do
  match b.configuration.deadlineMillis with
  | some millis => some <$> b.runWithDeadline correlation units millis
  | none =>
    let (entry, session) ← b.compile correlation units
    if h : session.Succeeded then
      return (session.execute h b.host entry steps).map .ofFinished
    else return some (.ofCompiled session)

end Sandbox
end PluginSandbox
