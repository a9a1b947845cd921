import PluginSandbox.Audit.Record
import PluginSandbox.CommandLine.Arguments
import PluginSandbox.CommandLine.Files
import PluginSandbox.Configuration.Reading
import PluginSandbox.Sandbox

/-!
# Performing commands

A command reads its configuration and opens the audit trail that it names, reads the units in order, takes
them through a session, and reports.  The first thing that goes wrong ends it.

`Command.perform` works in the monad of its host, so the same definition serves the command line itself and a
host whose files are kept in memory.
-/

namespace PluginSandbox

/-- What the command line needs of its host: its files, an identifier that was never used before, what its clock will
show, and how it writes moments. -/
structure CommandHost (m : Type → Type) where
  files : Files m
  freshId : m String
  clock : m Clock
  times : TimeFormat

/-- How a command ended: its exit code, which is zero for success, and what was written to the output and to the error
output. -/
structure CommandEnd where
  exitCode : UInt8
  output : String
  errors : String
  deriving DecidableEq, Inhabited

/-- Something that ends a command: what went wrong, and the reason behind it if there is one. -/
structure CommandError where
  message : String
  cause : Option String := none
  deriving DecidableEq, Inhabited

/-- Some lines as a text, each with its line break. -/
def unlines (lines : List String) : String :=
  String.join (lines.map (· ++ "\n"))

/-- A text with four blanks in front of each of its lines. -/
def indented (text : String) : String :=
  "    " ++ String.join (text.toList.map fun c => if c = '\n' then "\n    " else c.toString)

namespace CommandError

/-- The error of a sandbox that has no reason behind it. -/
def ofSandbox (e : SandboxError) : CommandError where
  message := e.message

/-- The text of an error. -/
def text (e : CommandError) : String :=
  match e.cause with
  | none => s!"Error: {e.message}\n"
  | some cause => s!"Error: {e.message}\n\nCaused by:\n{indented cause}\n"

/-- The end of a command that an error ended. -/
def ending (e : CommandError) : CommandEnd where
  exitCode := 1
  output := ""
  errors := e.text

end CommandError

namespace SessionReport

/-- What is shown of a report on the error output. -/
def errorLines (r : SessionReport) : List String :=
  let errors := errorCount r.diagnostics
  r.diagnostics.toList.map Diagnostic.text ++
    (if errors = 0 then [] else [s!"{errors} error(s); nothing was executed"]) ++
    (r.failure.toList.map fun f => s!"Execution failed: {f.message}") ++
    [s!"Session {r.sessionId}: {r.state.text}"]

/-- The end of a command that reports on a session. -/
def ending (r : SessionReport) (json success : Bool) : CommandEnd :=
  let exitCode := if success then 0 else 1
  if json then { exitCode, output := r.toJson.pretty ++ "\n", errors := "" }
  else { exitCode, output := unlines r.output.toList, errors := unlines r.errorLines }

end SessionReport

/-- What is shown of a policy: the contract type, and each pair of realm and package on a line. -/
def Policy.lines (p : Policy) : List String :=
  s!"contract: {p.contract.qualifiedName}" ::
    p.entries.map fun (realm, package) =>
      String.ofList (realm.toList.rightpad 32 ' ') ++ " " ++ package

namespace Command

variable {m : Type → Type} [Monad m]

/-- Goes on with a value, or ends the command because of what it was doing. -/
def orElse {α ε : Type} (doing : String) (reason : ε → String) (result : Except ε α) :
    ExceptT CommandError m α :=
  match result with
  | .ok a => return a
  | .error e => throw { message := doing, cause := some (reason e) }

/-- Opens the audit trail at a path, with the directories that it lies in. -/
def openTrail (files : Files m) (path : String) : m (Except SandboxError Unit) := do
  let directories ← match (PathNames.ofText path).parent? with
    | some above => files.createDirectories above.absolute above.reversed
    | none => pure (.ok ())
  match directories with
  | .error e => return .error (.config (.noAuditDirectory e))
  | .ok () => return (← files.createFile path).mapError fun e => .config (.noAuditLog e)

/-- The configuration in a file, or in the default one if that is there. -/
def readConfiguration (files : Files m) (path : Option String) :
    ExceptT CommandError m Configuration := do
  match path with
  | some path =>
    orElse s!"loading config {path}" SandboxError.message (Configuration.load (← files.read path))
  | none =>
    if ← files.present Configuration.defaultFile then
      orElse "loading default config" SandboxError.message
        (Configuration.load (← files.read Configuration.defaultFile))
    else return .default

/-- Reads the configuration and opens the audit trail that it names. -/
def configure (files : Files m) (path : Option String) : ExceptT CommandError m Configuration := do
  let configuration ← readConfiguration files path
  if let some trail := configuration.auditLog then
    let opened : Except SandboxError Unit ← liftM (openTrail files trail)
    orElse s!"opening audit log {trail}" SandboxError.message opened
  return configuration

/-- The unit of a name whose source is in a file. -/
def readUnit (files : Files m) (name path : String) : ExceptT CommandError m PluginUnit := do
  let source ← orElse s!"reading plugin source {path}" FileError.text
    (FileError.textOfFile (← files.read path))
  match PluginUnit.ofSource? name source with
  | some unit => return unit
  | none => throw (.ofSandbox (.invalidUnitName name))

/-- The unit of a name, an equals sign and a file. -/
def readNamedUnit (files : Files m) (text : String) : ExceptT CommandError m PluginUnit :=
  match splitEquals? text with
  | some (name, path) => readUnit files name path
  | none => throw { message := s!"unit '{text}' is not in NAME=PATH form" }

/-- The units that a command is about, in order. -/
def readUnits (files : Files m) (a : UnitArguments) : ExceptT CommandError m (List PluginUnit) := do
  let first ← readUnit files a.name a.source
  return first :: (← a.others.mapM (readNamedUnit files))

/-- Writes events at the end of the audit trail, if there is one. -/
def writeTrail (host : CommandHost m) (configuration : Configuration) (events : List AuditEvent) :
    m Unit := do
  if let some trail := configuration.auditLog then
    events.forM fun event => host.files.append trail (event.line host.times)

/-- Takes units through a session and writes its audit trail. -/
def report (host : CommandHost m) (a : UnitArguments)
    (session : Sandbox → Correlation → List PluginUnit → Except Refusal (Option SessionReport)) :
    ExceptT CommandError m (Option SessionReport) := do
  let configuration ← configure host.files a.configuration
  let units ← readUnits host.files a
  let correlation := { sessionId := ← host.freshId, requestId := ← host.freshId }
  let sandbox := { Sandbox.ofConfiguration configuration .empty with clock := ← host.clock }
  match session sandbox correlation units with
  | .error refusal =>
    liftM (writeTrail host configuration refusal.trail)
    throw (.ofSandbox refusal.cause)
  | .ok result =>
    if let some r := result then liftM (writeTrail host configuration r.trail)
    return result

/-- Performs a command, or ends it with an error.  An execution without a deadline must end within some
number of steps, or else the command does not end. -/
def attempt (host : CommandHost m) (steps : Nat) :
    Command → ExceptT CommandError m (Option CommandEnd)
  | .run a deadline => do
    let result ← report host a fun b c units =>
      match deadline with
      | some millis => some <$> b.runWithDeadline c units millis
      | none => b.run c units steps
    return result.map fun r => r.ending a.json r.succeeded
  | .check a => do
    let result ← report host a fun b c units => some <$> b.check c units
    return result.map fun r => r.ending a.json (r.state == .compiledOk)
  | .policy path => do
    let configuration ← configure host.files path
    match configuration.validate with
    | .error e => throw (.ofSandbox e)
    | .ok warnings =>
      return some
        { exitCode := 0
          output := unlines (Policy.ofConfiguration configuration).lines
          errors := unlines (warnings.map fun w => s!"Warning: {w.text}") }

/-- How a command ends, if it does. -/
def perform (host : CommandHost m) (steps : Nat) (c : Command) : m (Option CommandEnd) := do
  match ← (attempt host steps c).run with
  | .ok ending => return ending
  | .error e => return some e.ending

end Command
end PluginSandbox
