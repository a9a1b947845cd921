import PluginSandbox.Audit.Timestamp
import PluginSandbox.CommandLine.Perform
import Std.Time.DateTime.Timestamp

/-!
# The command line

The host of the command line is the process itself: its files, its clock and its source of random bytes.
-/

namespace PluginSandbox

/-- The cause of an error of the process.  Its code has either sign, depending on what was called. -/
def fileErrorOf : IO.Error → FileError
  | .noFileOrDirectory .. => .notFound
  | .alreadyExists .. => .alreadyExists
  | .inappropriateType _ code _ =>
    if code = 21 ∨ code + 21 = 0 then .isDirectory else .notDirectory
  | .invalidArgument (some name) code details =>
    if code = 36 ∨ code + 36 = 0 then .nameTooLong
    else .other (toString (IO.Error.invalidArgument (some name) code details))
  | e => .other (toString e)

/-- Does something with a file and tells what went wrong. -/
def tryFile {α : Type} (action : IO α) : IO (Except FileError α) := do
  return (← action.toBaseIO).mapError fileErrorOf

/-- Opens a file and does nothing with it. -/
def touch (path : String) (mode : IO.FS.Mode) : IO (Except FileError Unit) :=
  tryFile (discard (IO.FS.Handle.mk path mode))

/-- The files of the process.  A path leads to a directory exactly when that directory's own entry can be
opened. -/
def processFiles : Files IO where
  read path := tryFile (IO.FS.readBinFile path)
  present path := return (← touch path .read).isOk
  isDirectory path := return (← touch (path ++ "/.") .read).isOk
  createDirectory path := tryFile (IO.FS.createDir path)
  createFile path := touch path .append
  append path text := IO.FS.withFile path .append fun file => file.putStr text

/-- The identifier that sixteen random bytes give: hexadecimal digits in five groups, with the marks of a
random identifier. -/
def identifierText (bytes : List UInt8) : String :=
  let digits := (bytes.zipIdx.map fun (b, i) =>
    if i = 6 then b % 16 + 64 else if i = 8 then b % 64 + 128 else b).flatMap fun b =>
      [Json.hexDigit (b.toNat / 16), Json.hexDigit (b.toNat % 16)]
  let group (start length : Nat) : String := String.ofList ((digits.drop start).take length)
  "-".intercalate [group 0 8, group 8 4, group 12 4, group 16 4, group 20 12]

/-- The moment of a time stamp of the process. -/
def timestampOf (t : Std.Time.Timestamp) : Timestamp :=
  let nanos := t.toNanosecondsSinceUnixEpoch.toInt
  { seconds := nanos / Timestamp.nanosInSecond, nanos := (nanos % Timestamp.nanosInSecond).toNat }

/-- The process as the host of commands.  Its clock is read when a session is opened, and that one reading stands for
all that the session takes. -/
def processHost : CommandHost IO where
  files := processFiles
  freshId := return identifierText (← IO.getRandomBytes 16).toList
  clock := return .still (timestampOf (← Std.Time.Timestamp.now))
  times := .utc

/-- The number of steps after which an execution without a deadline is given up: more than a machine takes
in a lifetime. -/
def patience : Nat :=
  1000000000000000000

end PluginSandbox

open PluginSandbox in
/-- Performs the command that the arguments describe. -/
def main (args : List String) : IO UInt32 := do
  match Command.ofArguments? args with
  | none =>
    IO.eprintln "usage: run | check | policy, with --name, --source, --unit, --config, --json, --deadline-ms"
    return 2
  | some command =>
    match ← command.perform processHost patience with
    | none => return 1
    | some ending =>
      IO.print ending.output
      IO.eprint ending.errors
      return ending.exitCode.toUInt32
