import PluginSandbox.Arithmetic
import PluginSandbox.Failure

/-!
# Platform functions

The functions that a platform provides, what they see of the running plugin, and what they do.  A
function is reached from plugin code only where the loader has linked it.

A platform is not limited to the functions of this library: a host may define any others.  So a function (`Native`) is
whatever the host, the arguments and the running plugin's context determine.  It may fail as it likes, and it may take
lines back that the plugin has printed.

A function of this library takes any number of arguments: surplus ones are ignored, and where one is missing the
function says so or takes the unit value instead.
-/

namespace PluginSandbox

/-- What the functions of a platform can learn about its host: the text of a file, or why there is none, and the value
of an environment variable, if it is set. -/
structure Host where
  readFile : String → Except FileError String
  environment : String → Option String

/-- The host without files and variables. -/
def Host.empty : Host where
  readFile _ := .error .notFound
  environment _ := none

/-- How urgent a log line is. -/
inductive LogLevel where
  | info
  | warn
  | debug
  deriving DecidableEq, Inhabited

/-- The name of a level. -/
def LogLevel.name : LogLevel → String
  | .info => "INFO"
  | .warn => "WARN"
  | .debug => "DEBUG"

/-- What a function of a platform sees of the running plugin: its qualified name, and the lines that it has printed and
that were not taken. -/
structure NativeContext where
  plugin : String
  output : Array String := #[]
  deriving DecidableEq, Inhabited

namespace NativeContext

/-- The context after a line was printed. -/
def print (c : NativeContext) (line : String) : NativeContext :=
  { c with output := c.output.push line }

/-- The lines printed so far, and the context without them. -/
def takeOutput (c : NativeContext) : Array String × NativeContext :=
  (c.output, { c with output := #[] })

end NativeContext

/-- What a running plugin leaves behind it: what the functions that it calls see of it, and the lines that they
logged. -/
structure PluginContext extends NativeContext where
  log : Array (LogLevel × String) := #[]
  deriving DecidableEq, Inhabited

/-- What comes of a call of a platform function: what it gives, the plugin's context behind it, and the lines that it
logs, in order. -/
structure NativeReply where
  result : Except NativeFailure Value
  context : NativeContext
  logged : Array (LogLevel × String) := #[]

/-- A function of a platform. -/
structure Native where
  reply : Host → List Value → NativeContext → NativeReply

namespace Native

/-- A call of a function: what it gives and what it leaves behind. -/
def run (f : Native) (host : Host) (args : List Value) (c : PluginContext) :
    Except PluginFailure Value × PluginContext :=
  let reply := f.reply host args c.toNativeContext
  (reply.result.mapError .ofNative, { toNativeContext := reply.context, log := c.log ++ reply.logged })

/-! ## The functions of this library -/

/-- The first argument, or the unit value. -/
def first (args : List Value) : Value :=
  args.head?.getD .unit

/-- The integer among the arguments of a function at some index, counted from zero. -/
def intArg (function : String) (args : List Value) (index : Nat) : Except NativeFailure Int64 :=
  match args[index]? with
  | some (.int n) => .ok n
  | some other => .error (.fault (.wrongArgument function index .int other.type))
  | none => .error (.fault (.missingArgument function index))

/-- The string among the arguments of a function at some index, counted from zero. -/
def strArg (function : String) (args : List Value) (index : Nat) : Except NativeFailure String :=
  match args[index]? with
  | some (.str s) => .ok s
  | some other => .error (.fault (.wrongArgument function index .str other.type))
  | none => .error (.fault (.missingArgument function index))

/-- The integer that a function gives, or a fault where it does not fit. -/
def fitting (function : String) : Option Int64 → Except NativeFailure Value
  | some n => .ok (.int n)
  | none => .error (.fault (.functionOverflow function))

/-- A function that leaves nothing behind and learns nothing but its arguments. -/
def ofArgs (result : List Value → Except NativeFailure Value) : Native where
  reply _ args c := { result := result args, context := c }

/-- Signals failure. -/
def fail : Native :=
  ofArgs fun args => .error (.signaled (first args).text)

/-- Gives the text of a value. -/
def toText : Native :=
  ofArgs fun args => .ok (.str (first args).text)

/-- Gives the number of characters of a string. -/
def length : Native :=
  ofArgs fun args => do return .int (Int64.ofNat (← strArg "len" args 0).length)

/-- Signals failure unless a condition holds. -/
def assert : Native :=
  ofArgs fun
    | [] => .error (.fault .assertedNothing)
    | .bool true :: _ => .ok .unit
    | .bool false :: rest => .error (.signaled s!"assertion failed: {(first rest).text}")
    | other :: _ => .error (.fault (.assertedNonBool other.type))

/-- Gives the value itself. -/
def identity : Native :=
  ofArgs fun args => .ok (first args)

/-- Prints a line. -/
def print : Native where
  reply _ args c := { result := .ok .unit, context := c.print (first args).text }

/-- Gives the absolute value of an integer. -/
def abs : Native :=
  ofArgs fun args => do fitting "abs" (Arithmetic.abs? (← intArg "abs" args 0))

/-- Gives one of two integers. -/
def choice (function : String) (choose : Int64 → Int64 → Int64) : Native :=
  ofArgs fun args => do
    let a ← intArg function args 0
    let b ← intArg function args 1
    return .int (choose a b)

/-- Gives the larger of two integers. -/
def max : Native :=
  choice "max" fun a b => if a.toInt ≤ b.toInt then b else a

/-- Gives the smaller of two integers. -/
def min : Native :=
  choice "min" fun a b => if a.toInt ≤ b.toInt then a else b

/-- Gives a power of an integer. -/
def pow : Native :=
  ofArgs fun args => do
    let base ← intArg "pow" args 0
    let exponent ← intArg "pow" args 1
    if 0 ≤ exponent.toInt ∧ exponent.toInt < 1 <<< 32 then
      fitting "pow" (Arithmetic.pow? base exponent.toInt.toNat)
    else .error (.fault (.invalidExponent exponent))

/-- Gives the text of a file of the host. -/
def readFile : Native where
  reply host args c :=
    { result := do
        match host.readFile (← strArg "read_to_string" args 0) with
        | .ok text => return .str text
        | .error cause => .error (.fault (.unreadableFile cause))
      context := c }

/-- Gives the value of an environment variable of the host. -/
def envVar : Native where
  reply host args c :=
    { result := do return .str ((host.environment (← strArg "env_var" args 0)).getD "")
      context := c }

/-- Logs a line under the name of the plugin. -/
def log (level : LogLevel) : Native where
  reply _ args c :=
    { result := .ok .unit, context := c, logged := #[(level, s!"[{c.plugin}] {(first args).text}")] }

/-- Gives a secret of the host. -/
def secret : Native :=
  ofArgs fun _ => .ok (.str "host-secret")

/-- Gives the registry of the host. -/
def registry : Native :=
  ofArgs fun _ => .ok (.str "host-registry")

end Native
end PluginSandbox
