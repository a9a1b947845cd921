import PluginSandbox.Artifact
import PluginSandbox.Bytecode.Verify
import PluginSandbox.FileError
import PluginSandbox.Json.Complaint

/-!
# Errors and failures

`SandboxError` is what the library refuses to do for its host; `PluginFailure` is how a plugin fails to
complete; `ExecutionFailure` is how the execution phase of a session ends when it does not succeed.
Each is a cause, and its text is given by one function.
-/

namespace PluginSandbox

/-- Why an artifact cannot be loaded as a module: its bytes are none, it was written in another version of the format,
it declares another name than the one it is stored under, it implements another type than the contract, or its code is
flawed. -/
inductive Malformation where
  | undecodable (reason : Json.Complaint)
  | unsupportedVersion (version : Nat)
  | declaresName (name : String)
  | implementsOther (actual expected : String)
  | flawed (function : String) (flaw : CodeFlaw)
  deriving DecidableEq

/-- The text of a malformation. -/
def Malformation.text : Malformation → String
  | .undecodable reason => reason.text
  | .unsupportedVersion version => s!"unsupported format version {version}"
  | .declaresName name => s!"module declares name {name}"
  | .implementsOther actual expected => s!"module implements {actual} instead of {expected}"
  | .flawed function flaw => flaw.text function

/-- What can be wrong with a configuration, with the units that come with it, or with the audit log that it names.  The
rules that it breaks are given by their texts. -/
inductive ConfigProblem where
  | unreadable (cause : FileError)
  | unparsable (reason : Json.Complaint)
  | invalid (problems : List String)
  | noUnits
  | noAuditDirectory (cause : FileError)
  | noAuditLog (cause : FileError)
  deriving DecidableEq

/-- The text of a problem with a configuration. -/
def ConfigProblem.text : ConfigProblem → String
  | .unreadable cause => s!"Failed to read config file: {cause.text}"
  | .unparsable reason => s!"Failed to parse config JSON: {reason.text}"
  | .invalid problems => "Config validation failed:\n" ++ "\n".intercalate problems
  | .noUnits => "at least one plugin unit is required"
  | .noAuditDirectory cause => s!"Failed to create audit log directory: {cause.text}"
  | .noAuditLog cause => s!"Failed to open audit log: {cause.text}"

/-- Why the entry point of a module cannot be constructed.  A function of the platform may say so as well, in its
own words. -/
inductive EntryFlaw where
  | missing (module : String)
  | takesArguments (module : String)
  | reported (text : String)
  deriving DecidableEq

/-- The text of a flawed entry point. -/
def EntryFlaw.text : EntryFlaw → String
  | .missing module => s!"{module} does not export `{ContractType.entryOperation}`"
  | .takesArguments module => s!"{module}.{ContractType.entryOperation} must take no arguments"
  | .reported text => text

/-- What the library refuses to do.  A name that is not in a session is not among its artifacts, and a link is rejected
if plugins do not see the platform function that it is for. -/
inductive SandboxError where
  | noToolchain
  | notInSession (name : String)
  | entryPoint (name : String) (flaw : EntryFlaw)
  | malformedArtifact (name : String) (cause : Malformation)
  | linkRejected (name symbol : String)
  | invalidUnitName (name : String)
  | duplicateUnit (name : String)
  | unboundOutput (name : String) (location : Location)
  | config (problem : ConfigProblem)
  | refusedWrite (cause : SealedArtifact)
  deriving DecidableEq

/-- The text of an error. -/
def SandboxError.message : SandboxError → String
  | .noToolchain => "No toolchain available: the plugin compiler is not part of this build"
  | .notInSession name => s!"Symbol `{name}` was not produced by this session"
  | .entryPoint name flaw => s!"Entry point instantiation failed for `{name}`: {flaw.text}"
  | .malformedArtifact name cause => s!"Artifact `{name}` is malformed: {cause.text}"
  | .linkRejected name symbol =>
    s!"Artifact `{name}` links `{symbol}`, which is not visible to plugins"
  | .invalidUnitName name => s!"Invalid plugin unit name `{name}`"
  | .duplicateUnit name => s!"Plugin unit `{name}` is already registered in this session"
  | .unboundOutput name location =>
    s!"Output binding error: no output binding for {name} at {location.realm}"
  | .config problem => s!"Configuration error: {problem.text}"
  | .refusedWrite cause => s!"IO error: {cause.message}"

/-- Why a function of the platform faults.  Those of this library have causes of their own, and every other one gives
its own words.  Arguments count from zero. -/
inductive NativeFault where
  | wrongArgument (function : String) (index : Nat) (expected actual : ValueType)
  | missingArgument (function : String) (index : Nat)
  | assertedNonBool (actual : ValueType)
  | assertedNothing
  | functionOverflow (function : String)
  | invalidExponent (exponent : Int64)
  | unreadableFile (cause : FileError)
  | other (text : String)
  deriving DecidableEq

/-- The text of a platform function's fault. -/
def NativeFault.text : NativeFault → String
  | .wrongArgument function index expected actual =>
    s!"{function}: argument {index + 1} must be {expected.name}, got {actual.name}"
  | .missingArgument function index => s!"{function}: missing argument {index + 1}"
  | .assertedNonBool actual => s!"assert: condition must be bool, got {actual.name}"
  | .assertedNothing => "assert: missing condition"
  | .functionOverflow function => s!"{function}: integer overflow"
  | .invalidExponent exponent => s!"pow: invalid exponent {exponent.toInt}"
  | .unreadableFile cause => s!"read_to_string: {cause.text}"
  | .other text => text

/-- How a call of a platform function fails.  It can do so in every way that a plugin can, and it can break down. -/
inductive NativeFailure where
  | signaled (text : String)
  | fault (cause : NativeFault)
  | instantiation (text : String)
  | panicked (text : String)
  deriving DecidableEq

/-- The rules of the machine that a plugin can break, and the faults of the platform functions that it calls.  A unary
or binary operation names the types that it does not apply to. -/
inductive Fault where
  | operandUnderflow
  | slotOutOfRange
  | ranPastEnd
  | integerOverflow
  | divisionByZero
  | notApplicable (op : UnaryOp) (operand : ValueType)
  | notApplicable₂ (op : BinaryOp) (left right : ValueType)
  | conditionNotBool (actual : ValueType)
  | notLinked (symbol : String)
  | notLoaded (cause : SandboxError)
  | noFunction (unit function : String)
  | depthExceeded (limit : Nat)
  | unknownFunction
  | wrongArity (function : String) (expected actual : Nat)
  | native (cause : NativeFault)
  deriving DecidableEq

/-- The text of a fault. -/
def Fault.text : Fault → String
  | .operandUnderflow => "operand stack underflow"
  | .slotOutOfRange => "local slot out of range"
  | .ranPastEnd => "execution ran past the end of a function"
  | .integerOverflow => "integer overflow"
  | .divisionByZero => "division by zero"
  | .notApplicable op operand => s!"cannot apply {op.name} to {operand.name}"
  | .notApplicable₂ op left right => s!"cannot apply {op.name} to {left.name} and {right.name}"
  | .conditionNotBool actual => s!"condition must be bool, got {actual.name}"
  | .notLinked symbol => s!"symbol {symbol} is not linked"
  | .notLoaded cause => cause.message
  | .noFunction unit function => s!"{unit} has no function {function}"
  | .depthExceeded limit => s!"call depth limit of {limit} exceeded"
  | .unknownFunction => "call to unknown function"
  | .wrongArity function expected actual =>
    s!"{function} expects {expected} arguments, got {actual}"
  | .native cause => cause.text

/-- How the machine breaks down under a plugin: the slots of a frame are too many for any memory, or a function of the
platform breaks down. -/
inductive Breakdown where
  | capacityOverflow
  | native (text : String)
  deriving DecidableEq, Inhabited

/-- The text of a breakdown. -/
def Breakdown.text : Breakdown → String
  | .capacityOverflow => "capacity overflow"
  | .native text => text

/-- How a plugin fails to complete. -/
inductive PluginFailure where
  | signaled (text : String)
  | fault (cause : Fault)
  | instantiation (flaw : EntryFlaw)
  | crashed (cause : Breakdown)
  deriving DecidableEq

namespace PluginFailure

/-- The failure of a plugin that calls a platform function which fails. -/
def ofNative : NativeFailure → PluginFailure
  | .signaled text => .signaled text
  | .fault cause => .fault (.native cause)
  | .instantiation text => .instantiation (.reported text)
  | .panicked text => .crashed (.native text)

/-- The text of a plugin's failure. -/
def message : PluginFailure → String
  | .signaled text => s!"plugin signalled failure: {text}"
  | .fault cause => s!"plugin runtime fault: {cause.text}"
  | .instantiation flaw => s!"plugin instantiation failed: {flaw.text}"
  | .crashed cause => s!"plugin panicked: {cause.text}"

end PluginFailure

/-- How the execution phase of a session fails.  The entry cannot be loaded; its entry point cannot be constructed, or
so a function of the platform says; the plugin signals failure, breaks a rule, or has the machine break down under it;
or the deadline passes first. -/
inductive ExecutionFailure where
  | load (cause : SandboxError)
  | instantiation (reason : String)
  | signaled (text : String)
  | fault (cause : Fault)
  | crashed (cause : Breakdown)
  | deadlineExceeded (millis : Nat)
  deriving DecidableEq

namespace ExecutionFailure

/-- How the failure of a plugin ends the execution of an entry. -/
def ofPlugin : PluginFailure → ExecutionFailure
  | .signaled text => .signaled text
  | .fault cause => .fault cause
  | .instantiation flaw => .instantiation flaw.text
  | .crashed cause => .crashed cause

/-- How the execution of an entry ends that no plugin can be made of. -/
def ofEntry (entry : String) (failure : PluginFailure) : ExecutionFailure :=
  let flaw := match failure with
    | .instantiation flaw => flaw
    | other => .reported other.message
  .instantiation (SandboxError.entryPoint entry flaw).message

/-- The text of a failed execution. -/
def message : ExecutionFailure → String
  | .load cause => s!"load failed: {cause.message}"
  | .instantiation reason => reason
  | .signaled text => s!"plugin signalled failure: {text}"
  | .fault cause => s!"plugin runtime fault: {cause.text}"
  | .crashed cause => s!"plugin panicked: {cause.text}"
  | .deadlineExceeded millis => s!"execution abandoned after {millis} ms deadline"

/-- A failed execution in a report. -/
def toJson : ExecutionFailure → Json
  | .load cause => .tagged "Load" (.str cause.message)
  | .instantiation reason => .tagged "Instantiation" (.str reason)
  | .signaled text => .tagged "Signaled" (.str text)
  | .fault cause => .tagged "Fault" (.str cause.text)
  | .crashed cause => .tagged "Panicked" (.str cause.text)
  | .deadlineExceeded millis => .tagged "DeadlineExceeded" (.obj [("millis", .nat millis)])

end ExecutionFailure
end PluginSandbox
