/-!
# The states of a session

A session is pending, then compiling, and compiles or fails to; one that compiled is executed and
succeeds or fails.  `SessionState.canBecome` holds exactly the steps of that course.
-/

namespace PluginSandbox

/-- The states of a session.  Units may be registered while it is pending, and the last two tell whether the entry unit
completed. -/
inductive SessionState where
  | pending
  | compiling
  | compiledOk
  | compiledFailed
  | executed
  | executionFailed
  deriving DecidableEq, Inhabited

namespace SessionState

/-- Every state. -/
def all : List SessionState :=
  [.pending, .compiling, .compiledOk, .compiledFailed, .executed, .executionFailed]

/-- The name of a state in a report. -/
def name : SessionState → String
  | .pending => "Pending"
  | .compiling => "Compiling"
  | .compiledOk => "CompiledOk"
  | .compiledFailed => "CompiledFailed"
  | .executed => "Executed"
  | .executionFailed => "ExecutionFailed"

/-- The state of a name in a report. -/
def ofName? (s : String) : Option SessionState :=
  all.find? fun state => state.name = s

/-- A state as a reader sees it. -/
def text : SessionState → String
  | .pending => "pending"
  | .compiling => "compiling"
  | .compiledOk => "compiled-ok"
  | .compiledFailed => "compiled-failed"
  | .executed => "executed"
  | .executionFailed => "execution-failed"

/-- Whether nothing follows a state. -/
def isTerminal : SessionState → Bool
  | .compiledFailed | .executed | .executionFailed => true
  | _ => false

/-- Whether one state may follow another. -/
def canBecome : SessionState → SessionState → Bool
  | .pending, .compiling => true
  | .compiling, .compiledOk => true
  | .compiling, .compiledFailed => true
  | .compiledOk, .executed => true
  | .compiledOk, .executionFailed => true
  | _, _ => false

end SessionState
end PluginSandbox
