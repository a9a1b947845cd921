import PluginSandbox.Machine.Operation
import PluginSandbox.Program.Basic

/-!
# Evaluating programs

What a program means is what evaluating its syntax trees comes to, without any compiled code.

* Operands and arguments are evaluated from left to right.
* A block has its own variables.  A declaration hides variables of the same name, and takes effect behind
  its initial value; an assignment changes the innermost variable of its name.
* Of `&&` and `||` the second operand is evaluated only if the first does not decide; the first must be a
  truth value, and the second is the result as it is.
* A condition must be a truth value.
* A function that ends without a `return` gives the unit value.
* A call that would open one function more than the limit allows is a fault.

Not every evaluation ends.  So it takes a bound on the number of calls that are open and on the turns of
every loop, and says when that was reached (`Outcome.unfinished`); the lines that were left behind until then
are known also then.
-/

namespace PluginSandbox

/-- How far an evaluation has come: it has ended with a result, it has failed, or it has reached its bound. -/
inductive Outcome (α : Type) where
  | done (result : α)
  | failed (failure : PluginFailure)
  | unfinished
  deriving DecidableEq

/-- An evaluation: it starts from what the plugin has left behind so far, and says what it leaves behind. -/
def Evaluation (α : Type) : Type :=
  PluginContext → Outcome α × PluginContext

namespace Evaluation

variable {α : Type}

instance : Monad Evaluation where
  pure a := fun c => (.done a, c)
  bind x next := fun c =>
    match x c with
    | (.done a, c) => next a c
    | (.failed failure, c) => (.failed failure, c)
    | (.unfinished, c) => (.unfinished, c)

/-- The evaluation that fails. -/
def fail (failure : PluginFailure) : Evaluation α :=
  fun c => (.failed failure, c)

/-- The evaluation that has reached its bound. -/
def unfinished : Evaluation α :=
  fun c => (.unfinished, c)

/-- The value of an operation, or its fault. -/
def ofExcept : Except Fault Value → Evaluation Value
  | .ok value => pure value
  | .error cause => fail (.fault cause)

/-- A call of a function of the platform. -/
def native (host : Host) (f : NativeFunction) (args : List Value) : Evaluation Value :=
  fun c =>
    match f.implementation.run host args c with
    | (.ok value, c) => (.done value, c)
    | (.error failure, c) => (.failed failure, c)

/-- The truth value that a condition must be. -/
def truth : Value → Evaluation Bool
  | .bool b => pure b
  | other => fail (.fault (.conditionNotBool other.type))

end Evaluation

/-- The variables of a function, the innermost first. -/
abbrev Variables := List (String × Value)

namespace Variables

/-- The value of a variable. -/
def value (vars : Variables) (name : String) : Value :=
  (vars.lookup name).getD .unit

/-- The variables after an assignment. -/
def assign (name : String) (value : Value) : Variables → Variables
  | [] => []
  | (n, old) :: rest => if n = name then (n, value) :: rest else (n, old) :: assign name value rest

/-- The variables behind a block: those that were there before it, with their values from its end. -/
def leave (outer inner : Variables) : Variables :=
  inner.drop (inner.length - outer.length)

end Variables

/-- How the evaluation of a statement goes on: with the next statement and some variables, or out of the function. -/
inductive Flow where
  | next (vars : Variables)
  | returned (value : Value)
  deriving DecidableEq

/-- What calls do, as the evaluation of a function sees it: those without a target, and those on one. -/
structure Calls where
  function : String → List Value → Evaluation Value
  member : String → String → List Value → Evaluation Value

namespace Evaluation

mutual

/-- The value of an expression. -/
def expr (calls : Calls) (vars : Variables) : Expr → Evaluation Value
  | .int value _ => return .int value
  | .str text _ => return .str text
  | .bool value _ => return .bool value
  | .var name _ => return vars.value name
  | .call name es _ => do calls.function name (← args calls vars es)
  | .memberCall target method es _ => do calls.member target method (← args calls vars es)
  | .neg operand _ => do ofExcept (UnaryOp.neg.apply (← expr calls vars operand))
  | .not operand _ => do ofExcept (UnaryOp.not.apply (← expr calls vars operand))
  | .binary op left right _ => do
    let l ← expr calls vars left
    let r ← expr calls vars right
    ofExcept (op.apply l r)
  | .and left right _ => do
    if ← truth (← expr calls vars left) then expr calls vars right else return .bool false
  | .or left right _ => do
    if ← truth (← expr calls vars left) then return .bool true else expr calls vars right

/-- The values of arguments. -/
def args (calls : Calls) (vars : Variables) : List Expr → Evaluation (List Value)
  | [] => return []
  | e :: rest => do
    let value ← expr calls vars e
    return value :: (← args calls vars rest)

end

/-- A loop, given its condition and one turn of it, of at most some number of turns. -/
def turns (condition : Variables → Evaluation Bool) (turn : Variables → Evaluation Flow) :
    Nat → Variables → Evaluation Flow
  | 0, _ => unfinished
  | bound + 1, vars => do
    if ← condition vars then
      match ← turn vars with
      | .next vars => turns condition turn bound vars
      | .returned value => return .returned value
    else return .next vars

/-- How the evaluation goes on behind a block that was entered with some variables. -/
def behind (outer : Variables) : Flow → Flow
  | .next inner => .next (outer.leave inner)
  | .returned value => .returned value

mutual

/-- The effect of a statement.  The bound limits the turns of every loop. -/
def stmt (calls : Calls) (bound : Nat) (vars : Variables) : Stmt → Evaluation Flow
  | .declare name value _ => do return .next ((name, ← expr calls vars value) :: vars)
  | .assign name value _ => do return .next (vars.assign name (← expr calls vars value))
  | .branch condition thenBody elseBody => do
    if ← truth (← expr calls vars condition) then
      return behind vars (← body calls bound vars thenBody)
    else return behind vars (← optionalBody calls bound vars elseBody)
  | .loop condition loopBody =>
    turns (fun vars => do truth (← expr calls vars condition))
      (fun vars => do return behind vars (← body calls bound vars loopBody)) bound vars
  | .ret none _ => return .returned .unit
  | .ret (some value) _ => do return .returned (← expr calls vars value)
  | .expr value => do
    let _ ← expr calls vars value
    return .next vars

/-- The effect of the statements of a block. -/
def body (calls : Calls) (bound : Nat) (vars : Variables) : List Stmt → Evaluation Flow
  | [] => return .next vars
  | s :: rest => do
    match ← stmt calls bound vars s with
    | .next vars => body calls bound vars rest
    | .returned value => return .returned value

/-- The effect of the statements of a block that may be missing. -/
def optionalBody (calls : Calls) (bound : Nat) (vars : Variables) :
    Option (List Stmt) → Evaluation Flow
  | none => return .next vars
  | some stmts => body calls bound vars stmts

end

end Evaluation

/-- The value that a function gives. -/
def Flow.result : Flow → Value
  | .next _ => .unit
  | .returned value => value

namespace Program

/-- What a call does where some functions are open, given what entering a function does. -/
def invoke (host : Host) (limit depth : Nat)
    (enter : Member → FunctionDecl → List Value → Evaluation Value) :
    Option Callee → List Value → Evaluation Value
  | some (.function owner decl), args =>
    if limit ≤ depth then .fail (.fault (.depthExceeded limit)) else enter owner decl args
  | some (.native f), args => .native host f args
  | none, _ => .fail (.fault .unknownFunction)

/-- The value of a function of a unit with some arguments, when it is the last of some open functions. -/
def enter (p : Program) (host : Host) (limit : Nat) :
    Nat → Nat → Member → FunctionDecl → List Value → Evaluation Value
  | 0, _, _, _, _ => .unfinished
  | bound + 1, depth, owner, decl, args => do
    let call := invoke host limit depth (p.enter host limit bound (depth + 1))
    let calls : Calls :=
      { function := fun name => call (p.callee? owner name)
        member := fun target method => call (p.memberCallee? owner target method) }
    let vars := ((decl.params.map Prod.fst).zip args).reverse
    return (← Evaluation.body calls (bound + 1) vars decl.body).result

/-- The execution of the entry operation of a unit. -/
def execute (p : Program) (host : Host) (limit bound : Nat) (m : Member) : Evaluation Unit :=
  match m.parsed.function? ContractType.entryOperation with
  | none => .fail (.instantiation (.missing m.unit.qualifiedName))
  | some decl => do
    let _ ← p.enter host limit bound 1 m decl []
    return ()

end Program
end PluginSandbox
