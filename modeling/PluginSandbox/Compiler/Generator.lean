import PluginSandbox.Bytecode.Basic
import PluginSandbox.Compiler.Lookup

/-!
# Generating code

Statements and expressions are checked and turned into operations in one pass over the tree.  Code is
generated for the place it will stand at, so jumps have their targets from the start: the generator of
every construct takes the index of its first operation, and knows where its parts stand because it knows
how long the parts before them are.

## Scopes

Every declaration takes a fresh slot, and slots are never reused within a function.  A scope is the list
of the names that are visible with their slots, the innermost first, and the number of slots taken so
far.  A block hides the names that it declared when it ends, and keeps the slots.

## Errors

A construct that breaks a rule is reported and replaced by code of the same effect on the stack, so that
the rest of the function is still checked.  No output is written when anything was reported as an error.
-/

namespace PluginSandbox

/-- The visible names of a function under construction with their slots, the innermost first, and the number of slots
taken so far. -/
structure Scope where
  names : List (String × Nat)
  slots : Nat
  deriving DecidableEq, Inhabited

namespace Scope

/-- The scope of a function before its parameters. -/
def empty : Scope := ⟨[], 0⟩

/-- The slot of a name, if it is visible. -/
def slot? (s : Scope) (name : String) : Option Nat :=
  s.names.lookup name

/-- The scope with one more name, in a fresh slot. -/
def declare (s : Scope) (name : String) : Scope :=
  ⟨(name, s.slots) :: s.names, s.slots + 1⟩

/-- The scope behind a block: the names from before it, and the slots from its end. -/
def leave (outer inner : Scope) : Scope :=
  ⟨outer.names, inner.slots⟩

end Scope

/-- What the generator knows of the unit it works on: its functions with the numbers of their parameters, and those of
every unit of the task by the unit's name. -/
structure UnitContext where
  unit : PluginUnit
  functions : List (String × Nat)
  siblings : List (String × List (String × Nat))
  deriving DecidableEq, Inhabited

namespace UnitContext

/-- The index of the first function of a name, and the number of its parameters. -/
def function? (ctx : UnitContext) (name : String) : Option (Nat × Nat) :=
  match ctx.functions.findIdx? fun f => f.1 = name with
  | some index => ctx.functions[index]?.map fun f => (index, f.2)
  | none => none

/-- The number of parameters of the first function of a name in another unit. -/
def siblingArity? (ctx : UnitContext) (unit name : String) : Option Nat :=
  (ctx.siblings.lookup unit).bind fun functions => functions.lookup name

end UnitContext

namespace Generator

/-- Reports a problem at a place of the unit. -/
def report (ctx : UnitContext) (p : Position) (problem : CheckProblem) : Checker Unit :=
  Checker.report ctx.unit p problem

/-- Reports a problem, and gives the code that stands for the missing value. -/
def placeholder (ctx : UnitContext) (p : Position) (problem : CheckProblem) : Checker Op := do
  report ctx p problem
  return .const .unit

/-- Reports a call with another number of arguments than the function takes. -/
def checkArity (ctx : UnitContext) (p : Position) (function : String) (expected supplied : Nat) :
    Checker Unit := do
  if expected ≠ supplied then report ctx p (.wrongArity function expected supplied)

/-- The entry that the name of a called function means: an import, the unit's own package, or the
implicit package of the platform. -/
def findCallee (ctx : UnitContext) (name : String) : Checker (Option (Location × Entry)) := do
  match ← Checker.findOwn ctx.unit name with
  | some found => return some found
  | none => Checker.findInModules Checker.implicitPackage name

/-- The operation that calls a function by its name, behind the code of its arguments. -/
def callOp (ctx : UnitContext) (scope : Scope) (name : String) (argc : Nat) (p : Position) :
    Checker Op := do
  if (scope.slot? name).isSome then placeholder ctx p (.variableCalled name)
  else match ctx.function? name with
    | some (index, arity) =>
      checkArity ctx p name arity argc
      return .call index argc
    | none =>
      match ← findCallee ctx name with
      | some (location, .library symbol) =>
        checkArity ctx p symbol.qualifiedName symbol.arity argc
        return .callNative location symbol.qualifiedName argc
      | some (_, .unit unit) => placeholder ctx p (.pluginCalled unit.qualifiedName)
      | some (_, .contract contract) => placeholder ctx p (.typeCalled contract.qualifiedName)
      | none => placeholder ctx p (.unknownFunction name)

/-- The operation that calls a function of a unit, behind the code of its arguments.  A call into the
unit itself is a call inside the module. -/
def unitCallOp (ctx : UnitContext) (unit target method : String) (argc : Nat) (p : Position) :
    Checker Op := do
  if unit = ctx.unit.qualifiedName then
    match ctx.function? method with
    | some (index, arity) =>
      checkArity ctx p (qualify target method) arity argc
      return .call index argc
    | none => placeholder ctx p (.noMember target method)
  else
    match ctx.siblingArity? unit method with
    | some arity =>
      checkArity ctx p (qualify target method) arity argc
      return .callUnit unit method argc
    | none => placeholder ctx p (.noMember target method)

/-- The operation that calls a function of the plugin that a name means, behind the code of its
arguments. -/
def memberCallOp (ctx : UnitContext) (target method : String) (argc : Nat) (p : Position) :
    Checker Op := do
  match ← Checker.findOwn ctx.unit target with
  | some (_, .unit unit) => unitCallOp ctx unit.qualifiedName target method argc p
  | some (_, .contract contract) => placeholder ctx p (.callOnContract contract.qualifiedName)
  | some (_, .library symbol) => placeholder ctx p (.callOnFunction symbol.qualifiedName)
  | none => placeholder ctx p (.unknownPlugin target)

mutual

/-- The code of an expression whose first operation stands at `start`.  It pushes one value. -/
def expr (ctx : UnitContext) (scope : Scope) (start : Nat) : Expr → Checker (List Op)
  | .int value _ => return [.const (.int value)]
  | .str text _ => return [.const (.str text)]
  | .bool value _ => return [.const (.bool value)]
  | .var name p =>
    match scope.slot? name with
    | some slot => return [.load slot]
    | none => return [← placeholder ctx p (.unknownValue name)]
  | .call name es p => do
    let code ← args ctx scope start es
    return code ++ [← callOp ctx scope name es.length p]
  | .memberCall target method es p => do
    let code ← args ctx scope start es
    return code ++ [← memberCallOp ctx target method es.length p]
  | .neg operand _ => do
    return (← expr ctx scope start operand) ++ [.unary .neg]
  | .not operand _ => do
    return (← expr ctx scope start operand) ++ [.unary .not]
  | .binary op left right _ => do
    let l ← expr ctx scope start left
    let r ← expr ctx scope (start + l.length) right
    return l ++ r ++ [.binary op]
  | .and left right _ => do
    let l ← expr ctx scope start left
    let r ← expr ctx scope (start + l.length + 1) right
    let otherwise := start + l.length + 1 + r.length + 1
    return l ++ [.jumpIfFalse otherwise] ++ r ++ [.jump (otherwise + 1), .const (.bool false)]
  | .or left right _ => do
    let l ← expr ctx scope start left
    let otherwise := start + l.length + 3
    let r ← expr ctx scope otherwise right
    return l ++ [.jumpIfFalse otherwise, .const (.bool true), .jump (otherwise + r.length)] ++ r

/-- The code of arguments, each of which pushes one value. -/
def args (ctx : UnitContext) (scope : Scope) (start : Nat) : List Expr → Checker (List Op)
  | [] => return []
  | e :: rest => do
    let code ← expr ctx scope start e
    return code ++ (← args ctx scope (start + code.length) rest)

end

mutual

/-- The code of a statement whose first operation stands at `start`, and the scope behind it.  It leaves
the stack as it was. -/
def stmt (ctx : UnitContext) (scope : Scope) (start : Nat) : Stmt → Checker (List Op × Scope)
  | .declare name value _ => do
    let code ← expr ctx scope start value
    return (code ++ [.store scope.slots], scope.declare name)
  | .assign name value p => do
    let code ← expr ctx scope start value
    match scope.slot? name with
    | some slot => return (code ++ [.store slot], scope)
    | none =>
      report ctx p (.unknownValue name)
      return (code ++ [.pop], scope)
  | .branch condition thenBody elseBody => do
    let c ← expr ctx scope start condition
    let (t, afterThen) ← body ctx scope (start + c.length + 1) thenBody
    let scope := scope.leave afterThen
    let otherwise := start + c.length + 1 + t.length + 1
    let (e, afterElse) ← optionalBody ctx scope otherwise elseBody
    return (c ++ [.jumpIfFalse otherwise] ++ t ++ [.jump (otherwise + e.length)] ++ e,
      scope.leave afterElse)
  | .loop condition loopBody => do
    let c ← expr ctx scope start condition
    let (b, afterBody) ← body ctx scope (start + c.length + 1) loopBody
    let done := start + c.length + 1 + b.length + 1
    return (c ++ [.jumpIfFalse done] ++ b ++ [.jump start], scope.leave afterBody)
  | .ret none _ => return ([.const .unit, .ret], scope)
  | .ret (some value) _ => do
    return ((← expr ctx scope start value) ++ [.ret], scope)
  | .expr value => do
    return ((← expr ctx scope start value) ++ [.pop], scope)

/-- The code of the statements of a block, and the scope at its end. -/
def body (ctx : UnitContext) (scope : Scope) (start : Nat) : List Stmt → Checker (List Op × Scope)
  | [] => return ([], scope)
  | s :: rest => do
    let (code, scope) ← stmt ctx scope start s
    let (more, scope) ← body ctx scope (start + code.length) rest
    return (code ++ more, scope)

/-- The code of the statements of a block that may be missing, and the scope at its end. -/
def optionalBody (ctx : UnitContext) (scope : Scope) (start : Nat) :
    Option (List Stmt) → Checker (List Op × Scope)
  | none => return ([], scope)
  | some stmts => body ctx scope start stmts

end

/-- The scope of some parameters; one that is declared twice is reported. -/
def paramScope (ctx : UnitContext) (scope : Scope) : List (String × Position) → Checker Scope
  | [] => return scope
  | (name, p) :: rest => do
    if (scope.slot? name).isSome then report ctx p (.duplicateParameter name)
    paramScope ctx (scope.declare name) rest

/-- The compiled form of a function.  Its code ends by returning the unit value, for the paths that do not
return before. -/
def function (ctx : UnitContext) (decl : FunctionDecl) : Checker Function := do
  let scope ← paramScope ctx .empty decl.params
  let (code, scope) ← body ctx scope 0 decl.body
  return { name := decl.name, arity := decl.params.length, locals := scope.slots
           code := (code ++ [Op.const .unit, Op.ret]).toArray }

end Generator
end PluginSandbox
