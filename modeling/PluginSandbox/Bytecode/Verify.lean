import PluginSandbox.Bytecode.Basic

/-!
# Structural checks on compiled code

Before a module is run, its code is checked once, operation by operation: slots are in range, jumps
stay inside the function, calls name a function of the module with the right number of arguments, and
code ends in a return or a jump.  `Module.firstFlaw?` gives the first thing that is wrong.

The check is about single operations.  It says nothing about the height of the operand stack.
-/

namespace PluginSandbox

/-- An operation that refers to something its function or module does not have: a slot, an operation to go to, or a
function with as many parameters as there are arguments. -/
inductive Misplaced where
  | load (slot : Nat)
  | store (slot : Nat)
  | jump (target : Nat)
  | jumpIfFalse (target : Nat)
  | call (function argc : Nat)
  deriving DecidableEq

/-- The text of a misplaced operation. -/
def Misplaced.text : Misplaced → String
  | .load slot => s!"Load({slot})"
  | .store slot => s!"Store({slot})"
  | .jump target => s!"Jump({target})"
  | .jumpIfFalse target => s!"JumpIfFalse({target})"
  | .call function argc => s!"Call \x7b function: {function}, argc: {argc} \x7d"

/-- What is wrong with the code of a function: it has fewer slots than parameters, its last operation is neither a
return nor a jump, or an operation at some place is misplaced. -/
inductive CodeFlaw where
  | tooFewLocals (locals arity : Nat)
  | openEnd
  | misplaced (what : Misplaced) (pc : Nat)
  deriving DecidableEq

/-- The text of a flaw in the function of the given name. -/
def CodeFlaw.text (function : String) : CodeFlaw → String
  | .tooFewLocals locals arity => s!"{function}: {locals} locals cannot hold {arity} parameters"
  | .openEnd => s!"{function}: code does not end in a return"
  | .misplaced what pc => s!"{function}: invalid instruction {what.text} at {pc}"

/-- Whether an operation may be the last one of a function. -/
def Op.endsCode : Op → Bool
  | .ret => true
  | .jump _ => true
  | _ => false

/-- How an operation is misplaced in a function of a module, if it is. -/
def Op.misplaced? (m : Module) (f : Function) : Op → Option Misplaced
  | .load slot => if slot < f.locals then none else some (.load slot)
  | .store slot => if slot < f.locals then none else some (.store slot)
  | .jump target => if target < f.code.size then none else some (.jump target)
  | .jumpIfFalse target => if target < f.code.size then none else some (.jumpIfFalse target)
  | .call function argc =>
    match m.functions[function]? with
    | some callee => if callee.arity = argc then none else some (.call function argc)
    | none => some (.call function argc)
  | _ => none

/-- The first misplaced operation among some operations, the first of which stands at `pc`. -/
def Function.firstMisplaced? (m : Module) (f : Function) : Nat → List Op → Option CodeFlaw
  | _, [] => none
  | pc, op :: rest =>
    match op.misplaced? m f with
    | some what => some (.misplaced what pc)
    | none => Function.firstMisplaced? m f (pc + 1) rest

/-- The first flaw in the code of a function of a module. -/
def Function.firstFlaw? (m : Module) (f : Function) : Option CodeFlaw :=
  if f.locals < f.arity then some (.tooFewLocals f.locals f.arity)
  else if (f.code.back?.map Op.endsCode).getD false then f.firstMisplaced? m 0 f.code.toList
  else some .openEnd

/-- The first flaw in the code of a module, with the name of its function. -/
def Module.firstFlaw? (m : Module) : Option (String × CodeFlaw) :=
  m.functions.toList.findSome? fun f => (f.firstFlaw? m).map fun flaw => (f.name, flaw)

end PluginSandbox
