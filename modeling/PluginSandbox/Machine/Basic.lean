import PluginSandbox.Loader
import PluginSandbox.Machine.Counted
import PluginSandbox.Machine.Operation

/-!
# The machine

The machine runs compiled code, one operation a step.  The frame of the running function and the frames
that wait for it are its own data, so the limit on their number bounds its memory.

A frame has as many slots as its function asks for, which a module may choose as it likes.  Where no memory
can hold them the machine breaks down (`Frame.mostSlots`).

All frames share one stack of operands.  A frame remembers how high the stack was when it was entered, and
a return cuts the stack down to that height before it hands over its value.  An operation may pop below
that height: only an empty stack is a fault.

`Machine.step` is one step; `Machine.run` takes a bound on the number of steps, and gives the machine as it
stands when the bound is reached before the end.
-/

namespace PluginSandbox

/-- A function that has been entered and has not returned: the module that it belongs to, the index of its next
operation, its local slots, and how high the operand stack was when it was entered. -/
structure Frame where
  module : LoadedModule
  function : Function
  pc : Nat
  locals : Array Value
  base : Nat

namespace Frame

/-- The number of bytes that a slot takes. -/
def slotSize : Nat :=
  24

/-- The greatest number of slots that a frame can have: memory has fewer than 2^63 bytes. -/
def mostSlots : Nat :=
  ((1 <<< 63) - 1) / slotSize

/-- The number of slots of a function. -/
def slotCount (f : Function) : Nat :=
  max f.locals f.arity

/-- A function has more slots than any frame can have. -/
def Overflows (f : Function) : Prop :=
  mostSlots < slotCount f

instance (f : Function) : Decidable (Overflows f) :=
  inferInstanceAs (Decidable (_ < _))

/-- The local slots of a function with some arguments: the rest holds the unit value. -/
def initialLocals (f : Function) (args : List Value) : Array Value :=
  args.toArray ++ Array.replicate (slotCount f - args.length) .unit

/-- The frame of a function that is entered with some arguments. -/
def enter (m : LoadedModule) (f : Function) (args : List Value) (base : Nat) : Frame :=
  { module := m, function := f, pc := 0, locals := initialLocals f args, base }

end Frame

/-- What stays the same while the machine runs: the host of the platform's functions, and the greatest number of
frames. -/
structure MachineSetting where
  host : Host
  maxCallDepth : Nat

/-- The state of the machine: the frame of the running function and those that wait for it, the operands, the loader of
the session, and what the plugin leaves behind. -/
structure Machine where
  frame : Frame
  callers : Counted Frame
  stack : Counted Value
  loader : Loader
  context : PluginContext

/-- How a run of the machine ended: the value that was returned, or the failure. -/
structure MachineEnd where
  result : Except PluginFailure Value
  loader : Loader
  context : PluginContext

/-- The outcome of one step, or of several: the machine goes on, or the run has ended. -/
inductive Step where
  | next (m : Machine)
  | done (e : MachineEnd)

namespace Machine

/-- The machine when a function of a module is entered from outside. -/
def start (loader : Loader) (context : PluginContext) (m : LoadedModule) (f : Function) : Machine :=
  { frame := Frame.enter m f [] 0, callers := .empty, stack := .empty, loader, context }

/-- The number of frames. -/
def depth (m : Machine) : Nat :=
  m.callers.size + 1

/-- The run ends in a failure. -/
def failed (m : Machine) (failure : PluginFailure) : Step :=
  .done { result := .error failure, loader := m.loader, context := m.context }

/-- The run ends in a fault. -/
def faulted (m : Machine) (cause : Fault) : Step :=
  m.failed (.fault cause)

/-- The machine with one more operand. -/
def push (m : Machine) (value : Value) : Machine :=
  { m with stack := m.stack.push value }

/-- The machine at another operation of its function. -/
def jump (m : Machine) (target : Nat) : Machine :=
  { m with frame := { m.frame with pc := target } }

/-- Goes on with a value that was computed, or ends in a fault. -/
def pushResult (m : Machine) : Except Fault Value → Step
  | .ok value => .next (m.push value)
  | .error cause => m.faulted cause

/-- Goes on with the top operand, which is popped. -/
def withOperand (m : Machine) (next : Value → Machine → Step) : Step :=
  match m.stack.pop? with
  | some (value, stack) => next value { m with stack }
  | none => m.faulted .operandUnderflow

/-- Goes on with some operands, which are popped. -/
def withArgs (m : Machine) (argc : Nat) (next : List Value → Machine → Step) : Step :=
  match m.stack.popMany? argc with
  | some (args, stack) => next args { m with stack }
  | none => m.faulted .operandUnderflow

/-- Enters a function of a module, if there is one and the frames allow it. -/
def enter (setting : MachineSetting) (callee : LoadedModule) (f : Option Function)
    (args : List Value) (m : Machine) : Step :=
  if setting.maxCallDepth ≤ m.depth then m.faulted (.depthExceeded setting.maxCallDepth)
  else
    match f with
    | none => m.faulted .unknownFunction
    | some f =>
      if f.arity ≠ args.length then m.faulted (.wrongArity f.name f.arity args.length)
      else if Frame.Overflows f then m.failed (.crashed .capacityOverflow)
      else
        .next
          { m with
            frame := Frame.enter callee f args m.stack.size
            callers := m.callers.push m.frame }

/-- Calls a platform function that the running module is linked to. -/
def callNative (setting : MachineSetting) (location : Location) (symbol : String)
    (args : List Value) (m : Machine) : Step :=
  match m.frame.module.native? location symbol with
  | none => m.faulted (.notLinked symbol)
  | some f =>
    let (result, context) := f.implementation.run setting.host args m.context
    match result with
    | .ok value => .next (push { m with context } value)
    | .error failure => failed { m with context } failure

/-- Calls a function of another unit, which is loaded if it was not. -/
def callUnit (setting : MachineSetting) (unit function : String) (args : List Value)
    (m : Machine) : Step :=
  let (result, loader) := m.loader.load unit
  let m := { m with loader }
  match result with
  | .error cause => m.faulted (.notLoaded cause)
  | .ok callee =>
    match callee.module.function? function with
    | none => m.faulted (.noFunction unit function)
    | some f => m.enter setting callee (some f) args

/-- Hands a value over to the frame that waits for it, or ends the run. -/
def ret (value : Value) (m : Machine) : Step :=
  match m.callers.pop? with
  | none => .done { result := .ok value, loader := m.loader, context := m.context }
  | some (frame, callers) =>
    .next { m with frame, callers, stack := (m.stack.truncate m.frame.base).push value }

/-- Carries out an operation, when the machine is already at the one behind it. -/
def perform (setting : MachineSetting) (m : Machine) : Op → Step
  | .const value => .next (m.push value)
  | .load slot =>
    match m.frame.locals[slot]? with
    | some value => .next (m.push value)
    | none => m.faulted .slotOutOfRange
  | .store slot =>
    m.withOperand fun value m =>
      if slot < m.frame.locals.size then
        .next { m with frame := { m.frame with locals := m.frame.locals.setIfInBounds slot value } }
      else m.faulted .slotOutOfRange
  | .unary op => m.withOperand fun value m => m.pushResult (op.apply value)
  | .binary op =>
    m.withOperand fun right m => m.withOperand fun left m => m.pushResult (op.apply left right)
  | .jump target => .next (m.jump target)
  | .jumpIfFalse target =>
    m.withOperand fun value m =>
      match value with
      | .bool true => .next m
      | .bool false => .next (m.jump target)
      | other => m.faulted (.conditionNotBool other.type)
  | .call function argc =>
    m.withArgs argc fun args m =>
      m.enter setting m.frame.module m.frame.module.module.functions[function]? args
  | .callNative location symbol argc =>
    m.withArgs argc fun args m => m.callNative setting location symbol args
  | .callUnit unit function argc =>
    m.withArgs argc fun args m => m.callUnit setting unit function args
  | .pop => m.withOperand fun _ m => .next m
  | .ret => m.withOperand fun value m => m.ret value

/-- One step. -/
def step (setting : MachineSetting) (m : Machine) : Step :=
  match m.frame.function.code[m.frame.pc]? with
  | none => m.faulted .ranPastEnd
  | some op => perform setting (m.jump (m.frame.pc + 1)) op

/-- A run of at most some number of steps: its end, or the machine behind the last of them. -/
def run (setting : MachineSetting) : Nat → Machine → Step
  | 0, m => .next m
  | steps + 1, m =>
    match m.step setting with
    | .next m => run setting steps m
    | .done e => .done e

end Machine
end PluginSandbox
