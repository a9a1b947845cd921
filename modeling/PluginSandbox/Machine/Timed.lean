import PluginSandbox.Machine.Basic

/-!
# Running against the clock

A deadline is a matter of time, and operations do not all take the same time: one that copies a long string
takes longer than a jump.  Time is counted in units.  Every operation takes one, and one more for each stretch
of bytes that it copies; a module that is loaded on the way takes time for each of its bytes
(`Machine.delay`).

`Machine.runWithin` is a run that ends when it has taken a number of steps, or a number of units.
-/

namespace PluginSandbox

/-- How long a run may go on: for a number of steps, or for a number of units of time. -/
inductive Limit where
  | steps (n : Nat)
  | time (units : Nat)
  deriving DecidableEq, Inhabited

/-- What is left of a limit when some units of time have passed, unless they are more than it allows. -/
def Limit.behind? (passed : Nat) : Limit → Option Limit
  | .steps n => some (.steps n)
  | .time units => if units < passed then none else some (.time (units - passed))

/-- The number of bytes that are copied along with a value. -/
def Value.weight : Value → Nat
  | .str text => text.utf8ByteSize
  | _ => 0

/-- The units of time that loading a name takes: none if it has been loaded before, or if there is nothing
to be loaded. -/
def Loader.delay (l : Loader) (name : String) : Nat :=
  if (l.loaded.lookup name).isSome then 0
  else ((l.source.artifacts.get? name).map fun a => a.bytes.size / 8).getD 0

namespace Machine

/-- The number of bytes that are copied in a unit of time. -/
def copiedInUnit : Nat :=
  512

/-- The number of bytes of the top operands. -/
def topWeight (m : Machine) (count : Nat) : Nat :=
  (m.stack.toList.take count).foldl (fun weight v => weight + v.weight) 0

/-- The number of bytes of the slots of a function, if there is one. -/
def frameWeight (f : Option Function) : Nat :=
  (f.map fun f => Frame.slotSize * Frame.slotCount f).getD 0

/-- The number of bytes that an operation copies. -/
def copied (m : Machine) : Op → Nat
  | .const value => value.weight
  | .load slot => (m.frame.locals[slot]?.map Value.weight).getD 0
  | .binary _ => m.topWeight 2
  | .callNative _ _ argc => m.topWeight argc
  | .call function _ => frameWeight m.frame.module.module.functions[function]?
  | _ => 0

/-- The units of time that the next operation takes beyond the first. -/
def delay (m : Machine) : Nat :=
  match m.frame.function.code[m.frame.pc]? with
  | none => 0
  | some (.callUnit unit _ _) => m.loader.delay unit
  | some op => m.copied op / copiedInUnit

/-- A run of at most some number of units of time, the first of which pass before the machine goes on. -/
def runTimed (setting : MachineSetting) : Nat → Nat → Machine → Step
  | 0, _, m => .next m
  | time + 1, wait + 1, m => runTimed setting time wait m
  | time + 1, 0, m =>
    match m.step setting with
    | .next after => runTimed setting time m.delay after
    | .done e => .done e

/-- A run within a limit: its end, or the machine at the limit. -/
def runWithin (setting : MachineSetting) : Limit → Machine → Step
  | .steps n, m => m.run setting n
  | .time units, m => m.runTimed setting units 0

end Machine
end PluginSandbox
