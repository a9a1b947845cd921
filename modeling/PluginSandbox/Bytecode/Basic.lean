import PluginSandbox.Location
import PluginSandbox.Order
import PluginSandbox.Value

/-!
# Compiled modules

A module is what a toolchain writes for one unit and what is loaded and run.  It holds functions, and
a function holds operations that work on local slots and on a stack of operands.
-/

namespace PluginSandbox

/-- An operation on one operand. -/
inductive UnaryOp where
  | neg
  | not
  deriving DecidableEq, Inhabited

namespace UnaryOp

/-- Every unary operation. -/
def all : List UnaryOp :=
  [.neg, .not]

/-- The name of an operation. -/
def name : UnaryOp → String
  | .neg => "Neg"
  | .not => "Not"

/-- The operation of a name. -/
def ofName? (s : String) : Option UnaryOp :=
  all.find? fun op => op.name = s

end UnaryOp

/-- An operation on two operands.  Strings are added by concatenation.  A quotient is rounded toward zero, and the
remainder goes with it. -/
inductive BinaryOp where
  | add
  | sub
  | mul
  | div
  | rem
  | eq
  | ne
  | lt
  | le
  | gt
  | ge
  deriving DecidableEq, Inhabited

namespace BinaryOp

/-- Every binary operation. -/
def all : List BinaryOp :=
  [.add, .sub, .mul, .div, .rem, .eq, .ne, .lt, .le, .gt, .ge]

/-- The name of an operation. -/
def name : BinaryOp → String
  | .add => "Add"
  | .sub => "Sub"
  | .mul => "Mul"
  | .div => "Div"
  | .rem => "Rem"
  | .eq => "Eq"
  | .ne => "Ne"
  | .lt => "Lt"
  | .le => "Le"
  | .gt => "Gt"
  | .ge => "Ge"

/-- The operation of a name. -/
def ofName? (s : String) : Option BinaryOp :=
  all.find? fun op => op.name = s

end BinaryOp

/-- One operation of compiled code.  Slots, targets, indices and counts are unsigned 64-bit numbers in every written
module.  A platform function is called by its qualified name at the location where it was found, and a function of
another unit by the names of both. -/
inductive Op where
  | const (value : Value)
  | load (slot : Nat)
  | store (slot : Nat)
  | unary (op : UnaryOp)
  | binary (op : BinaryOp)
  | jump (target : Nat)
  | jumpIfFalse (target : Nat)
  | call (function argc : Nat)
  | callNative (location : Location) (symbol : String) (argc : Nat)
  | callUnit (unit function : String) (argc : Nat)
  | pop
  | ret
  deriving DecidableEq, Inhabited

/-- A function of a compiled module.  Its parameters are the first ones of its local slots. -/
structure Function where
  name : String
  arity : Nat
  locals : Nat
  code : Array Op
  deriving DecidableEq, Inhabited

/-- A compiled module: the version of the format it was written in, the qualified names of its unit and of the contract
type it implements, and its functions. -/
structure Module where
  formatVersion : Nat
  name : String
  contract : String
  functions : Array Function
  deriving DecidableEq, Inhabited

namespace Module

/-- The version of the format that this library writes and loads. -/
def currentVersion : Nat := 2

/-- The index of the first function of a name. -/
def functionIndex? (m : Module) (name : String) : Option Nat :=
  m.functions.findIdx? fun f => f.name == name

/-- The first function of a name. -/
def function? (m : Module) (name : String) : Option Function :=
  m.functions.find? fun f => f.name == name

/-- The platform functions that an operation refers to. -/
def nativeReference? : Op → Option (Location × String)
  | .callNative location symbol _ => some (location, symbol)
  | _ => none

/-- The order of references: by location, then by name. -/
def referenceLe (a b : Location × String) : Bool :=
  if a.1 = b.1 then !decide (b.2 < a.2) else a.1.le b.1

/-- Every platform function that a module refers to, once each, in order. -/
def nativeImports (m : Module) : List (Location × String) :=
  inOrder referenceLe
    (m.functions.toList.flatMap fun f => f.code.toList.filterMap nativeReference?)

end Module
end PluginSandbox
