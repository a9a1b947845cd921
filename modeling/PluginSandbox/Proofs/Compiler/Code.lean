import Mathlib.Data.List.Forall2
import PluginSandbox.Compiler.Generator
import PluginSandbox.Program.Basic
import PluginSandbox.Proofs.Language.Tree

/-!
# The code of a program

What the compiled form of a program looks like, said without the checker: for every construct of the
language, how its code is put together from the code of its parts, and where the parts stand.

* `CallsTo` gives the operation that calls what a name means.
* `ExprCode` and `ArgsCode` describe the code of expressions and of arguments in a scope.
* `StmtCode`, `BodyCode` and `OptionalCode` describe the code of statements, with the scope behind it.
* `FunctionCode` and `ModuleCode` describe the compiled form of a function and of a unit.

A number in front of a construct is the index at which its code starts.
-/

namespace PluginSandbox

/-- The functions of every unit of a program with the numbers of their parameters. -/
def Program.signatures (p : Program) : List (String × List (String × Nat)) :=
  p.members.map fun m => (m.unit.qualifiedName, m.parsed.signatures)

/-- What the generator knows of a unit of a program. -/
def Program.context (p : Program) (owner : Member) : UnitContext where
  unit := owner.unit
  functions := owner.parsed.signatures
  siblings := p.signatures

/-! ## Calls -/

/-- The operation that calls what a name means in a unit, with as many arguments as that takes. -/
inductive CallsTo (p : Program) (owner : Member) : Option Callee → Nat → Op → Prop
  | own {index : Nat} {decl : FunctionDecl} : owner.parsed.functions[index]? = some decl →
      CallsTo p owner (some (.function owner decl)) decl.params.length
        (.call index decl.params.length)
  | other {unit method : String} {other : Member} {decl : FunctionDecl} :
      p.member? unit = some other → other.parsed.function? method = some decl →
      CallsTo p owner (some (.function other decl)) decl.params.length
        (.callUnit unit method decl.params.length)
  | native {name : String} {location : Location} {symbol : LibrarySymbol} :
      isIdentifier name = true →
      p.meaning.callee owner.unit owner.parsed.imports name = some (location, .library symbol) →
      CallsTo p owner ((p.catalogue.function? location symbol).map .native) symbol.arity
        (.callNative location symbol.qualifiedName symbol.arity)

/-! ## Expressions -/

section
variable (p : Program) (owner : Member)

mutual

/-- The code of an expression in a scope. -/
inductive ExprCode (scope : Scope) : Nat → Expr → List Op → Prop
  | int {start : Nat} {value : Int64} {pos : Position} :
      ExprCode scope start (.int value pos) [.const (.int value)]
  | str {start : Nat} {text : String} {pos : Position} :
      ExprCode scope start (.str text pos) [.const (.str text)]
  | bool {start : Nat} {value : Bool} {pos : Position} :
      ExprCode scope start (.bool value pos) [.const (.bool value)]
  | var {start slot : Nat} {name : String} {pos : Position} : scope.slot? name = some slot →
      ExprCode scope start (.var name pos) [.load slot]
  | call {start : Nat} {name : String} {es : List Expr} {pos : Position} {code : List Op} {op : Op} :
      ArgsCode scope start es code → CallsTo p owner (p.callee? owner name) es.length op →
      ExprCode scope start (.call name es pos) (code ++ [op])
  | memberCall {start : Nat} {target method : String} {es : List Expr} {pos : Position}
      {code : List Op} {op : Op} :
      ArgsCode scope start es code →
      CallsTo p owner (p.memberCallee? owner target method) es.length op →
      ExprCode scope start (.memberCall target method es pos) (code ++ [op])
  | neg {start : Nat} {operand : Expr} {pos : Position} {code : List Op} :
      ExprCode scope start operand code →
      ExprCode scope start (.neg operand pos) (code ++ [.unary .neg])
  | not {start : Nat} {operand : Expr} {pos : Position} {code : List Op} :
      ExprCode scope start operand code →
      ExprCode scope start (.not operand pos) (code ++ [.unary .not])
  | binary {start : Nat} {op : BinaryOp} {left right : Expr} {pos : Position} {l r : List Op} :
      ExprCode scope start left l → ExprCode scope (start + l.length) right r →
      ExprCode scope start (.binary op left right pos) (l ++ r ++ [.binary op])
  | and {start : Nat} {left right : Expr} {pos : Position} {l r : List Op} :
      ExprCode scope start left l → ExprCode scope (start + l.length + 1) right r →
      ExprCode scope start (.and left right pos)
        (l ++ [.jumpIfFalse (start + l.length + 1 + r.length + 1)] ++ r ++
          [.jump (start + l.length + 1 + r.length + 1 + 1), .const (.bool false)])
  | or {start : Nat} {left right : Expr} {pos : Position} {l r : List Op} :
      ExprCode scope start left l → ExprCode scope (start + l.length + 3) right r →
      ExprCode scope start (.or left right pos)
        (l ++ [.jumpIfFalse (start + l.length + 3), .const (.bool true),
          .jump (start + l.length + 3 + r.length)] ++ r)

/-- The code of arguments in a scope. -/
inductive ArgsCode (scope : Scope) : Nat → List Expr → List Op → Prop
  | nil {start : Nat} : ArgsCode scope start [] []
  | cons {start : Nat} {e : Expr} {rest : List Expr} {code more : List Op} :
      ExprCode scope start e code → ArgsCode scope (start + code.length) rest more →
      ArgsCode scope start (e :: rest) (code ++ more)

end

/-! ## Statements -/

mutual

/-- The code of a statement in a scope, and the scope behind it. -/
inductive StmtCode : Scope → Nat → Stmt → List Op → Scope → Prop
  | declare {scope : Scope} {start : Nat} {name : String} {value : Expr} {pos : Position}
      {code : List Op} : ExprCode p owner scope start value code →
      StmtCode scope start (.declare name value pos) (code ++ [.store scope.slots])
        (scope.declare name)
  | assign {scope : Scope} {start slot : Nat} {name : String} {value : Expr} {pos : Position}
      {code : List Op} : ExprCode p owner scope start value code → scope.slot? name = some slot →
      StmtCode scope start (.assign name value pos) (code ++ [.store slot]) scope
  | branch {scope afterThen afterElse : Scope} {start : Nat} {condition : Expr}
      {thenBody : List Stmt} {elseBody : Option (List Stmt)} {c t e : List Op} :
      ExprCode p owner scope start condition c →
      BodyCode scope (start + c.length + 1) thenBody t afterThen →
      OptionalCode (scope.leave afterThen) (start + c.length + 1 + t.length + 1) elseBody e
        afterElse →
      StmtCode scope start (.branch condition thenBody elseBody)
        (c ++ [.jumpIfFalse (start + c.length + 1 + t.length + 1)] ++ t ++
          [.jump (start + c.length + 1 + t.length + 1 + e.length)] ++ e)
        ((scope.leave afterThen).leave afterElse)
  | loop {scope afterBody : Scope} {start : Nat} {condition : Expr} {body : List Stmt}
      {c b : List Op} : ExprCode p owner scope start condition c →
      BodyCode scope (start + c.length + 1) body b afterBody →
      StmtCode scope start (.loop condition body)
        (c ++ [.jumpIfFalse (start + c.length + 1 + b.length + 1)] ++ b ++ [.jump start])
        (scope.leave afterBody)
  | retUnit {scope : Scope} {start : Nat} {pos : Position} :
      StmtCode scope start (.ret none pos) [.const .unit, .ret] scope
  | ret {scope : Scope} {start : Nat} {value : Expr} {pos : Position} {code : List Op} :
      ExprCode p owner scope start value code →
      StmtCode scope start (.ret (some value) pos) (code ++ [.ret]) scope
  | expr {scope : Scope} {start : Nat} {value : Expr} {code : List Op} :
      ExprCode p owner scope start value code →
      StmtCode scope start (.expr value) (code ++ [.pop]) scope

/-- The code of the statements of a block in a scope, and the scope at its end. -/
inductive BodyCode : Scope → Nat → List Stmt → List Op → Scope → Prop
  | nil {scope : Scope} {start : Nat} : BodyCode scope start [] [] scope
  | cons {scope between after : Scope} {start : Nat} {s : Stmt} {rest : List Stmt}
      {code more : List Op} : StmtCode scope start s code between →
      BodyCode between (start + code.length) rest more after →
      BodyCode scope start (s :: rest) (code ++ more) after

/-- The code of the statements of a block that may be missing, and the scope at its end. -/
inductive OptionalCode : Scope → Nat → Option (List Stmt) → List Op → Scope → Prop
  | none {scope : Scope} {start : Nat} : OptionalCode scope start none [] scope
  | some {scope after : Scope} {start : Nat} {stmts : List Stmt} {code : List Op} :
      BodyCode scope start stmts code after → OptionalCode scope start (some stmts) code after

end

/-! ## Functions and modules -/

/-- The scope of some parameters, behind those that were declared before. -/
def Scope.declareAll (scope : Scope) (params : List (String × Position)) : Scope :=
  params.foldl (fun scope param => scope.declare param.1) scope

/-- The compiled form of a function. -/
inductive FunctionCode : FunctionDecl → Function → Prop
  | mk {decl : FunctionDecl} {code : List Op} {after : Scope} :
      BodyCode p owner (Scope.empty.declareAll decl.params) 0 decl.body code after →
      FunctionCode decl
        { name := decl.name, arity := decl.params.length, locals := after.slots
          code := (code ++ [Op.const .unit, Op.ret]).toArray }

/-- The compiled form of a unit that implements some contract type. -/
structure ModuleCode (contract : String) (m : Module) : Prop where
  formatVersion : m.formatVersion = Module.currentVersion
  name : m.name = owner.unit.qualifiedName
  contract : m.contract = contract
  functions : List.Forall₂ (FunctionCode p owner) owner.parsed.functions m.functions.toList

end
end PluginSandbox
