import PluginSandbox.Program.Basic

/-!
# The static rules

When a unit is well formed, said without the checker (`ValidUnit`): by its syntax tree, what names mean, and what
the units beside it declare.

* The imports bind different names, and each of them is found.
* The plugin is named like the unit, implements a contract type, declares every function once, and has an entry
  operation without parameters (`ValidPlugin`).
* The parameters of a function differ (`ValidFunction`).  A variable is read or assigned only where it is a
  parameter, or declared further up in the same block or in one around it (`ValidStmt`, `ValidBody`).
* A called name is no variable there, and what it means takes as many arguments as it is given (`ValidExpr`).

The variables that are visible at a place are a list of names, the innermost first.
-/

namespace PluginSandbox

/-- What the path of a supertype means.  A single name is an import or belongs to the unit's own package; a longer
path names a package of the class path. -/
def Meaning.supertype (m : Meaning) (unit : PluginUnit) (imports : List Import) : List String → Found
  | [name] => m.own unit imports name
  | path => m (.onClassPath (joinPath path.dropLast) (path.getLast?.getD ""))

namespace Program

/-- The program that some units are where a session answers. -/
def ofUnits (r : Resolver) (units : List PluginUnit) : Program where
  members := units.map Member.ofUnit
  meaning := r.meaning
  catalogue := r.catalogue

/-- The number of arguments that a name takes that is called without a target: a function of the unit itself goes
first. -/
def callArity? (p : Program) (owner : Member) (name : String) : Option Nat :=
  match owner.parsed.function? name with
  | some decl => some decl.params.length
  | none =>
    match p.meaning.callee owner.unit owner.parsed.imports name with
    | some (_, .library symbol) => some symbol.arity
    | _ => none

/-- The number of arguments that a function of a unit takes. -/
def unitArity? (p : Program) (unit method : String) : Option Nat :=
  (p.member? unit).bind fun other => (other.parsed.function? method).map fun decl => decl.params.length

/-- The number of arguments that a name takes that is called on a target. -/
def memberCallArity? (p : Program) (owner : Member) (target method : String) : Option Nat :=
  match p.meaning.own owner.unit owner.parsed.imports target with
  | some (_, .unit unit) => p.unitArity? unit.qualifiedName method
  | _ => none

end Program

section
variable (p : Program) (owner : Member)

/-- An expression is well formed where some variables are visible. -/
inductive ValidExpr (vars : List String) : Expr → Prop
  | int {value : Int64} {pos : Position} : ValidExpr vars (.int value pos)
  | str {text : String} {pos : Position} : ValidExpr vars (.str text pos)
  | bool {value : Bool} {pos : Position} : ValidExpr vars (.bool value pos)
  | var {name : String} {pos : Position} : name ∈ vars → ValidExpr vars (.var name pos)
  | call {name : String} {es : List Expr} {pos : Position} : (∀ e ∈ es, ValidExpr vars e) →
      name ∉ vars → p.callArity? owner name = some es.length → ValidExpr vars (.call name es pos)
  | memberCall {target method : String} {es : List Expr} {pos : Position} :
      (∀ e ∈ es, ValidExpr vars e) → p.memberCallArity? owner target method = some es.length →
      ValidExpr vars (.memberCall target method es pos)
  | neg {operand : Expr} {pos : Position} : ValidExpr vars operand → ValidExpr vars (.neg operand pos)
  | not {operand : Expr} {pos : Position} : ValidExpr vars operand → ValidExpr vars (.not operand pos)
  | binary {op : BinaryOp} {left right : Expr} {pos : Position} : ValidExpr vars left →
      ValidExpr vars right → ValidExpr vars (.binary op left right pos)
  | and {left right : Expr} {pos : Position} : ValidExpr vars left → ValidExpr vars right →
      ValidExpr vars (.and left right pos)
  | or {left right : Expr} {pos : Position} : ValidExpr vars left → ValidExpr vars right →
      ValidExpr vars (.or left right pos)

/-- The variable that a statement adds to those of its block. -/
def Stmt.declared : Stmt → List String
  | .declare name _ _ => [name]
  | _ => []

mutual

/-- A statement is well formed where some variables are visible. -/
inductive ValidStmt : List String → Stmt → Prop
  | declare {vars : List String} {name : String} {value : Expr} {pos : Position} :
      ValidExpr p owner vars value → ValidStmt vars (.declare name value pos)
  | assign {vars : List String} {name : String} {value : Expr} {pos : Position} :
      ValidExpr p owner vars value → name ∈ vars → ValidStmt vars (.assign name value pos)
  | branch {vars : List String} {condition : Expr} {thenBody : List Stmt}
      {elseBody : Option (List Stmt)} : ValidExpr p owner vars condition → ValidBody vars thenBody →
      (∀ stmts, elseBody = some stmts → ValidBody vars stmts) →
      ValidStmt vars (.branch condition thenBody elseBody)
  | loop {vars : List String} {condition : Expr} {body : List Stmt} :
      ValidExpr p owner vars condition → ValidBody vars body → ValidStmt vars (.loop condition body)
  | ret {vars : List String} {value : Option Expr} {pos : Position} :
      (∀ e, value = some e → ValidExpr p owner vars e) → ValidStmt vars (.ret value pos)
  | expr {vars : List String} {value : Expr} : ValidExpr p owner vars value →
      ValidStmt vars (.expr value)

/-- The statements of a block are well formed where some variables are visible in front of it. -/
inductive ValidBody : List String → List Stmt → Prop
  | nil {vars : List String} : ValidBody vars []
  | cons {vars : List String} {s : Stmt} {rest : List Stmt} : ValidStmt vars s →
      ValidBody (s.declared ++ vars) rest → ValidBody vars (s :: rest)

end

/-! ### One construct at a time -/

section
variable {p owner} {vars : List String} {pos : Position}

theorem ValidExpr.var_iff {name : String} : ValidExpr p owner vars (.var name pos) ↔ name ∈ vars :=
  ⟨fun | .var h => h, .var⟩

theorem ValidExpr.call_iff {name : String} {es : List Expr} :
    ValidExpr p owner vars (.call name es pos) ↔
      (∀ e ∈ es, ValidExpr p owner vars e) ∧ name ∉ vars ∧ p.callArity? owner name = some es.length :=
  ⟨fun | .call hes hname harity => ⟨hes, hname, harity⟩, fun ⟨hes, hname, harity⟩ => .call hes hname harity⟩

theorem ValidExpr.memberCall_iff {target method : String} {es : List Expr} :
    ValidExpr p owner vars (.memberCall target method es pos) ↔
      (∀ e ∈ es, ValidExpr p owner vars e) ∧ p.memberCallArity? owner target method = some es.length :=
  ⟨fun | .memberCall hes harity => ⟨hes, harity⟩, fun ⟨hes, harity⟩ => .memberCall hes harity⟩

theorem ValidExpr.neg_iff {operand : Expr} :
    ValidExpr p owner vars (.neg operand pos) ↔ ValidExpr p owner vars operand :=
  ⟨fun | .neg h => h, .neg⟩

theorem ValidExpr.not_iff {operand : Expr} :
    ValidExpr p owner vars (.not operand pos) ↔ ValidExpr p owner vars operand :=
  ⟨fun | .not h => h, .not⟩

theorem ValidExpr.binary_iff {op : BinaryOp} {left right : Expr} :
    ValidExpr p owner vars (.binary op left right pos) ↔
      ValidExpr p owner vars left ∧ ValidExpr p owner vars right :=
  ⟨fun | .binary hl hr => ⟨hl, hr⟩, fun ⟨hl, hr⟩ => .binary hl hr⟩

theorem ValidExpr.and_iff {left right : Expr} :
    ValidExpr p owner vars (.and left right pos) ↔
      ValidExpr p owner vars left ∧ ValidExpr p owner vars right :=
  ⟨fun | .and hl hr => ⟨hl, hr⟩, fun ⟨hl, hr⟩ => .and hl hr⟩

theorem ValidExpr.or_iff {left right : Expr} :
    ValidExpr p owner vars (.or left right pos) ↔
      ValidExpr p owner vars left ∧ ValidExpr p owner vars right :=
  ⟨fun | .or hl hr => ⟨hl, hr⟩, fun ⟨hl, hr⟩ => .or hl hr⟩

theorem ValidStmt.declare_iff {name : String} {value : Expr} :
    ValidStmt p owner vars (.declare name value pos) ↔ ValidExpr p owner vars value :=
  ⟨fun | .declare h => h, .declare⟩

theorem ValidStmt.assign_iff {name : String} {value : Expr} :
    ValidStmt p owner vars (.assign name value pos) ↔ ValidExpr p owner vars value ∧ name ∈ vars :=
  ⟨fun | .assign h hname => ⟨h, hname⟩, fun ⟨h, hname⟩ => .assign h hname⟩

theorem ValidStmt.branch_iff {condition : Expr} {thenBody : List Stmt} {elseBody : Option (List Stmt)} :
    ValidStmt p owner vars (.branch condition thenBody elseBody) ↔
      ValidExpr p owner vars condition ∧ ValidBody p owner vars thenBody ∧
        ∀ stmts, elseBody = some stmts → ValidBody p owner vars stmts :=
  ⟨fun | .branch hc ht he => ⟨hc, ht, he⟩, fun ⟨hc, ht, he⟩ => .branch hc ht he⟩

theorem ValidStmt.loop_iff {condition : Expr} {body : List Stmt} :
    ValidStmt p owner vars (.loop condition body) ↔
      ValidExpr p owner vars condition ∧ ValidBody p owner vars body :=
  ⟨fun | .loop hc hb => ⟨hc, hb⟩, fun ⟨hc, hb⟩ => .loop hc hb⟩

theorem ValidStmt.ret_iff {value : Option Expr} :
    ValidStmt p owner vars (.ret value pos) ↔ ∀ e, value = some e → ValidExpr p owner vars e :=
  ⟨fun | .ret h => h, .ret⟩

theorem ValidStmt.expr_iff {value : Expr} :
    ValidStmt p owner vars (.expr value) ↔ ValidExpr p owner vars value :=
  ⟨fun | .expr h => h, .expr⟩

theorem ValidBody.cons_iff {s : Stmt} {rest : List Stmt} :
    ValidBody p owner vars (s :: rest) ↔
      ValidStmt p owner vars s ∧ ValidBody p owner (s.declared ++ vars) rest :=
  ⟨fun | .cons hs hrest => ⟨hs, hrest⟩, fun ⟨hs, hrest⟩ => .cons hs hrest⟩

end

/-! ### Whole units -/

/-- A function is well formed. -/
structure ValidFunction (decl : FunctionDecl) : Prop where
  params : (decl.params.map Prod.fst).Nodup
  body : ValidBody p owner (decl.params.map Prod.fst).reverse decl.body

/-- A plugin is well formed and implements a contract type. -/
structure ValidPlugin (contract : ContractType) (decl : PluginDecl) : Prop where
  name : decl.name = owner.unit.shortName
  supertype : ∃ location, p.meaning.supertype owner.unit owner.parsed.imports decl.supertype =
    some (location, .contract contract)
  functions : (decl.functions.map FunctionDecl.name).Nodup
  entry : ∃ f ∈ decl.functions, f.name = ContractType.entryOperation ∧ f.params = []
  bodies : ∀ f ∈ decl.functions, ValidFunction p owner f

/-- A unit is well formed and its plugin implements a contract type. -/
structure ValidUnit (contract : ContractType) : Prop where
  imports : (owner.parsed.imports.map Import.name).Nodup
  found : ∀ i ∈ owner.parsed.imports, (p.meaning.anywhere i.package i.name).isSome = true
  plugin : ∃ decl, owner.parsed.plugin = some decl ∧ ValidPlugin p owner contract decl

/-- A module has the name of a unit, the current format, and the functions that the unit declares. -/
structure Module.Presents (m : Module) (owner : Member) : Prop where
  version : m.formatVersion = Module.currentVersion
  name : m.name = owner.unit.qualifiedName
  functions : m.functions.toList.map (fun f => (f.name, f.arity)) = owner.parsed.signatures

end
end PluginSandbox
