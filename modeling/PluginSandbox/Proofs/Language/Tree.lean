import PluginSandbox.Language.Tree

/-!
# Measures of syntax trees

The size of a tree (`Expr.size`, `Stmt.size`, `FunctionDecl.size`) is the number of its nodes, where a
parameter counts as a node.  A tree is plain if every name that it calls is an identifier.
-/

namespace PluginSandbox

/-! ## Sizes -/

mutual

/-- The number of nodes of an expression. -/
def Expr.size : Expr → Nat
  | .int _ _ | .str _ _ | .bool _ _ | .var _ _ => 1
  | .call _ es _ | .memberCall _ _ es _ => 1 + argsSize es
  | .neg operand _ | .not operand _ => 1 + operand.size
  | .binary _ left right _ | .and left right _ | .or left right _ => 1 + left.size + right.size

/-- The number of nodes of arguments. -/
def argsSize : List Expr → Nat
  | [] => 0
  | e :: rest => e.size + argsSize rest

end

mutual

/-- The number of nodes of a statement. -/
def Stmt.size : Stmt → Nat
  | .declare _ value _ | .assign _ value _ | .expr value => 1 + value.size
  | .branch condition thenBody elseBody =>
    1 + condition.size + bodySize thenBody + optionalSize elseBody
  | .loop condition body => 1 + condition.size + bodySize body
  | .ret none _ => 1
  | .ret (some value) _ => 1 + value.size

/-- The number of nodes of the statements of a block. -/
def bodySize : List Stmt → Nat
  | [] => 0
  | s :: rest => s.size + bodySize rest

/-- The number of nodes of the statements of a block that may be missing. -/
def optionalSize : Option (List Stmt) → Nat
  | none => 0
  | some stmts => bodySize stmts

end

/-- The number of nodes of a function. -/
def FunctionDecl.size (f : FunctionDecl) : Nat :=
  1 + f.params.length + bodySize f.body

/-- The sizes of some trees, added up. -/
def totalSize {α : Type} (size : α → Nat) : List α → Nat
  | [] => 0
  | a :: rest => size a + totalSize size rest

section
variable {α : Type} (size : α → Nat)

theorem totalSize_append (l more : List α) :
    totalSize size (l ++ more) = totalSize size l + totalSize size more := by
  induction l with
  | nil => exact (Nat.zero_add _).symm
  | cons a l ih => rw [List.cons_append, totalSize, totalSize, ih, Nat.add_assoc]

theorem totalSize_reverse (l : List α) : totalSize size l.reverse = totalSize size l := by
  induction l with
  | nil => rfl
  | cons a l ih =>
    rw [List.reverse_cons, totalSize_append, ih, totalSize, totalSize, totalSize, Nat.add_zero, Nat.add_comm]

end

theorem Expr.size_pos (e : Expr) : 0 < e.size := by
  cases e <;> rw [size] <;> omega

theorem Stmt.size_pos (s : Stmt) : 0 < s.size := by
  rw [size.eq_def]
  split <;> omega

theorem argsSize_eq_totalSize (es : List Expr) : argsSize es = totalSize Expr.size es := by
  induction es with
  | nil => rfl
  | cons e es ih => rw [argsSize, ih, totalSize]

theorem argsSize_reverse (es : List Expr) : argsSize es.reverse = argsSize es := by
  rw [argsSize_eq_totalSize, argsSize_eq_totalSize, totalSize_reverse]

/-- Every argument is a node at least. -/
theorem length_le_argsSize (es : List Expr) : es.length ≤ argsSize es := by
  induction es with
  | nil => exact Nat.le_refl 0
  | cons e es ih =>
    have he := e.size_pos
    rw [argsSize, List.length_cons]
    omega

theorem bodySize_eq_totalSize (stmts : List Stmt) : bodySize stmts = totalSize Stmt.size stmts := by
  induction stmts with
  | nil => rfl
  | cons s stmts ih => rw [bodySize, ih, totalSize]

theorem bodySize_reverse (stmts : List Stmt) : bodySize stmts.reverse = bodySize stmts := by
  rw [bodySize_eq_totalSize, bodySize_eq_totalSize, totalSize_reverse]

/-! ## Called names -/

mutual

/-- Every name that an expression calls is an identifier. -/
def Expr.Plain : Expr → Prop
  | .call name es _ => isIdentifier name = true ∧ ArgsPlain es
  | .memberCall _ _ es _ => ArgsPlain es
  | .neg operand _ | .not operand _ => operand.Plain
  | .binary _ left right _ | .and left right _ | .or left right _ => left.Plain ∧ right.Plain
  | .int _ _ | .str _ _ | .bool _ _ | .var _ _ => True

/-- Every name that arguments call is an identifier. -/
def ArgsPlain : List Expr → Prop
  | [] => True
  | e :: rest => e.Plain ∧ ArgsPlain rest

end

mutual

/-- Every name that a statement calls is an identifier. -/
def Stmt.Plain : Stmt → Prop
  | .declare _ value _ | .assign _ value _ | .expr value => value.Plain
  | .branch condition thenBody elseBody =>
    condition.Plain ∧ BodyPlain thenBody ∧ OptionalPlain elseBody
  | .loop condition body => condition.Plain ∧ BodyPlain body
  | .ret none _ => True
  | .ret (some value) _ => value.Plain

/-- Every name that the statements of a block call is an identifier. -/
def BodyPlain : List Stmt → Prop
  | [] => True
  | s :: rest => s.Plain ∧ BodyPlain rest

/-- Every name that is called in a block that may be missing is an identifier. -/
def OptionalPlain : Option (List Stmt) → Prop
  | none => True
  | some stmts => BodyPlain stmts

end

theorem argsPlain_iff {es : List Expr} : ArgsPlain es ↔ ∀ e ∈ es, e.Plain := by
  induction es with
  | nil => simp [ArgsPlain]
  | cons e es ih => rw [ArgsPlain, ih, List.forall_mem_cons]

theorem argsPlain_reverse {es : List Expr} : ArgsPlain es.reverse ↔ ArgsPlain es := by
  simp [argsPlain_iff]

theorem bodyPlain_iff {stmts : List Stmt} : BodyPlain stmts ↔ ∀ s ∈ stmts, s.Plain := by
  induction stmts with
  | nil => simp [BodyPlain]
  | cons s stmts ih => rw [BodyPlain, ih, List.forall_mem_cons]

theorem bodyPlain_reverse {stmts : List Stmt} : BodyPlain stmts.reverse ↔ BodyPlain stmts := by
  simp [bodyPlain_iff]

end PluginSandbox
