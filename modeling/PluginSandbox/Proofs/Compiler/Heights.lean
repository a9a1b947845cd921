import PluginSandbox.Proofs.Compiler.Compiled
import PluginSandbox.Proofs.Machine.Heights

/-!
# Heights in generated code

The height of the operand stack at every place of generated code can be read off the tree that the code was
generated from: an expression leaves one operand more than it finds, and a statement starts and ends without any.

* `Expr.heights`, `Stmt.heights` and `FunctionDecl.heights` list these heights, one for each operation.
* `FunctionDecl.boundaries` are the places between statements, at every depth: where a statement starts, and where a
  block ends.
* `FunctionCode.balanced` says that the code of a function is balanced with these heights, which are zero at each
  boundary.

## How the parts fit together

The operations of a part are asked to agree with one assignment of heights to all places of the function, of which it
is known only what it is inside of the part and right behind it.  So a jump out of a part, or over another one, needs
no case of its own: its target is the first place of something, and something has its first height (`head`).
-/

namespace PluginSandbox

/-! ## Heights of the parts -/

mutual

/-- The heights at the operations of an expression that finds some number of operands. -/
def Expr.heights (h : Nat) : Expr → List Nat
  | .int _ _ | .str _ _ | .bool _ _ | .var _ _ => [h]
  | .call _ es _ | .memberCall _ _ es _ => argsHeights h es ++ [h + es.length]
  | .neg operand _ | .not operand _ => operand.heights h ++ [h + 1]
  | .binary _ left right _ => left.heights h ++ right.heights (h + 1) ++ [h + 2]
  | .and left right _ => left.heights h ++ [h + 1] ++ right.heights h ++ [h + 1, h]
  | .or left right _ => left.heights h ++ [h + 1, h, h + 1] ++ right.heights h

/-- The heights at the operations of arguments, each of which stays on the stack. -/
def argsHeights (h : Nat) : List Expr → List Nat
  | [] => []
  | e :: rest => e.heights h ++ argsHeights (h + 1) rest

end

mutual

/-- The heights at the operations of a statement. -/
def Stmt.heights : Stmt → List Nat
  | .declare _ value _ | .assign _ value _ | .expr value | .ret (some value) _ => value.heights 0 ++ [1]
  | .branch condition thenBody elseBody =>
    condition.heights 0 ++ [1] ++ bodyHeights thenBody ++ [0] ++ optionalHeights elseBody
  | .loop condition body => condition.heights 0 ++ [1] ++ bodyHeights body ++ [0]
  | .ret none _ => [0, 1]

/-- The heights at the operations of the statements of a block. -/
def bodyHeights : List Stmt → List Nat
  | [] => []
  | s :: rest => s.heights ++ bodyHeights rest

/-- The heights at the operations of a block that may be missing. -/
def optionalHeights : Option (List Stmt) → List Nat
  | none => []
  | some stmts => bodyHeights stmts

end

mutual

/-- The places between the statements inside of a statement whose code starts at some place. -/
def Stmt.boundaries (start : Nat) : Stmt → List Nat
  | .branch condition thenBody elseBody =>
    let thenStart := start + (condition.heights 0).length + 1
    bodyBoundaries thenStart thenBody ++
      optionalBoundaries (thenStart + (bodyHeights thenBody).length + 1) elseBody
  | .loop condition body => bodyBoundaries (start + (condition.heights 0).length + 1) body
  | .declare _ _ _ | .assign _ _ _ | .ret _ _ | .expr _ => []

/-- The places between the statements of a block, its start and its end included, and those inside of them. -/
def bodyBoundaries (start : Nat) : List Stmt → List Nat
  | [] => [start]
  | s :: rest => start :: (s.boundaries start ++ bodyBoundaries (start + s.heights.length) rest)

/-- The places between the statements of a block that may be missing. -/
def optionalBoundaries (start : Nat) : Option (List Stmt) → List Nat
  | none => [start]
  | some stmts => bodyBoundaries start stmts

end

namespace FunctionDecl

/-- The heights at the operations of a function: behind its body it returns the unit value. -/
def heights (decl : FunctionDecl) : List Nat :=
  bodyHeights decl.body ++ [0, 1]

/-- The height of the stack at a place of a function. -/
def heightAt (decl : FunctionDecl) (pc : Nat) : Nat :=
  decl.heights.getD pc 0

/-- The places between the statements of a function, at every depth. -/
def boundaries (decl : FunctionDecl) : List Nat :=
  bodyBoundaries 0 decl.body

end FunctionDecl

/-! ## Agreement with one assignment of heights -/

section
variable {whole : Nat → Nat}

/-- Some heights are those of the places from some place on. -/
def HeightsAt (whole : Nat → Nat) : Nat → List Nat → Prop
  | _, [] => True
  | start, h :: rest => whole start = h ∧ HeightsAt whole (start + 1) rest

/-- Some operations that stand from some place on agree with the heights of all places. -/
def KeepHeights (whole : Nat → Nat) : Nat → List Op → Prop
  | _, [] => True
  | start, op :: rest => op.KeepsHeights whole start ∧ KeepHeights whole (start + 1) rest

theorem along_heightsAt : Along (fun pc h => whole pc = h) (HeightsAt whole) :=
  ⟨fun _ => trivial, fun _ _ _ => Iff.rfl⟩

theorem along_keepHeights : Along (fun pc op => op.KeepsHeights whole pc) (KeepHeights whole) :=
  ⟨fun _ => trivial, fun _ _ _ => Iff.rfl⟩

theorem heightsAt_append {start : Nat} {hs more : List Nat} :
    HeightsAt whole start (hs ++ more) ↔ HeightsAt whole start hs ∧ HeightsAt whole (start + hs.length) more :=
  along_heightsAt.append

theorem keepHeights_append {start : Nat} {code more : List Op} :
    KeepHeights whole start (code ++ more) ↔
      KeepHeights whole start code ∧ KeepHeights whole (start + code.length) more :=
  along_keepHeights.append

/-! ### One operation -/

section
variable {pc : Nat} {op : Op}

/-- An operation that only ever goes on to the place behind it. -/
theorem keepsHeights_straight (hsuccessors : op.successors pc = [pc + 1]) {h k : Nat} (hpc : whole pc = h)
    (hnext : whole (pc + 1) = k) (hle : op.operands ≤ h) (hk : k + op.operands = h + op.results) :
    op.KeepsHeights whole pc where
  operands := hpc ▸ hle
  edges := by
    intro next hmem
    rw [hsuccessors, List.mem_singleton] at hmem
    rw [hmem, hnext, hpc]
    exact hk
  ret := by
    rintro rfl
    exact absurd hsuccessors (by simp [Op.successors])
  loop := by
    rintro target rfl hback
    have htarget : [target] = [pc + 1] := hsuccessors
    obtain rfl := List.cons.inj htarget |>.1
    omega

theorem keepsHeights_jumpIfFalse {target h : Nat} (hpc : whole pc = h + 1) (hnext : whole (pc + 1) = h)
    (htarget : whole target = h) : Op.KeepsHeights whole pc (.jumpIfFalse target) where
  operands := by
    rw [hpc]
    exact Nat.le_add_left 1 h
  edges := by
    intro next hmem
    obtain rfl | rfl : next = pc + 1 ∨ next = target := by simpa [Op.successors] using hmem
    · rw [hnext, hpc]
      rfl
    · rw [htarget, hpc]
      rfl
  ret := nofun
  loop := nofun

theorem keepsHeights_jump {target h : Nat} (hpc : whole pc = h) (htarget : whole target = h)
    (hloop : target ≤ pc → h = 0) : Op.KeepsHeights whole pc (.jump target) where
  operands := Nat.zero_le _
  edges := by
    intro next hmem
    obtain rfl : next = target := by simpa [Op.successors] using hmem
    rw [htarget, hpc]
    rfl
  ret := nofun
  loop := by
    rintro _ ⟨⟩ hback
    rw [htarget, hloop hback]

theorem keepsHeights_ret (hpc : whole pc = 1) : Op.KeepsHeights whole pc .ret where
  operands := Nat.le_of_eq hpc.symm
  edges := nofun
  ret := fun _ => hpc
  loop := nofun

/-- An operation that calls what a name means pops the arguments and pushes the result. -/
theorem CallsTo.keepsHeights {p : Program} {owner : Member} {callee : Option Callee} {argc : Nat}
    (hcalls : CallsTo p owner callee argc op) {h : Nat} (hpc : whole pc = h + argc) (hnext : whole (pc + 1) = h + 1) :
    op.KeepsHeights whole pc := by
  cases hcalls with
  | own | other | native =>
    refine keepsHeights_straight rfl hpc hnext (Nat.le_add_left _ _) ?_
    exact Nat.add_right_comm _ _ _

end

/-! ### Expressions -/

mutual

/-- An expression starts with the operands that it finds. -/
theorem Expr.head_heights : ∀ (e : Expr) {start h : Nat}, HeightsAt whole start (e.heights h) → whole start = h
  | .int _ _, _, _, hat | .str _ _, _, _, hat | .bool _ _, _, _, hat | .var _ _, _, _, hat => hat.1
  | .call _ es _, _, _, hat | .memberCall _ _ es _, _, _, hat => by
    rw [Expr.heights, heightsAt_append] at hat
    exact head_argsHeights es hat.1 hat.2.1
  | .neg operand _, _, _, hat | .not operand _, _, _, hat => by
    rw [Expr.heights, heightsAt_append] at hat
    exact operand.head_heights hat.1
  | .binary _ left _ _, _, _, hat | .or left _ _, _, _, hat => by
    rw [Expr.heights, heightsAt_append, heightsAt_append] at hat
    exact left.head_heights hat.1.1
  | .and left _ _, _, _, hat => by
    rw [Expr.heights, heightsAt_append, heightsAt_append, heightsAt_append] at hat
    exact left.head_heights hat.1.1.1

/-- Arguments start with the operands that they find, also where there are none. -/
theorem head_argsHeights : ∀ (es : List Expr) {start h : Nat}, HeightsAt whole start (argsHeights h es) →
    whole (start + (argsHeights h es).length) = h + es.length → whole start = h
  | [], _, _, _, hend => hend
  | e :: _, _, _, hat, _ => by
    rw [argsHeights, heightsAt_append] at hat
    exact e.head_heights hat.1

end

variable {p : Program} {owner : Member} {scope : Scope}

mutual

/-- There is a height for each operation of an expression. -/
theorem ExprCode.length_heights : ∀ {start : Nat} {e : Expr} {code : List Op},
    ExprCode p owner scope start e code → ∀ h, (e.heights h).length = code.length
  | _, _, _, .int, _ | _, _, _, .str, _ | _, _, _, .bool, _ | _, _, _, .var _, _ => rfl
  | _, _, _, .call hargs _, h | _, _, _, .memberCall hargs _, h => by
    have hlength := ArgsCode.length_heights hargs h
    simp only [Expr.heights, List.length_append, List.length_singleton, hlength]
  | _, _, _, .neg hcode, h | _, _, _, .not hcode, h => by
    have hlength := ExprCode.length_heights hcode h
    simp only [Expr.heights, List.length_append, List.length_singleton, hlength]
  | _, _, _, .binary hl hr, h => by
    have hleft := ExprCode.length_heights hl h
    have hright := ExprCode.length_heights hr (h + 1)
    simp only [Expr.heights, List.length_append, List.length_singleton, hleft, hright]
  | _, _, _, .and hl hr, h | _, _, _, .or hl hr, h => by
    have hleft := ExprCode.length_heights hl h
    have hright := ExprCode.length_heights hr h
    simp only [Expr.heights, List.length_append, List.length_cons, List.length_nil, hleft, hright]

theorem ArgsCode.length_heights : ∀ {start : Nat} {es : List Expr} {code : List Op},
    ArgsCode p owner scope start es code → ∀ h, (argsHeights h es).length = code.length
  | _, _, _, .nil, _ => rfl
  | _, _, _, .cons hcode hrest, h => by
    have hfirst := ExprCode.length_heights hcode h
    have hmore := ArgsCode.length_heights hrest (h + 1)
    rw [argsHeights, List.length_append, List.length_append, hfirst, hmore]

end

mutual

/-- The operations of an expression agree with its heights, if there is one operand more behind it. -/
theorem ExprCode.keepHeights : ∀ {start : Nat} {e : Expr} {code : List Op},
    ExprCode p owner scope start e code → ∀ {h : Nat}, HeightsAt whole start (e.heights h) →
      whole (start + code.length) = h + 1 → KeepHeights whole start code
  | _, _, _, .int, _, hat, hend | _, _, _, .str, _, hat, hend | _, _, _, .bool, _, hat, hend
  | _, _, _, .var _, _, hat, hend => ⟨keepsHeights_straight rfl hat.1 hend (Nat.zero_le _) rfl, trivial⟩
  | _, _, _, .call hargs hcalls, h, hat, hend | _, _, _, .memberCall hargs hcalls, h, hat, hend => by
    have hlength := ArgsCode.length_heights hargs h
    rw [Expr.heights, heightsAt_append, hlength] at hat
    obtain ⟨hargsAt, hop, _⟩ := hat
    rw [List.length_append, List.length_singleton, ← Nat.add_assoc] at hend
    exact keepHeights_append.2 ⟨ArgsCode.keepHeights hargs hargsAt hop, hcalls.keepsHeights hop hend, trivial⟩
  | _, _, _, .neg hcode, h, hat, hend | _, _, _, .not hcode, h, hat, hend => by
    have hlength := ExprCode.length_heights hcode h
    rw [Expr.heights, heightsAt_append, hlength] at hat
    obtain ⟨hoperand, hop, _⟩ := hat
    rw [List.length_append, List.length_singleton, ← Nat.add_assoc] at hend
    exact keepHeights_append.2 ⟨ExprCode.keepHeights hcode hoperand hop,
      keepsHeights_straight rfl hop hend (Nat.le_add_left _ _) rfl, trivial⟩
  | _, .binary _ left right _, _, .binary hl hr, h, hat, hend => by
    have hleft := ExprCode.length_heights hl h
    have hright := ExprCode.length_heights hr (h + 1)
    simp only [Expr.heights, heightsAt_append, HeightsAt, List.length_append, hleft, hright, ← Nat.add_assoc]
      at hat
    obtain ⟨⟨hlAt, hrAt⟩, hop, _⟩ := hat
    simp only [List.length_append, List.length_singleton, ← Nat.add_assoc] at hend
    simp only [keepHeights_append, KeepHeights, List.length_append, ← Nat.add_assoc]
    exact ⟨⟨ExprCode.keepHeights hl hlAt (right.head_heights hrAt), ExprCode.keepHeights hr hrAt hop⟩,
      keepsHeights_straight rfl hop hend (Nat.le_add_left _ _) rfl, trivial⟩
  | _, .and left right _, _, .and hl hr, h, hat, hend => by
    have hleft := ExprCode.length_heights hl h
    have hright := ExprCode.length_heights hr h
    simp only [Expr.heights, heightsAt_append, HeightsAt, List.length_append, List.length_cons, List.length_nil,
      Nat.zero_add, hleft, hright, ← Nat.add_assoc] at hat
    obtain ⟨⟨⟨hlAt, htest, _⟩, hrAt⟩, hskip, hfalse, _⟩ := hat
    simp only [List.length_append, List.length_cons, List.length_nil, Nat.zero_add, ← Nat.add_assoc] at hend
    simp only [keepHeights_append, KeepHeights, List.length_append, List.length_cons, List.length_nil,
      Nat.zero_add, ← Nat.add_assoc]
    -- where the left operand is false, its value was popped by the test and is pushed again
    exact ⟨⟨⟨ExprCode.keepHeights hl hlAt htest,
          keepsHeights_jumpIfFalse htest (right.head_heights hrAt) hfalse, trivial⟩,
        ExprCode.keepHeights hr hrAt hskip⟩,
      keepsHeights_jump hskip hend (by omega), keepsHeights_straight rfl hfalse hend (Nat.zero_le _) rfl, trivial⟩
  | _, .or left right _, _, .or hl hr, h, hat, hend => by
    have hleft := ExprCode.length_heights hl h
    simp only [Expr.heights, heightsAt_append, HeightsAt, List.length_append, List.length_cons, List.length_nil,
      Nat.zero_add, hleft, ← Nat.add_assoc] at hat
    obtain ⟨⟨hlAt, htest, htrue, hskip, _⟩, hrAt⟩ := hat
    have hrHead := right.head_heights hrAt
    simp only [List.length_append, List.length_cons, List.length_nil, Nat.zero_add, ← Nat.add_assoc] at hend
    simp only [keepHeights_append, KeepHeights, List.length_append, List.length_cons, List.length_nil,
      Nat.zero_add, ← Nat.add_assoc]
    exact ⟨⟨ExprCode.keepHeights hl hlAt htest, keepsHeights_jumpIfFalse htest htrue hrHead,
        keepsHeights_straight rfl htrue hskip (Nat.zero_le _) rfl,
        keepsHeights_jump hskip hend (by omega), trivial⟩,
      ExprCode.keepHeights hr hrAt hend⟩

/-- The operations of arguments agree with their heights, if all of them are on the stack behind them. -/
theorem ArgsCode.keepHeights : ∀ {start : Nat} {es : List Expr} {code : List Op},
    ArgsCode p owner scope start es code → ∀ {h : Nat}, HeightsAt whole start (argsHeights h es) →
      whole (start + code.length) = h + es.length → KeepHeights whole start code
  | _, _, _, .nil, _, _, _ => trivial
  | _, e :: rest, _, .cons hcode hrest, h, hat, hend => by
    have hfirst := ExprCode.length_heights hcode h
    have hmore := ArgsCode.length_heights hrest (h + 1)
    rw [argsHeights, heightsAt_append, hfirst] at hat
    rw [List.length_append, List.length_cons, ← Nat.add_assoc, Nat.add_comm rest.length, ← Nat.add_assoc] at hend
    refine keepHeights_append.2 ⟨ExprCode.keepHeights hcode hat.1 ?_, ArgsCode.keepHeights hrest hat.2 hend⟩
    exact head_argsHeights rest hat.2 (by rw [hmore]; exact hend)

end

/-! ### Statements -/

/-- A statement starts without operands. -/
theorem Stmt.head_heights (s : Stmt) {start : Nat} (hat : HeightsAt whole start s.heights) : whole start = 0 := by
  cases s with
  | declare name value pos | assign name value pos | expr value =>
    rw [Stmt.heights, heightsAt_append] at hat
    exact value.head_heights hat.1
  | branch condition thenBody elseBody =>
    simp only [Stmt.heights, heightsAt_append] at hat
    exact condition.head_heights hat.1.1.1.1
  | loop condition body =>
    simp only [Stmt.heights, heightsAt_append] at hat
    exact condition.head_heights hat.1.1.1
  | ret value pos =>
    cases value with
    | none => exact hat.1
    | some value =>
      rw [Stmt.heights, heightsAt_append] at hat
      exact value.head_heights hat.1

/-- A block starts without operands, also where it is empty. -/
theorem head_bodyHeights (stmts : List Stmt) {start : Nat} (hat : HeightsAt whole start (bodyHeights stmts))
    (hend : whole (start + (bodyHeights stmts).length) = 0) : whole start = 0 := by
  cases stmts with
  | nil => exact hend
  | cons s rest =>
    rw [bodyHeights, heightsAt_append] at hat
    exact s.head_heights hat.1

theorem head_optionalHeights (stmts : Option (List Stmt)) {start : Nat}
    (hat : HeightsAt whole start (optionalHeights stmts))
    (hend : whole (start + (optionalHeights stmts).length) = 0) : whole start = 0 := by
  cases stmts with
  | none => exact hend
  | some stmts => exact head_bodyHeights stmts hat hend

mutual

/-- There is a height for each operation of a statement. -/
theorem StmtCode.length_heights : ∀ {scope after : Scope} {start : Nat} {s : Stmt} {code : List Op},
    StmtCode p owner scope start s code after → s.heights.length = code.length
  | _, _, _, _, _, .declare h | _, _, _, _, _, .assign h _ | _, _, _, _, _, .ret h | _, _, _, _, _, .expr h => by
    have hlength := h.length_heights 0
    simp only [Stmt.heights, List.length_append, List.length_singleton, hlength]
  | _, _, _, _, _, .retUnit => rfl
  | _, _, _, _, _, .branch hc ht he => by
    have hcondition := hc.length_heights 0
    have hthen := BodyCode.length_heights ht
    have helse := OptionalCode.length_heights he
    simp only [Stmt.heights, List.length_append, List.length_singleton, hcondition, hthen, helse]
  | _, _, _, _, _, .loop hc hb => by
    have hcondition := hc.length_heights 0
    have hbody := BodyCode.length_heights hb
    simp only [Stmt.heights, List.length_append, List.length_singleton, hcondition, hbody]

theorem BodyCode.length_heights : ∀ {scope after : Scope} {start : Nat} {stmts : List Stmt} {code : List Op},
    BodyCode p owner scope start stmts code after → (bodyHeights stmts).length = code.length
  | _, _, _, _, _, .nil => rfl
  | _, _, _, _, _, .cons h hrest => by
    have hfirst := StmtCode.length_heights h
    have hmore := BodyCode.length_heights hrest
    rw [bodyHeights, List.length_append, List.length_append, hfirst, hmore]

theorem OptionalCode.length_heights : ∀ {scope after : Scope} {start : Nat} {stmts : Option (List Stmt)}
    {code : List Op}, OptionalCode p owner scope start stmts code after →
      (optionalHeights stmts).length = code.length
  | _, _, _, _, _, .none => rfl
  | _, _, _, _, _, .some h => BodyCode.length_heights h

end

mutual

/-- The operations of a statement agree with its heights, if there are no operands behind it. -/
theorem StmtCode.keepHeights : ∀ {scope after : Scope} {start : Nat} {s : Stmt} {code : List Op},
    StmtCode p owner scope start s code after → HeightsAt whole start s.heights →
      whole (start + code.length) = 0 → KeepHeights whole start code
  | _, _, _, _, _, .declare h, hat, hend | _, _, _, _, _, .assign h _, hat, hend
  | _, _, _, _, _, .expr h, hat, hend => by
    have hlength := h.length_heights 0
    rw [Stmt.heights, heightsAt_append, hlength] at hat
    obtain ⟨hvalue, hop, _⟩ := hat
    rw [List.length_append, List.length_singleton, ← Nat.add_assoc] at hend
    exact keepHeights_append.2 ⟨h.keepHeights hvalue hop,
      keepsHeights_straight rfl hop hend (Nat.le_refl _) rfl, trivial⟩
  | _, _, _, _, _, .ret h, hat, _ => by
    have hlength := h.length_heights 0
    rw [Stmt.heights, heightsAt_append, hlength] at hat
    obtain ⟨hvalue, hop, _⟩ := hat
    exact keepHeights_append.2 ⟨h.keepHeights hvalue hop, keepsHeights_ret hop, trivial⟩
  | _, _, _, _, _, .retUnit, hat, _ => by
    obtain ⟨hunit, hop, _⟩ := hat
    exact ⟨keepsHeights_straight rfl hunit hop (Nat.zero_le _) rfl, keepsHeights_ret hop, trivial⟩
  | _, _, _, .branch condition thenBody elseBody, _, .branch hc ht he, hat, hend => by
    have hcondition := hc.length_heights 0
    have hthen := BodyCode.length_heights ht
    have helse := OptionalCode.length_heights he
    simp only [Stmt.heights, heightsAt_append, HeightsAt, List.length_append, List.length_singleton,
      hcondition, hthen, ← Nat.add_assoc] at hat
    obtain ⟨⟨⟨⟨hcAt, htest, _⟩, htAt⟩, hskip, _⟩, heAt⟩ := hat
    simp only [List.length_append, List.length_singleton, ← Nat.add_assoc] at hend
    have hthenHead := head_bodyHeights thenBody htAt (by rw [hthen]; exact hskip)
    have helseHead := head_optionalHeights elseBody heAt (by rw [helse]; exact hend)
    simp only [keepHeights_append, KeepHeights, List.length_append, List.length_singleton, ← Nat.add_assoc]
    exact ⟨⟨⟨⟨hc.keepHeights hcAt htest, keepsHeights_jumpIfFalse htest hthenHead helseHead, trivial⟩,
        BodyCode.keepHeights ht htAt hskip⟩, keepsHeights_jump hskip hend (by omega), trivial⟩,
      OptionalCode.keepHeights he heAt hend⟩
  | _, _, _, .loop condition body, _, .loop hc hb, hat, hend => by
    have hcondition := hc.length_heights 0
    have hbody := BodyCode.length_heights hb
    simp only [Stmt.heights, heightsAt_append, HeightsAt, List.length_append, List.length_singleton,
      hcondition, hbody, ← Nat.add_assoc] at hat
    obtain ⟨⟨⟨hcAt, htest, _⟩, hbAt⟩, hback, _⟩ := hat
    simp only [List.length_append, List.length_singleton, ← Nat.add_assoc] at hend
    have hbodyHead := head_bodyHeights body hbAt (by rw [hbody]; exact hback)
    simp only [keepHeights_append, KeepHeights, List.length_append, List.length_singleton, ← Nat.add_assoc]
    exact ⟨⟨⟨hc.keepHeights hcAt htest, keepsHeights_jumpIfFalse htest hbodyHead hend, trivial⟩,
        BodyCode.keepHeights hb hbAt hback⟩,
      keepsHeights_jump hback (condition.head_heights hcAt) fun _ => rfl, trivial⟩

/-- The operations of a block agree with its heights, if there are no operands behind it. -/
theorem BodyCode.keepHeights : ∀ {scope after : Scope} {start : Nat} {stmts : List Stmt} {code : List Op},
    BodyCode p owner scope start stmts code after → HeightsAt whole start (bodyHeights stmts) →
      whole (start + code.length) = 0 → KeepHeights whole start code
  | _, _, _, _, _, .nil, _, _ => trivial
  | _, _, _, _ :: rest, _, .cons h hrest, hat, hend => by
    have hfirst := StmtCode.length_heights h
    have hmore := BodyCode.length_heights hrest
    rw [bodyHeights, heightsAt_append, hfirst] at hat
    rw [List.length_append, ← Nat.add_assoc] at hend
    refine keepHeights_append.2 ⟨StmtCode.keepHeights h hat.1 ?_, BodyCode.keepHeights hrest hat.2 hend⟩
    exact head_bodyHeights rest hat.2 (by rw [hmore]; exact hend)

theorem OptionalCode.keepHeights : ∀ {scope after : Scope} {start : Nat} {stmts : Option (List Stmt)}
    {code : List Op}, OptionalCode p owner scope start stmts code after →
      HeightsAt whole start (optionalHeights stmts) → whole (start + code.length) = 0 →
      KeepHeights whole start code
  | _, _, _, _, _, .none, _, _ => trivial
  | _, _, _, _, _, .some h, hat, hend => BodyCode.keepHeights h hat hend

end

/-! ### Boundaries -/

mutual

/-- There are no operands between the statements inside of a statement. -/
theorem Stmt.height_boundary : ∀ (s : Stmt) {start : Nat}, HeightsAt whole start s.heights →
    whole (start + s.heights.length) = 0 → ∀ pc ∈ s.boundaries start, whole pc = 0
  | .declare _ _ _, _, _, _ | .assign _ _ _, _, _, _ | .ret _ _, _, _, _ | .expr _, _, _, _ => nofun
  | .branch condition thenBody elseBody, start, hat, hend => by
    simp only [Stmt.heights, heightsAt_append, HeightsAt, List.length_append, List.length_singleton,
      ← Nat.add_assoc] at hat hend
    obtain ⟨⟨⟨_, htAt⟩, hskip, _⟩, heAt⟩ := hat
    exact List.forall_mem_append.2 ⟨body_height_boundary thenBody htAt hskip,
      optional_height_boundary elseBody heAt hend⟩
  | .loop condition body, start, hat, hend => by
    simp only [Stmt.heights, heightsAt_append, HeightsAt, List.length_append, List.length_singleton,
      ← Nat.add_assoc] at hat
    obtain ⟨⟨_, hbAt⟩, hback, _⟩ := hat
    exact body_height_boundary body hbAt hback

/-- There are no operands between the statements of a block, nor at its start or its end. -/
theorem body_height_boundary : ∀ (stmts : List Stmt) {start : Nat}, HeightsAt whole start (bodyHeights stmts) →
    whole (start + (bodyHeights stmts).length) = 0 → ∀ pc ∈ bodyBoundaries start stmts, whole pc = 0
  | [], _, _, hend => List.forall_mem_singleton.2 hend
  | s :: rest, start, hat, hend => by
    rw [bodyHeights, heightsAt_append] at hat
    rw [bodyHeights, List.length_append, ← Nat.add_assoc] at hend
    refine List.forall_mem_cons.2 ⟨s.head_heights hat.1, List.forall_mem_append.2 ⟨?_, ?_⟩⟩
    · exact s.height_boundary hat.1 (head_bodyHeights rest hat.2 hend)
    · exact body_height_boundary rest hat.2 hend

theorem optional_height_boundary : ∀ (stmts : Option (List Stmt)) {start : Nat},
    HeightsAt whole start (optionalHeights stmts) → whole (start + (optionalHeights stmts).length) = 0 →
      ∀ pc ∈ optionalBoundaries start stmts, whole pc = 0
  | none, _, _, hend => List.forall_mem_singleton.2 hend
  | some stmts, _, hat, hend => body_height_boundary stmts hat hend

end

mutual

/-- The places between the statements inside of a statement are places of its code, or the one behind it. -/
theorem Stmt.boundary_le : ∀ (s : Stmt) {start : Nat}, ∀ pc ∈ s.boundaries start, pc ≤ start + s.heights.length
  | .declare _ _ _, _ | .assign _ _ _, _ | .ret _ _, _ | .expr _, _ => nofun
  | .branch condition thenBody elseBody, start => by
    simp only [Stmt.heights, List.length_append, List.length_singleton, ← Nat.add_assoc]
    refine List.forall_mem_append.2 ⟨fun pc hpc => ?_, optional_boundary_le elseBody⟩
    have hle := body_boundary_le thenBody pc hpc
    omega
  | .loop condition body, start => by
    simp only [Stmt.heights, List.length_append, List.length_singleton, ← Nat.add_assoc]
    exact fun pc hpc => Nat.le_succ_of_le (body_boundary_le body pc hpc)

theorem body_boundary_le : ∀ (stmts : List Stmt) {start : Nat}, ∀ pc ∈ bodyBoundaries start stmts,
    pc ≤ start + (bodyHeights stmts).length
  | [], _ => List.forall_mem_singleton.2 (Nat.le_refl _)
  | s :: rest, start => by
    rw [bodyHeights, List.length_append, ← Nat.add_assoc]
    refine List.forall_mem_cons.2 ⟨by omega, List.forall_mem_append.2 ⟨fun pc hpc => ?_, body_boundary_le rest⟩⟩
    exact Nat.le_add_right_of_le (s.boundary_le pc hpc)

theorem optional_boundary_le : ∀ (stmts : Option (List Stmt)) {start : Nat},
    ∀ pc ∈ optionalBoundaries start stmts, pc ≤ start + (optionalHeights stmts).length
  | none, _ => List.forall_mem_singleton.2 (Nat.le_refl _)
  | some stmts, _ => body_boundary_le stmts

end

end

/-! ## Functions -/

namespace FunctionCode

variable {p : Program} {owner : Member} {decl : FunctionDecl} {f : Function}

theorem heightsAt (decl : FunctionDecl) : HeightsAt decl.heightAt 0 decl.heights := by
  refine along_heightsAt.of_getElem? fun i k hk => ?_
  rw [Nat.zero_add, FunctionDecl.heightAt, List.getD_eq_getElem?_getD, hk]
  rfl

/-- The control flow does not leave the code of a function. -/
theorem successor_lt (h : FunctionCode p owner decl f) {pc : Nat} {op : Op} (hop : f.code[pc]? = some op) :
    ∀ next ∈ op.successors pc, next < f.code.size := by
  obtain ⟨hlt, _⟩ := Array.getElem?_eq_some_iff.1 hop
  have hplaced := h.placed.2 op (Array.mem_toList_iff.2 (Array.mem_of_getElem? hop))
  have hbehind : op.endsCode = false → pc + 1 < f.code.size := Function.lt_size_of_endsCode h.endsCode hop
  intro next hnext
  cases op with
  | jump target =>
    obtain rfl := List.mem_singleton.1 hnext
    have htarget : next ≤ f.code.size - 1 := hplaced
    omega
  | jumpIfFalse target =>
    have htarget : target ≤ f.code.size - 1 := hplaced
    obtain rfl | rfl : next = pc + 1 ∨ next = target := by simpa [Op.successors] using hnext
    · exact hbehind rfl
    · omega
  | ret => exact absurd hnext List.not_mem_nil
  | const | load | store | unary | binary | call | callNative | callUnit | pop =>
    obtain rfl := List.mem_singleton.1 hnext
    exact hbehind rfl

/-- The code of a function is balanced, and there are no operands between its statements. -/
theorem balanced (h : FunctionCode p owner decl f) :
    f.Balanced decl.heightAt ∧ ∀ pc ∈ decl.boundaries, pc < f.code.size ∧ decl.heightAt pc = 0 := by
  obtain ⟨code, after, hbody, hcode, _⟩ := h.exists_body
  have hlength := hbody.length_heights
  obtain ⟨hbodyAt, hend, hret, _⟩ := heightsAt_append.1 (heightsAt decl)
  have hstart := head_bodyHeights decl.body hbodyAt hend
  have hboundary := body_height_boundary decl.body hbodyAt hend
  rw [Nat.zero_add, hlength] at hend hret
  have hkeeps : KeepHeights decl.heightAt 0 f.code.toList := by
    rw [hcode]
    refine keepHeights_append.2 ⟨hbody.keepHeights hbodyAt (by rwa [Nat.zero_add]), ?_⟩
    rw [Nat.zero_add]
    exact ⟨keepsHeights_straight rfl hend hret (Nat.zero_le _) rfl, keepsHeights_ret hret, trivial⟩
  have hsize : f.code.size = code.length + 2 := by
    rw [← Array.length_toList, hcode, List.length_append]
    rfl
  have hinside : ∀ pc, f.Reaches pc → pc < f.code.size := by
    intro pc hpc
    cases hpc with
    | start => omega
    | next _ hop hnext => exact h.successor_lt hop _ hnext
  refine ⟨⟨hstart, fun pc hpc => ?_⟩, fun pc hpc => ⟨?_, hboundary pc hpc⟩⟩
  · obtain ⟨op, hop⟩ : ∃ op, f.code[pc]? = some op := ⟨_, Array.getElem?_eq_getElem (hinside pc hpc)⟩
    rw [← Array.getElem?_toList] at hop
    have hkeep := along_keepHeights.getElem? hkeeps hop
    rw [Nat.zero_add] at hkeep
    rw [Array.getElem?_toList] at hop
    exact ⟨op, hop, hkeep⟩
  · have hle := body_boundary_le decl.body pc hpc
    omega

end FunctionCode
end PluginSandbox
