import PluginSandbox.Program.Basic
import PluginSandbox.Proofs.Language.Derived

/-!
# How deep trees are

The parser gives out nesting levels, and a level is given back when the phrase that took it has been read.  What
this bounds is not the depth of the tree: the first operand of a chain of operators is read before the operators
take their levels, so it may be as deep as if there were none, and then stands below all of them.

`Expr.height` counts the nodes of a longest path through a tree, where a step to a left operand costs some number:

* at a cost of nothing this is what the levels bound (`FunctionDecl.nesting`);
* at a cost of one it is the depth of the tree (`FunctionDecl.depth`).

`highest` is what the levels leave for each cost, and `ParsedUnit.nesting_le` draws the two conclusions for all
source texts, with errors or without.  The depth is bounded, but not by the number of levels: `deepSource` is a text
without errors that is deeper.
-/

namespace PluginSandbox

/-! ## Heights -/

mutual

/-- The number of nodes on a longest path through an expression, if a left operand counts with a cost. -/
def Expr.height (cost : Nat) : Expr → Nat
  | .int _ _ | .str _ _ | .bool _ _ | .var _ _ => 1
  | .call _ es _ | .memberCall _ _ es _ => 1 + argsHeight cost es
  | .neg operand _ | .not operand _ => 1 + operand.height cost
  | .binary _ left right _ | .and left right _ | .or left right _ =>
    max (cost + left.height cost) (1 + right.height cost)

/-- The height of the highest argument. -/
def argsHeight (cost : Nat) : List Expr → Nat
  | [] => 0
  | e :: rest => max (e.height cost) (argsHeight cost rest)

end

mutual

/-- The number of nodes on a longest path through a statement. -/
def Stmt.height (cost : Nat) : Stmt → Nat
  | .declare _ value _ | .assign _ value _ | .expr value => 1 + value.height cost
  | .branch condition thenBody elseBody =>
    1 + max (condition.height cost) (max (bodyHeight cost thenBody) (optionalHeight cost elseBody))
  | .loop condition body => 1 + max (condition.height cost) (bodyHeight cost body)
  | .ret none _ => 1
  | .ret (some value) _ => 1 + value.height cost

/-- The height of the highest statement of a block. -/
def bodyHeight (cost : Nat) : List Stmt → Nat
  | [] => 0
  | s :: rest => max (s.height cost) (bodyHeight cost rest)

/-- The height of the highest statement of a block that may be missing. -/
def optionalHeight (cost : Nat) : Option (List Stmt) → Nat
  | none => 0
  | some body => bodyHeight cost body

end

/-- The number of statements and expressions on a longest path into a function. -/
def FunctionDecl.depth (f : FunctionDecl) : Nat :=
  bodyHeight 1 f.body

/-- The same number without the operators on the path that are left for their first operand. -/
def FunctionDecl.nesting (f : FunctionDecl) : Nat :=
  bodyHeight 0 f.body

theorem argsHeight_le {cost most : Nat} {es : List Expr} :
    argsHeight cost es ≤ most ↔ ∀ e ∈ es, e.height cost ≤ most := by
  induction es with
  | nil => simp [argsHeight]
  | cons e es ih => rw [argsHeight, Nat.max_le, ih, List.forall_mem_cons]

theorem bodyHeight_le {cost most : Nat} {body : List Stmt} :
    bodyHeight cost body ≤ most ↔ ∀ s ∈ body, s.height cost ≤ most := by
  induction body with
  | nil => simp [bodyHeight]
  | cons s body ih => rw [bodyHeight, Nat.max_le, ih, List.forall_mem_cons]

theorem Grammar.BinaryOperator.height_eq {tier : Nat} {kind : TokenKind} {make : Expr → Expr → Position → Expr}
    (h : BinaryOperator tier kind make) (cost : Nat) (left right : Expr) (pos : Position) :
    (make left right pos).height cost = max (cost + left.height cost) (1 + right.height cost) := by
  cases h <;> rfl

/-- The height that expressions with some levels may have: each of the six tiers can put all of the levels that are
left above its first operand. -/
def highest (cost : Nat) : Nat → Nat
  | 0 => 0
  | levels + 1 => highest cost levels + 1 + 6 * (cost * levels)

theorem highest_lt {cost few levels : Nat} (h : few < levels) : highest cost few < highest cost levels := by
  induction h with
  | refl =>
    rw [highest]
    omega
  | step _ ih =>
    rw [highest]
    omega

namespace Parser

open Grammar

variable {α β : Type} {P : α → Prop} {Q : β → Prop}

/-! ## What parsers return -/

/-- What a parser returns, whenever it succeeds. -/
def Returns (p : Parser α) (P : α → Prop) : Prop :=
  ∀ s a, (p s).1 = some a → P a

theorem Returns.mono {P' : α → Prop} {p : Parser α} (h : Returns p P) (hP : ∀ a, P a → P' a) : Returns p P' :=
  fun s a ha => hP a (h s a ha)

theorem returns_pure {a : α} (h : P a) : Returns (pure a) P := by
  rintro s b hb
  obtain rfl := Option.some.inj hb
  exact h

/-- What was read before is returned in order. -/
theorem returns_reverse {read : List α} (hread : ∀ a ∈ read, P a) : Returns (pure read.reverse) fun l => ∀ a ∈ l, P a :=
  returns_pure fun a ha => hread a (List.mem_reverse.1 ha)

theorem Returns.bind {p : Parser α} {f : α → Parser β} (hp : Returns p P) (hf : ∀ a, P a → Returns (f a) Q) :
    Returns (p >>= f) Q := by
  intro s b hb
  rw [bind_apply] at hb
  cases hresult : (p s).1 with
  | none =>
    rw [show p s = (none, (p s).2) from Prod.ext hresult rfl] at hb
    exact absurd hb (by simp)
  | some a =>
    rw [show p s = (some a, (p s).2) from Prod.ext hresult rfl] at hb
    exact hf a (hp s a hresult) _ b hb

/-- Behind a parser that may return anything. -/
theorem returns_bind {p : Parser α} {f : α → Parser β} (hf : ∀ a, Returns (f a) Q) : Returns (p >>= f) Q :=
  Returns.bind (P := fun _ => True) (fun _ _ _ => trivial) fun a _ => hf a

/-- Behind something that may be skipped. -/
theorem returns_skip_bind {c : Bool} {p : Parser Unit} {next : Unit → Parser β} (hnext : Returns (next ()) Q) :
    Returns (if c = true then p >>= next else next ()) Q := by
  split
  · exact returns_bind fun _ => hnext
  · exact hnext

theorem returns_fail : Returns (fail : Parser α) P :=
  fun _ _ ha => absurd ha (by simp [fail])

theorem returns_failExpected (expected : String) : Returns (failExpected expected : Parser α) P :=
  returns_bind fun _ => returns_fail

theorem returns_failTooDeep : Returns (failTooDeep : Parser α) P :=
  returns_bind fun _ => returns_bind fun _ => returns_fail

/-- What is returned by a parser that may fail and be skipped. -/
theorem Returns.orRecover {p : Parser α} (h : Returns p P) :
    Returns (orRecover p) fun result => ∀ a, result = some a → P a := by
  have hattempt : Returns (attempt p) fun result => ∀ a, result = some a → P a := by
    intro s result hresult a ha
    have hsome : some (p s).1 = some result := hresult
    exact h s a ((Option.some.inj hsome).trans ha)
  refine hattempt.bind fun result hresult => ?_
  cases result with
  | some a => exact returns_pure hresult
  | none => exact returns_bind fun _ => returns_pure nofun

/-! ## Expressions -/

variable {cost : Nat}

/-- Each operator of a chain goes above all that was read before. -/
theorem returns_chainTail {tier most : Nat} {operand : Nat → Parser Expr} {levels : Nat}
    (hoperand : ∀ few < levels, Returns (operand few) fun e => 1 + e.height cost ≤ most) {left : Expr} {height : Nat}
    (hleft : left.height cost ≤ height) (hmost : most ≤ height) :
    Returns (chainTail (operatorsOf (tier + 1)) operand levels left) fun e =>
      e.height cost ≤ height + cost * levels := by
  induction levels generalizing left height with
  | zero =>
    refine returns_bind fun t => ?_
    cases operatorsOf (tier + 1) t.kind with
    | none => exact returns_pure (Nat.le_add_right_of_le hleft)
    | some make => exact returns_failTooDeep
  | succ levels ih =>
    refine returns_bind fun t => ?_
    cases hmake : operatorsOf (tier + 1) t.kind with
    | none => exact returns_pure (Nat.le_add_right_of_le hleft)
    | some make =>
      refine returns_bind fun t => (hoperand levels (Nat.lt_succ_self _)).bind fun right hright => ?_
      have hjoined : (make left right t.position).height cost ≤ height + cost := by
        rw [(operatorsOf_eq_some.1 hmake).height_eq]
        omega
      have hrest := ih (fun few hfew => hoperand few (Nat.lt_succ_of_lt hfew)) hjoined (by omega)
      refine hrest.mono fun e he => ?_
      rw [Nat.mul_succ]
      omega

theorem returns_moreArgs {arg : Parser Expr} {most : Nat} (harg : Returns arg fun e => e.height cost ≤ most)
    (bound : Nat) {read : List Expr} (hread : ∀ e ∈ read, e.height cost ≤ most) :
    Returns (moreArgs arg bound read) fun es => ∀ e ∈ es, e.height cost ≤ most := by
  induction bound generalizing read with
  | zero => exact returns_reverse hread
  | succ bound ih =>
    refine harg.bind fun e he => returns_bind fun eaten => ?_
    have hmore : ∀ e' ∈ e :: read, e'.height cost ≤ most := List.forall_mem_cons.2 ⟨he, hread⟩
    cases eaten with
    | true => exact ih hmore
    | false => exact returns_reverse hmore

theorem returns_args {arg : Parser Expr} {most : Nat} (harg : Returns arg fun e => e.height cost ≤ most) :
    Returns (args arg) fun es => argsHeight cost es ≤ most := by
  have hclose : ∀ es : List Expr, (∀ e ∈ es, e.height cost ≤ most) →
      Returns (do let _ ← expect .closeParen; return es) fun es => argsHeight cost es ≤ most :=
    fun es hes => returns_bind fun _ => returns_pure (argsHeight_le.2 hes)
  refine returns_bind fun _ => returns_bind fun empty => ?_
  split
  · exact (returns_pure (P := (· = [])) rfl).bind fun es hes => hclose es (by simp [hes])
  · exact returns_bind fun bound => (returns_moreArgs harg (bound + 1) (by simp)).bind hclose

theorem returns_primary {nested : Parser Expr} {most : Nat} (hnested : Returns nested fun e => e.height cost ≤ most) :
    Returns (primary nested) fun e => e.height cost ≤ most + 1 := by
  have hone : 1 ≤ most + 1 := Nat.le_add_left 1 most
  have hcall : ∀ {es : List Expr}, argsHeight cost es ≤ most → 1 + argsHeight cost es ≤ most + 1 := by omega
  refine returns_bind fun t => ?_
  cases t.kind with
  | integer | stringLiteral | trueWord | falseWord => exact returns_bind fun _ => returns_pure hone
  | openParen =>
    refine returns_bind fun _ => hnested.bind fun e he => returns_bind fun _ => returns_pure ?_
    exact Nat.le_succ_of_le he
  | identifier =>
    refine returns_bind fun _ => returns_bind fun called => ?_
    split
    · exact (returns_args hnested).bind fun es hes => returns_pure (hcall hes)
    · refine returns_bind fun member => ?_
      split
      · exact returns_bind fun method => (returns_args hnested).bind fun es hes => returns_pure (hcall hes)
      · exact returns_pure hone
  | _ => exact returns_failExpected _

theorem returns_unary {nested : Nat → Parser Expr}
    (hnested : ∀ levels, Returns (nested levels) fun e => e.height cost ≤ highest cost levels) (levels : Nat) :
    Returns (unary nested levels) fun e => e.height cost ≤ highest cost levels + 1 := by
  induction levels with
  | zero =>
    refine returns_bind fun t => ?_
    split
    · exact returns_primary (hnested 0)
    · exact returns_bind fun _ => returns_failTooDeep
  | succ levels ih =>
    refine returns_bind fun t => ?_
    split
    · exact returns_primary (hnested _)
    · next apply happly =>
      refine returns_bind fun t => ih.bind fun e he => returns_pure ?_
      have hlevels : highest cost levels < highest cost (levels + 1) := highest_lt (Nat.lt_succ_self levels)
      obtain ⟨_, rfl⟩ | ⟨_, rfl⟩ := unaryOperator?_cases happly <;>
        rw [Expr.height] <;> omega

theorem returns_atTier {nested : Nat → Parser Expr}
    (hnested : ∀ levels, Returns (nested levels) fun e => e.height cost ≤ highest cost levels)
    (tier levels : Nat) :
    Returns (atTier nested tier levels) fun e =>
      e.height cost ≤ highest cost levels + 1 + tier * (cost * levels) := by
  induction tier generalizing levels with
  | zero => exact (returns_unary hnested levels).mono fun e he => by omega
  | succ tier ih =>
    -- the right operands have fewer levels than the first one, which has all of them
    have hright : ∀ few < levels, Returns (atTier nested tier few) fun e =>
        1 + e.height cost ≤ highest cost levels + 1 + tier * (cost * levels) := by
      refine fun few hfew => (ih few).mono fun e he => ?_
      have hless : highest cost few < highest cost levels := highest_lt hfew
      have hmul : tier * (cost * few) ≤ tier * (cost * levels) :=
        Nat.mul_le_mul_left _ (Nat.mul_le_mul_left _ (Nat.le_of_lt hfew))
      omega
    refine (ih levels).bind fun first hfirst => ?_
    refine (returns_chainTail hright hfirst (Nat.le_refl _)).mono fun e he => ?_
    rw [Nat.succ_mul]
    omega

theorem returns_exprAt (depth levels : Nat) :
    Returns (exprAt depth levels) fun e => e.height cost ≤ highest cost levels :=
  exprAt_induction (P := fun levels p => Returns p fun e => e.height cost ≤ highest cost levels)
    (fun _ => returns_failTooDeep) (fun _ hnested => returns_atTier hnested loosest) depth levels

theorem returns_expr (cost levels : Nat) : Returns (expr levels) fun e => e.height cost ≤ highest cost levels :=
  returns_exprAt levels levels

/-! ## Statements -/

theorem returns_statements {statement : Parser Stmt} {most : Nat}
    (hstatement : Returns statement fun s => s.height cost ≤ most) (bound : Nat) {read : List Stmt}
    (hread : ∀ s ∈ read, s.height cost ≤ most) :
    Returns (statements statement bound read) fun body => ∀ s ∈ body, s.height cost ≤ most := by
  induction bound generalizing read with
  | zero => exact returns_reverse hread
  | succ bound ih =>
    refine returns_bind fun t => ?_
    split
    · exact returns_reverse hread
    · exact returns_reverse hread
    · refine hstatement.orRecover.bind fun result hresult => ?_
      cases result with
      | none => exact ih hread
      | some s => exact ih (List.forall_mem_cons.2 ⟨hresult s rfl, hread⟩)

theorem returns_block {statement : Parser Stmt} {most : Nat}
    (hstatement : Returns statement fun s => s.height cost ≤ most) :
    Returns (block statement) fun body => bodyHeight cost body ≤ most := by
  refine returns_bind fun opened => ?_
  split
  · exact returns_pure (Nat.zero_le _)
  · refine returns_bind fun bound => ?_
    exact (returns_statements hstatement (bound + 1) (by simp)).bind fun body hbody =>
      returns_bind fun _ => returns_pure (bodyHeight_le.2 hbody)

theorem returns_requiredBlock {body : Parser (List Stmt)} {Q : List Stmt → Prop} (hbody : Returns body Q) :
    Returns (requiredBlock body) Q := by
  refine returns_bind fun opened => ?_
  split
  · exact hbody
  · exact returns_failExpected _

theorem returns_branchOf {condition : Parser Expr} {body : Parser (List Stmt)} {elseIf : Parser Stmt} {most : Nat}
    (hcondition : Returns condition fun e => e.height cost ≤ most)
    (hbody : Returns body fun body => bodyHeight cost body ≤ most)
    (helseIf : Returns elseIf fun s => s.height cost ≤ most) :
    Returns (branchOf condition body elseIf) fun s => s.height cost ≤ most + 1 := by
  have hbranch : ∀ (c : Expr) (thenBody : List Stmt) (elseBody : Option (List Stmt)),
      c.height cost ≤ most → bodyHeight cost thenBody ≤ most → optionalHeight cost elseBody ≤ most →
      (Stmt.branch c thenBody elseBody).height cost ≤ most + 1 := by
    intro c thenBody elseBody hc hthen helse
    rw [Stmt.height]
    omega
  refine returns_bind fun _ => hcondition.bind fun c hc => ?_
  refine (returns_requiredBlock hbody).bind fun thenBody hthen => returns_bind fun elsewhere => ?_
  split
  · refine returns_bind fun again => ?_
    split
    · refine helseIf.bind fun s hs => returns_pure (hbranch c thenBody (some [s]) hc hthen ?_)
      exact bodyHeight_le.2 (by simpa using hs)
    · refine returns_bind fun opened => ?_
      split
      · exact hbody.bind fun elseBody helse => returns_pure (hbranch c thenBody (some elseBody) hc hthen helse)
      · exact returns_failExpected _
  · exact returns_pure (hbranch c thenBody none hc hthen (Nat.zero_le _))

theorem returns_branch {body : Nat → Parser (List Stmt)}
    (hbody : ∀ levels, Returns (body levels) fun body => bodyHeight cost body ≤ highest cost levels)
    (levels : Nat) : Returns (branch body levels) fun s => s.height cost ≤ highest cost levels + 1 := by
  induction levels with
  | zero => exact returns_branchOf (returns_expr cost 0) (hbody 0) returns_failTooDeep
  | succ levels ih =>
    refine returns_branchOf (returns_expr cost _) (hbody _) (ih.mono fun s hs => ?_)
    exact Nat.le_trans hs (highest_lt (Nat.lt_succ_self levels))

/-- A statement that goes above one expression. -/
theorem returns_ended {levels : Nat} {make : Expr → Stmt}
    (hmake : ∀ e, (make e).height cost = 1 + e.height cost) :
    Returns (do
      let value ← expr levels
      let _ ← expect .semicolon
      return make value) fun s => s.height cost ≤ highest cost levels + 1 := by
  refine (returns_expr cost levels).bind fun e he => returns_bind fun _ => returns_pure ?_
  rw [hmake]
  omega

theorem returns_ret (levels : Nat) (pos : Position) :
    Returns (do
      let _ ← advance
      let value ← if ← check .semicolon then pure none else some <$> expr levels
      let _ ← expect .semicolon
      return Stmt.ret value pos) fun s => s.height cost ≤ highest cost levels + 1 := by
  refine returns_bind fun _ => returns_bind fun empty => ?_
  have hclose : ∀ value : Option Expr, (∀ e, value = some e → e.height cost ≤ highest cost levels) →
      Returns (do let _ ← expect .semicolon; return Stmt.ret value pos) fun s =>
        s.height cost ≤ highest cost levels + 1 := by
    refine fun value hvalue => returns_bind fun _ => returns_pure ?_
    cases value with
    | none => exact Nat.le_add_left 1 _
    | some e =>
      have he := hvalue e rfl
      rw [Stmt.height]
      omega
  split
  · exact (returns_pure (P := (· = none)) rfl).bind fun value hvalue => hclose value (by simp [hvalue])
  · have hvalue : Returns (some <$> expr levels) fun value =>
        ∀ e, value = some e → e.height cost ≤ highest cost levels := by
      refine (returns_expr cost levels).bind fun e he => returns_pure fun e' he' => ?_
      obtain rfl := Option.some.inj he'
      exact he
    exact hvalue.bind hclose

theorem returns_statement {nested : Nat → Parser Stmt}
    (hnested : ∀ levels, Returns (nested levels) fun s => s.height cost ≤ highest cost levels) (levels : Nat) :
    Returns (statement nested levels) fun s => s.height cost ≤ highest cost levels + 1 := by
  refine returns_bind fun t => ?_
  split
  · exact returns_bind fun _ => returns_bind fun _ => returns_bind fun _ => returns_ended fun _ => rfl
  · exact returns_branch (fun levels => returns_block (hnested levels)) levels
  · refine returns_bind fun _ => (returns_expr cost levels).bind fun c hc => ?_
    refine (returns_requiredBlock (returns_block (hnested levels))).bind fun body hbody => returns_pure ?_
    rw [Stmt.height]
    omega
  · exact returns_ret levels _
  · refine returns_bind fun second => ?_
    split
    · exact returns_bind fun _ => returns_bind fun _ => returns_ended fun _ => rfl
    · exact returns_ended fun _ => rfl

/-- A statement takes one of the levels that are left. -/
theorem returns_stmtAt_succ (depth levels : Nat) :
    Returns (stmtAt depth (levels + 1)) fun s => s.height cost ≤ highest cost levels + 1 := by
  induction depth generalizing levels with
  | zero => exact returns_failTooDeep
  | succ depth ih =>
    refine returns_statement (fun levels => ?_) levels
    cases levels with
    | zero => cases depth <;> exact returns_failTooDeep
    | succ levels =>
      exact (ih levels).mono fun s hs => Nat.le_trans hs (highest_lt (Nat.lt_succ_self levels))

/-! ## Units -/

/-- The body of a function is no higher than statements with all levels can be. -/
def Low (cost : Nat) (f : FunctionDecl) : Prop :=
  bodyHeight cost f.body ≤ highest cost (maxNesting - 1) + 1

theorem returns_function (cost : Nat) : Returns function fun result => ∀ f, result = some f → Low cost f := by
  have hbody : Returns (block (stmt maxNesting)) fun body =>
      bodyHeight cost body ≤ highest cost (maxNesting - 1) + 1 :=
    returns_block (returns_stmtAt_succ maxNesting (maxNesting - 1))
  refine returns_bind fun _ => returns_bind fun header => ?_
  have hend : ∀ body : List Stmt, bodyHeight cost body ≤ highest cost (maxNesting - 1) + 1 →
      Returns (return header.map fun h =>
        ({ name := h.1.text, position := h.1.position, params := h.2, body } : FunctionDecl)) fun result =>
          ∀ f, result = some f → Low cost f := by
    refine fun body hbody => returns_pure fun f hf => ?_
    obtain ⟨_, _, rfl⟩ := Option.map_eq_some_iff.1 hf
    exact hbody
  refine returns_skip_bind (returns_bind fun opened => ?_)
  split
  · exact hbody.bind hend
  · refine returns_skip_bind ((returns_pure (P := (· = [])) rfl).bind fun body hbody => hend body ?_)
    rw [hbody]
    exact Nat.zero_le _

theorem returns_functions (cost bound : Nat) {read : List FunctionDecl} (hread : ∀ f ∈ read, Low cost f) :
    Returns (functions bound read) fun fs => ∀ f ∈ fs, Low cost f := by
  induction bound generalizing read with
  | zero => exact returns_reverse hread
  | succ bound ih =>
    refine returns_bind fun t => ?_
    split
    · exact returns_reverse hread
    · exact returns_reverse hread
    · refine (returns_function cost).bind fun result hresult => ?_
      cases result with
      | none => exact ih hread
      | some f => exact ih (List.forall_mem_cons.2 ⟨hresult f rfl, hread⟩)
    · exact returns_bind fun _ => returns_bind fun _ => returns_bind fun _ => ih hread

theorem returns_plugin (cost : Nat) :
    Returns plugin fun result => ∀ p, result = some p → ∀ f ∈ p.functions, Low cost f := by
  refine returns_bind fun _ => returns_bind fun header => returns_skip_bind (returns_bind fun opened => ?_)
  split
  · exact returns_pure nofun
  · refine returns_bind fun bound => (returns_functions cost (bound + 1) (by simp)).bind fun fs hfs => ?_
    refine returns_bind fun _ => returns_pure fun p hp => ?_
    obtain ⟨_, _, rfl⟩ := Option.map_eq_some_iff.1 hp
    exact hfs

theorem returns_unit (bound : Nat) {read : ParsedUnit} (hread : ∀ f ∈ read.functions, Low cost f) :
    Returns (unit bound read) fun u => ∀ f ∈ u.functions, Low cost f := by
  induction bound generalizing read with
  | zero => exact returns_pure hread
  | succ bound ih =>
    refine returns_bind fun t => ?_
    split
    · exact returns_pure hread
    · refine returns_bind fun result => ?_
      split
      · exact ih hread
      · exact ih hread
    · refine (returns_plugin cost).bind fun result hresult => ?_
      split
      · exact returns_bind fun _ => ih hread
      · refine ih ?_
        cases result with
        | none => simp [ParsedUnit.functions]
        | some p => exact hresult p rfl
    · exact returns_bind fun _ => returns_bind fun _ => returns_bind fun _ => ih hread

end Parser

/-! ## Source texts -/

/-- Whatever a source text is, and whatever is wrong with it, the bodies of its functions are no higher than
statements with all levels can be. -/
theorem ParsedUnit.low_of_mem_functions {source : String} {f : FunctionDecl}
    (h : f ∈ (ofSource source).1.functions) (cost : Nat) : Parser.Low cost f := by
  rw [ofSource] at h
  dsimp only at h
  generalize hresult : Parser.unit _ _ _ = outcome at h
  obtain ⟨result, state⟩ := outcome
  cases result with
  | none => exact absurd h (by simp [functions])
  | some u =>
    refine Parser.returns_unit _ ?_ _ u (congrArg Prod.fst hresult) f h
    simp [functions]

/-- **What the nesting limit bounds.** In the tree of every source text, with errors or without, no path into a
function has more than `maxNesting` statements and expressions, if operators are not counted on the way to their
first operand.  With these operators it has no more than 11782. -/
theorem ParsedUnit.nesting_le (source : String) :
    ∀ f ∈ (ofSource source).1.functions, f.nesting ≤ maxNesting ∧ f.depth ≤ 11782 := by
  intro f hf
  have hnesting : highest 0 (maxNesting - 1) + 1 = maxNesting := by decide
  have hdepth : highest 1 (maxNesting - 1) + 1 = 11782 := by decide
  exact ⟨hnesting ▸ low_of_mem_functions hf 0, hdepth ▸ low_of_mem_functions hf 1⟩

/-- A function that returns a sum with a product in it. -/
theorem ParsedUnit.nesting_le_sum :
    ∃ f ∈ (ofSource "plugin A : P \x7b fn f() \x7b return 2 * 3 + 1; \x7d \x7d").1.functions,
      f.depth = 4 ∧ f.nesting ≤ maxNesting ∧ f.depth ≤ 11782 := by
  have hf : ∃ f ∈ (ofSource "plugin A : P \x7b fn f() \x7b return 2 * 3 + 1; \x7d \x7d").1.functions,
      f.depth = 4 := by decide +kernel
  obtain ⟨f, hf, hdepth⟩ := hf
  exact ⟨f, hf, hdepth, nesting_le _ f hf⟩

/-- A function that returns a sum, whose first operand has as many unary operators as the limit allows. -/
def deepSource : String :=
  "plugin A : P \x7b fn f() \x7b return --------------------------------------------------------------1 + 1; \x7d \x7d"

/-- **The limit does not bound the depth.** This text is read without errors, and its tree is deeper than the
limit. -/
theorem ParsedUnit.maxNesting_lt_depth :
    (ofSource deepSource).2 = [] ∧ ∃ f ∈ (ofSource deepSource).1.functions, maxNesting < f.depth :=
  ⟨by decide +kernel, by decide +kernel⟩

end PluginSandbox
