import PluginSandbox.Language.Parser.Unit
import PluginSandbox.Proofs.Language.Reading
import PluginSandbox.Proofs.Language.Tree

/-!
# The trees of source texts

A tree has at most as many nodes as the tokens that it was read from, and it is plain: the names in it are
identifiers.  A text has at most as many tokens as bytes, so the trees of a unit are small
(`ParsedUnit.size_function_le`), and everything that is counted in compiled code fits in a word.
-/

namespace PluginSandbox
/-- An expression is plain and has at most some number of nodes. -/
def Expr.Within (e : Expr) (n : Nat) : Prop :=
  e.size ≤ n ∧ e.Plain

/-- Arguments are plain and have at most some number of nodes. -/
def ArgsWithin (es : List Expr) (n : Nat) : Prop :=
  argsSize es ≤ n ∧ ArgsPlain es

/-- A statement is plain and has at most some number of nodes. -/
def Stmt.Within (s : Stmt) (n : Nat) : Prop :=
  s.size ≤ n ∧ s.Plain

/-- The statements of a block are plain and have at most some number of nodes. -/
def BodyWithin (stmts : List Stmt) (n : Nat) : Prop :=
  bodySize stmts ≤ n ∧ BodyPlain stmts

/-- A function is plain and has at most some number of nodes. -/
def FunctionDecl.Within (f : FunctionDecl) (n : Nat) : Prop :=
  f.size ≤ n ∧ BodyPlain f.body

/-- Some functions are plain and have at most some number of nodes together. -/
def FunctionsWithin (fs : List FunctionDecl) (n : Nat) : Prop :=
  totalSize FunctionDecl.size fs ≤ n ∧ ∀ f ∈ fs, BodyPlain f.body

/-- The functions of a plugin, if there is one, are plain and have at most some number of nodes together. -/
def PluginWithin (plugin : Option PluginDecl) (n : Nat) : Prop :=
  ∀ decl, plugin = some decl → FunctionsWithin decl.functions n

theorem PluginWithin.mono {plugin : Option PluginDecl} {n m : Nat} (h : PluginWithin plugin n)
    (hnm : n ≤ m) : PluginWithin plugin m :=
  fun decl hdecl => ⟨Nat.le_trans (h decl hdecl).1 hnm, (h decl hdecl).2⟩

namespace Parser

variable {s : ParserState}

/-! ## Expressions -/

/-- Each operator of a chain is a token, and joins two operands to a node above them. -/
def Joins (ops : Operators) : Prop :=
  ∀ kind join, ops kind = some join → kind ≠ .endOfInput ∧
    ∀ left right pos, (join left right pos).size = 1 + left.size + right.size ∧
      ((join left right pos).Plain ↔ left.Plain ∧ right.Plain)

theorem joins_or : Joins orOperators := by
  intro kind join h
  cases kind <;> simp [orOperators] at h
  subst h
  exact ⟨by simp, fun _ _ _ => ⟨rfl, Iff.rfl⟩⟩

theorem joins_and : Joins andOperators := by
  intro kind join h
  cases kind <;> simp [andOperators] at h
  subst h
  exact ⟨by simp, fun _ _ _ => ⟨rfl, Iff.rfl⟩⟩

theorem joins_equality : Joins equalityOperators := by
  intro kind join h
  cases kind <;> simp [equalityOperators] at h <;> subst h <;>
    exact ⟨by simp, fun _ _ _ => ⟨rfl, Iff.rfl⟩⟩

theorem joins_order : Joins orderOperators := by
  intro kind join h
  cases kind <;> simp [orderOperators] at h <;> subst h <;>
    exact ⟨by simp, fun _ _ _ => ⟨rfl, Iff.rfl⟩⟩

theorem joins_sum : Joins sumOperators := by
  intro kind join h
  cases kind <;> simp [sumOperators] at h <;> subst h <;>
    exact ⟨by simp, fun _ _ _ => ⟨rfl, Iff.rfl⟩⟩

theorem joins_product : Joins productOperators := by
  intro kind join h
  cases kind <;> simp [productOperators] at h <;> subst h <;>
    exact ⟨by simp, fun _ _ _ => ⟨rfl, Iff.rfl⟩⟩

theorem reads_chainTail {ops : Operators} (hops : Joins ops) {operand : Nat → Parser Expr}
    (hoperand : ∀ levels, Reads (operand levels) Expr.Within) (levels : Nat) {left : Expr}
    (hleft : left.Plain) :
    Reads (chainTail ops operand levels left) fun e n => e.Within (left.size + n) := by
  induction levels generalizing left with
  | zero =>
    intro s
    rw [chainTail]
    refine readsAt_peek_bind ?_
    cases ops s.next.kind with
    | none => exact readsAt_pure ⟨Nat.le_refl _, hleft⟩
    | some join => exact reads_failTooDeep s
  | succ levels ih =>
    intro s
    rw [chainTail]
    refine readsAt_peek_bind ?_
    cases hjoin : ops s.next.kind with
    | none => exact readsAt_pure ⟨Nat.le_refl _, hleft⟩
    | some join =>
      obtain ⟨hkind, hnode⟩ := hops _ _ hjoin
      refine (readsAt_advance hkind).bind ?_
      rintro t _ s₁ ⟨_, rfl⟩
      refine (hoperand levels s₁).bind ?_
      rintro right n s₂ ⟨hsize, hright⟩
      obtain ⟨hjoined, hplain⟩ := hnode left right t.position
      refine (ih (hplain.2 ⟨hleft, hright⟩) s₂).mono ?_
      rintro e m ⟨hsize', he⟩
      exact ⟨by omega, he⟩

theorem reads_chain {ops : Operators} (hops : Joins ops) {operand : Nat → Parser Expr}
    (hoperand : ∀ levels, Reads (operand levels) Expr.Within) (levels : Nat) :
    Reads (chain ops operand levels) Expr.Within := by
  intro s
  refine (hoperand levels s).bind ?_
  rintro first n s₁ ⟨hsize, hplain⟩
  refine (reads_chainTail hops hoperand levels hplain s₁).mono ?_
  rintro e m ⟨hsize', he⟩
  exact ⟨by omega, he⟩

theorem reads_moreArgs {arg : Parser Expr} (harg : Reads arg Expr.Within) (bound : Nat)
    {read : List Expr} (hread : ArgsPlain read) :
    Reads (moreArgs arg bound read) fun es n => ArgsWithin es (argsSize read + n) := by
  induction bound generalizing read with
  | zero =>
    intro s
    refine readsAt_pure ⟨?_, argsPlain_reverse.2 hread⟩
    rw [argsSize_reverse]
    exact Nat.le_refl _
  | succ bound ih =>
    intro s
    rw [moreArgs]
    refine (harg s).bind ?_
    rintro e n s₁ ⟨hsize, he⟩
    refine (reads_eat (by simp) s₁).bind ?_
    rintro eaten k s₂ hk
    cases eaten with
    | true =>
      refine (ih (show ArgsPlain (e :: read) from ⟨he, hread⟩) s₂).mono ?_
      rintro es m ⟨hsize', hes⟩
      rw [argsSize] at hsize'
      exact ⟨by omega, hes⟩
    | false =>
      refine readsAt_pure ⟨?_, argsPlain_reverse.2 ⟨he, hread⟩⟩
      rw [argsSize_reverse, argsSize]
      omega

theorem reads_args {arg : Parser Expr} (harg : Reads arg Expr.Within) :
    Reads (args arg) ArgsWithin := by
  intro s
  refine (reads_expect (by simp) s).bind ?_
  rintro _ k s₁ ⟨hk, _⟩
  refine readsAt_check_bind ?_
  have hclose : ∀ (es : List Expr) (n : Nat) (s : ParserState), ArgsWithin es n →
      ReadsAt s (do let _ ← expect .closeParen; return es) fun es m => ArgsWithin es (n + m) := by
    rintro es n s ⟨hsize, hes⟩
    refine (reads_expect (by simp) s).bind ?_
    intro _ m s' _
    exact readsAt_pure ⟨by omega, hes⟩
  split
  · refine readsAt_look_bind (a := []) rfl ?_
    refine (hclose [] 0 s₁ ⟨Nat.le_refl 0, trivial⟩).mono ?_
    rintro es m ⟨hsize, hes⟩
    exact ⟨by omega, hes⟩
  · refine readsAt_remaining_bind fun bound => ?_
    refine (reads_moreArgs harg (bound + 1) (show ArgsPlain [] from trivial) s₁).bind ?_
    rintro es n s₂ ⟨hsize, hes⟩
    rw [argsSize, Nat.zero_add] at hsize
    refine (hclose es n s₂ ⟨hsize, hes⟩).mono ?_
    rintro es m ⟨hsize', hes'⟩
    exact ⟨by omega, hes'⟩

/-- A literal is one token and one node. -/
theorem readsAt_literal (h : s.next.kind ≠ .endOfInput) {e : Expr} (hsize : e.size = 1) (he : e.Plain) :
    ReadsAt s (do let _ ← advance; return e) Expr.Within := by
  refine (readsAt_advance h).bind ?_
  rintro _ _ s₁ ⟨_, rfl⟩
  exact readsAt_pure ⟨Nat.le_of_eq hsize, he⟩

theorem readsAt_named {nested : Parser Expr} (hnested : Reads nested Expr.Within)
    (hkind : s.next.kind = .identifier) (hs : s.Sound) {t : Token} (ht : t = s.next) :
    ReadsAt s (do
      let _ ← advance
      if ← check .openParen then
        return .call t.text (← args nested) t.position
      else if ← eat .dot then
        let method ← expect .identifier
        return .memberCall t.text method.text (← args nested) t.position
      else return .var t.text t.position) Expr.Within := by
  subst ht
  have hname := hs.isIdentifier_next hkind
  refine (readsAt_advance (by simp [hkind])).bind ?_
  rintro _ _ s₁ ⟨_, rfl⟩
  refine readsAt_check_bind ?_
  split
  · refine (reads_args hnested s₁).bind ?_
    rintro es n s₂ ⟨hsize, hes⟩
    exact readsAt_pure ⟨by rw [Expr.size]; omega, hname, hes⟩
  · refine (reads_eat (by simp) s₁).bind ?_
    intro eaten k s₂ hk
    split
    · refine (reads_expect (by simp) s₂).bind ?_
      rintro method n s₃ ⟨hn, _⟩
      refine (reads_args hnested s₃).bind ?_
      rintro es m s₄ ⟨hsize, hes⟩
      exact readsAt_pure ⟨by rw [Expr.size]; omega, hes⟩
    · exact readsAt_pure ⟨by rw [Expr.size]; omega, trivial⟩

theorem reads_primary {nested : Parser Expr} (hnested : Reads nested Expr.Within) :
    Reads (primary nested) Expr.Within := by
  intro s
  refine readsAt_peek_bind ?_
  cases hkind : s.next.kind with
  | integer value | stringLiteral | trueWord | falseWord =>
    exact readsAt_literal (by simp [hkind]) rfl trivial
  | openParen =>
    refine (readsAt_advance (by simp [hkind])).bind ?_
    rintro _ _ s₁ ⟨_, rfl⟩
    refine (hnested s₁).bind ?_
    rintro inner n s₂ ⟨hsize, hinner⟩
    refine (reads_expect (by simp) s₂).bind ?_
    intro _ m s₃ _
    exact readsAt_pure ⟨by omega, hinner⟩
  | identifier => exact fun hs => readsAt_named hnested hkind hs rfl hs
  | _ => exact reads_failExpected _ s

/-- A unary operator is a token, and a node above its operand. -/
theorem unaryOperator?_eq_some {kind : TokenKind} {apply : Expr → Position → Expr}
    (h : unaryOperator? kind = some apply) :
    kind ≠ .endOfInput ∧ ∀ operand pos, (apply operand pos).size = 1 + operand.size ∧
      ((apply operand pos).Plain ↔ operand.Plain) := by
  cases kind <;> simp [unaryOperator?] at h <;> subst h <;>
    exact ⟨by simp, fun _ _ => ⟨rfl, Iff.rfl⟩⟩

theorem reads_unary {nested : Nat → Parser Expr} (hnested : ∀ levels, Reads (nested levels) Expr.Within)
    (levels : Nat) : Reads (unary nested levels) Expr.Within := by
  induction levels with
  | zero =>
    intro s
    rw [unary]
    refine readsAt_peek_bind ?_
    cases unaryOperator? s.next.kind with
    | none => exact reads_primary (hnested 0) s
    | some apply => exact (reads_advance s).bind fun _ _ s₁ _ => reads_failTooDeep s₁
  | succ levels ih =>
    intro s
    rw [unary]
    refine readsAt_peek_bind ?_
    cases happly : unaryOperator? s.next.kind with
    | none => exact reads_primary (hnested (levels + 1)) s
    | some apply =>
      obtain ⟨hkind, hnode⟩ := unaryOperator?_eq_some happly
      refine (readsAt_advance hkind).bind ?_
      rintro t _ s₁ ⟨_, rfl⟩
      refine (ih s₁).bind ?_
      rintro operand n s₂ ⟨hsize, hplain⟩
      obtain ⟨happlied, happliedPlain⟩ := hnode operand t.position
      exact readsAt_pure ⟨by omega, happliedPlain.2 hplain⟩

theorem reads_operators {nested : Nat → Parser Expr}
    (hnested : ∀ levels, Reads (nested levels) Expr.Within) (levels : Nat) :
    Reads (operators nested levels) Expr.Within :=
  reads_chain joins_or (reads_chain joins_and (reads_chain joins_equality (reads_chain joins_order
    (reads_chain joins_sum (reads_chain joins_product (reads_unary hnested)))))) levels

theorem reads_exprAt (depth levels : Nat) : Reads (exprAt depth levels) Expr.Within :=
  exprAt_induction (P := fun _ p => Reads p Expr.Within) (fun _ => reads_failTooDeep)
    (fun _ hnested => reads_operators hnested) depth levels

theorem reads_expr (levels : Nat) : Reads (expr levels) Expr.Within :=
  reads_exprAt levels levels

/-! ## Statements -/

theorem reads_statements {statement : Parser Stmt} (hstatement : Reads statement Stmt.Within)
    (bound : Nat) {read : List Stmt} (hread : BodyPlain read) :
    Reads (statements statement bound read) fun stmts n => BodyWithin stmts (bodySize read + n) := by
  have hstop : ∀ (read : List Stmt) (s : ParserState), BodyPlain read →
      ReadsAt s (pure read.reverse) fun stmts n => BodyWithin stmts (bodySize read + n) := by
    intro read s hread
    refine readsAt_pure ⟨?_, bodyPlain_reverse.2 hread⟩
    rw [bodySize_reverse]
    exact Nat.le_refl _
  induction bound generalizing read with
  | zero => exact fun s => hstop read s hread
  | succ bound ih =>
    intro s
    rw [statements]
    refine readsAt_peek_bind ?_
    split
    · exact hstop read s hread
    · exact hstop read s hread
    · refine (hstatement s).orRecover.bind ?_
      intro result n s₁ hresult
      cases result with
      | none =>
        refine (ih hread s₁).mono ?_
        rintro stmts m ⟨hsize, hstmts⟩
        exact ⟨by omega, hstmts⟩
      | some first =>
        obtain ⟨hfirstSize, hfirst⟩ := hresult first rfl
        refine (ih (show BodyPlain (first :: read) from ⟨hfirst, hread⟩) s₁).mono ?_
        rintro stmts m ⟨hsize, hstmts⟩
        rw [bodySize] at hsize
        exact ⟨by omega, hstmts⟩

theorem reads_block {statement : Parser Stmt} (hstatement : Reads statement Stmt.Within) :
    Reads (block statement) BodyWithin := by
  intro s
  refine (reads_expect (by simp) s).attempt.bind ?_
  intro opened k s₁ _
  cases opened with
  | none => exact readsAt_pure ⟨Nat.zero_le _, trivial⟩
  | some _ =>
    refine readsAt_remaining_bind fun bound => ?_
    refine (reads_statements hstatement (bound + 1) (show BodyPlain [] from trivial) s₁).bind ?_
    rintro stmts n s₂ ⟨hsize, hstmts⟩
    rw [bodySize, Nat.zero_add] at hsize
    refine (reads_expect (by simp) s₂).attempt.bind ?_
    intro _ m s₃ _
    exact readsAt_pure ⟨by omega, hstmts⟩

theorem reads_requiredBlock {body : Parser (List Stmt)} (hbody : Reads body BodyWithin) :
    Reads (requiredBlock body) BodyWithin := by
  intro s
  refine readsAt_check_bind ?_
  split
  · exact hbody s
  · exact reads_failExpected _ s

/-- A branch, whose first word is next. -/
theorem readsAt_branchOf {condition : Parser Expr} {body : Parser (List Stmt)} {elseIf : Parser Stmt}
    (hcondition : Reads condition Expr.Within) (hbody : Reads body BodyWithin)
    (helseIf : ∀ s : ParserState, s.next.kind = .ifWord → ReadsAt s elseIf Stmt.Within)
    (hnext : s.next.kind = .ifWord) :
    ReadsAt s (branchOf condition body elseIf) Stmt.Within := by
  refine (readsAt_advance (by simp [hnext])).bind ?_
  rintro _ _ s₁ ⟨_, rfl⟩
  refine (hcondition s₁).bind ?_
  rintro c n₁ s₂ ⟨hcSize, hc⟩
  refine (reads_requiredBlock hbody s₂).bind ?_
  rintro t n₂ s₃ ⟨htSize, ht⟩
  refine (reads_eat (by simp) s₃).bind ?_
  intro eaten k s₄ _
  split
  · refine readsAt_check_bind ?_
    split
    · next hif =>
      refine (helseIf s₄ (beq_iff_eq.1 hif)).bind ?_
      rintro e n₃ s₅ ⟨heSize, he⟩
      refine readsAt_pure ⟨?_, hc, ht, he, trivial⟩
      rw [Stmt.size, optionalSize, bodySize, bodySize]
      omega
    · refine readsAt_check_bind ?_
      split
      · refine (hbody s₄).bind ?_
        rintro e n₃ s₅ ⟨heSize, he⟩
        refine readsAt_pure ⟨?_, hc, ht, he⟩
        rw [Stmt.size, optionalSize]
        omega
      · exact reads_failExpected _ s₄
  · refine readsAt_pure ⟨?_, hc, ht, trivial⟩
    rw [Stmt.size, optionalSize]
    omega

theorem readsAt_branch {body : Nat → Parser (List Stmt)} (hbody : ∀ levels, Reads (body levels) BodyWithin)
    (levels : Nat) (s : ParserState) (hnext : s.next.kind = .ifWord) :
    ReadsAt s (branch body levels) Stmt.Within := by
  induction levels generalizing s with
  | zero => exact readsAt_branchOf (reads_expr 0) (hbody 0) (fun s _ => reads_failTooDeep s) hnext
  | succ levels ih => exact readsAt_branchOf (reads_expr _) (hbody _) ih hnext

/-- A statement that ends in a semicolon behind an expression. -/
theorem readsAt_ended {levels : Nat} {make : Expr → Stmt}
    (hmake : ∀ e, (make e).size = 1 + e.size ∧ ((make e).Plain ↔ e.Plain)) :
    ReadsAt s (do
      let value ← expr levels
      let _ ← expect .semicolon
      return make value) Stmt.Within := by
  refine (reads_expr levels s).bind ?_
  rintro value n s₁ ⟨hsize, hvalue⟩
  refine (reads_expect (by simp) s₁).bind ?_
  rintro _ m s₂ ⟨rfl, _⟩
  obtain ⟨hmade, hplain⟩ := hmake value
  exact readsAt_pure ⟨by omega, hplain.2 hvalue⟩

theorem reads_statement {nested : Nat → Parser Stmt} (hnested : ∀ levels, Reads (nested levels) Stmt.Within)
    (levels : Nat) : Reads (statement nested levels) Stmt.Within := by
  intro s
  refine readsAt_peek_bind ?_
  split
  · next hkind =>
    refine (readsAt_advance (by simp [hkind])).bind ?_
    rintro _ _ s₁ ⟨_, rfl⟩
    refine (reads_expect (by simp) s₁).bind ?_
    rintro name n s₂ ⟨rfl, _⟩
    refine (reads_expect (by simp) s₂).bind ?_
    rintro _ n s₃ ⟨rfl, _⟩
    refine (readsAt_ended fun e => ⟨rfl, Iff.rfl⟩).mono ?_
    rintro stmt n ⟨hsize, hstmt⟩
    exact ⟨by omega, hstmt⟩
  · next hkind => exact readsAt_branch (fun levels => reads_block (hnested levels)) levels s hkind
  · next hkind =>
    refine (readsAt_advance (by simp [hkind])).bind ?_
    rintro _ _ s₁ ⟨_, rfl⟩
    refine (reads_expr levels s₁).bind ?_
    rintro condition n s₂ ⟨hsize, hcondition⟩
    refine (reads_requiredBlock (reads_block (hnested levels)) s₂).bind ?_
    rintro body m s₃ ⟨hsize', hbody⟩
    exact readsAt_pure ⟨by rw [Stmt.size]; omega, hcondition, hbody⟩
  · next hkind =>
    refine (readsAt_advance (by simp [hkind])).bind ?_
    rintro _ _ s₁ ⟨_, rfl⟩
    refine readsAt_check_bind ?_
    have hclose : ∀ (value : Option Expr) (n : Nat) (s₂ : ParserState),
        (∀ e, value = some e → e.Within n) →
        ReadsAt s₂ (do let _ ← expect .semicolon; return Stmt.ret value s.next.position)
          fun stmt m => stmt.Within (1 + n + m) := by
      intro value n s₂ hvalue
      refine (reads_expect (by simp) s₂).bind ?_
      rintro _ m s₃ ⟨rfl, _⟩
      cases value with
      | none => exact readsAt_pure ⟨by rw [Stmt.size]; omega, trivial⟩
      | some e =>
        obtain ⟨hsize, he⟩ := hvalue e rfl
        exact readsAt_pure ⟨by rw [Stmt.size]; omega, he⟩
    split
    · refine readsAt_look_bind (a := none) rfl ?_
      exact hclose none 0 s₁ fun e he => absurd he (by simp)
    · refine ReadsAt.bind (P := fun value n => ∀ e, value = some e → e.Within n) ?_ ?_
      · refine (reads_expr levels s₁).bind ?_
        intro e n s₂ he
        refine readsAt_pure fun e' he' => ?_
        obtain rfl := Option.some.inj he'
        exact he
      · intro value n s₂ hvalue
        refine (hclose value n s₂ hvalue).mono ?_
        rintro stmt m ⟨hsize, hstmt⟩
        exact ⟨by omega, hstmt⟩
  · refine readsAt_peekSecond_bind fun second => ?_
    split
    · refine (reads_advance s).bind ?_
      intro _ n s₁ _
      refine (reads_advance s₁).bind ?_
      intro _ m s₂ _
      refine (readsAt_ended fun e => ⟨rfl, Iff.rfl⟩).mono ?_
      rintro stmt n ⟨hsize, hstmt⟩
      exact ⟨by omega, hstmt⟩
    · refine (readsAt_ended fun e => ⟨rfl, Iff.rfl⟩).mono ?_
      rintro stmt n ⟨hsize, hstmt⟩
      exact ⟨by omega, hstmt⟩

theorem reads_stmtAt (depth levels : Nat) : Reads (stmtAt depth levels) Stmt.Within :=
  stmtAt_induction (P := fun _ p => Reads p Stmt.Within) (fun _ => reads_failTooDeep)
    (fun _ hnested => reads_statement hnested) depth levels

theorem reads_stmt (levels : Nat) : Reads (stmt levels) Stmt.Within :=
  reads_stmtAt levels levels

/-! ## Units -/

/-- Something that may be skipped before the rest is read. -/
theorem readsAt_skip_bind {β : Type} {P : β → Nat → Prop} (hP : ∀ b n m, P b n → P b (m + n))
    {c : Bool} {p : Parser Unit} (hp : Reads p fun _ _ => True) {next : Unit → Parser β}
    (hnext : ∀ s, ReadsAt s (next ()) P) : ReadsAt s (if c = true then p >>= next else next ()) P := by
  split
  · refine (hp s).bind ?_
    intro _ n s' _
    exact (hnext s').mono fun b m hb => hP b m n hb
  · exact hnext s

theorem reads_moreParams (bound : Nat) (read : List (String × Position)) :
    Reads (moreParams bound read) fun params n => params.length ≤ read.length + n := by
  induction bound generalizing read with
  | zero => exact fun s => readsAt_pure (by rw [List.length_reverse]; omega)
  | succ bound ih =>
    intro s
    refine (reads_expect (by simp) s).bind ?_
    rintro t n s₁ ⟨rfl, _⟩
    refine (reads_eat (by simp) s₁).bind ?_
    intro eaten k s₂ _
    split
    · refine (ih _ s₂).mono ?_
      intro params m hparams
      rw [List.length_cons] at hparams
      omega
    · refine readsAt_pure ?_
      rw [List.length_reverse, List.length_cons]
      omega

/-- The header of a function has a token for its name and one for each parameter at least. -/
theorem reads_functionHeader :
    Reads functionHeader fun header n => 1 + header.2.length ≤ n := by
  intro s
  refine (reads_expect (by simp) s).bind ?_
  rintro name n s₁ ⟨rfl, _⟩
  refine (reads_expect (by simp) s₁).bind ?_
  intro _ n s₂ _
  refine readsAt_check_bind ?_
  have hclose : ∀ (params : List (String × Position)) (k : Nat) (s₃ : ParserState), params.length ≤ k →
      ReadsAt s₃ (do let _ ← expect .closeParen; return (name, params))
        fun header m => 1 + header.2.length ≤ 1 + (n + (k + m)) := by
    intro params k s₃ hparams
    refine (reads_expect (by simp) s₃).bind ?_
    intro _ m s₄ _
    exact readsAt_pure (by dsimp only; omega)
  split
  · refine readsAt_look_bind (a := []) rfl ?_
    refine (hclose [] 0 s₂ (Nat.le_refl 0)).mono ?_
    intro header m hheader
    omega
  · refine readsAt_remaining_bind fun bound => ?_
    refine (reads_moreParams (bound + 1) [] s₂).bind ?_
    intro params k s₃ hparams
    exact hclose params k s₃ (by rwa [List.length_nil, Nat.zero_add] at hparams)

theorem reads_function :
    Reads function fun result n => ∀ f, result = some f → f.Within n := by
  intro s
  refine (reads_advance s).bind ?_
  intro _ n₀ s₁ _
  refine (reads_functionHeader s₁).attempt.bind ?_
  intro header n₁ s₂ hheader
  have hmono : ∀ (result : Option FunctionDecl) (n m : Nat),
      (∀ f, result = some f → f.Within (n₀ + (n₁ + n))) →
        ∀ f, result = some f → f.Within (n₀ + (n₁ + (m + n))) := by
    intro result n m h f hf
    obtain ⟨hsize, hplain⟩ := h f hf
    exact ⟨by omega, hplain⟩
  refine readsAt_skip_bind hmono (reads_skipTo _) fun s₃ => ?_
  refine readsAt_check_bind ?_
  have hend : ∀ (body : List Stmt) (k : Nat) (s₄ : ParserState), BodyWithin body k →
      ReadsAt s₄ (return header.map fun h =>
        ({ name := h.1.text, position := h.1.position, params := h.2, body } : FunctionDecl))
        fun result m => ∀ f, result = some f → f.Within (n₀ + (n₁ + (k + m))) := by
    rintro body k s₄ ⟨hsize, hbody⟩
    refine readsAt_pure fun f hf => ?_
    obtain ⟨⟨name, params⟩, hsome, rfl⟩ := Option.map_eq_some_iff.1 hf
    have hparams : 1 + params.length ≤ n₁ := hheader _ hsome
    refine ⟨?_, hbody⟩
    rw [FunctionDecl.size]
    dsimp only
    omega
  split
  · refine (reads_block (reads_stmt maxNesting) s₃).bind ?_
    intro body k s₄ hbody
    exact hend body k s₄ hbody
  · refine readsAt_skip_bind hmono ?_ fun s₄ => ?_
    · exact fun s => (reads_reportExpected _ s).mono fun _ _ _ => trivial
    · refine readsAt_look_bind (a := []) rfl ?_
      refine (hend [] 0 s₄ ⟨Nat.zero_le _, trivial⟩).mono ?_
      intro result m h f hf
      obtain ⟨hsize, hplain⟩ := h f hf
      exact ⟨by omega, hplain⟩

theorem reads_functions (bound : Nat) {read : List FunctionDecl} {k : Nat}
    (hread : FunctionsWithin read k) :
    Reads (functions bound read) fun fs n => FunctionsWithin fs (k + n) := by
  have hstop : ∀ (read : List FunctionDecl) (k : Nat) (s : ParserState), FunctionsWithin read k →
      ReadsAt s (pure read.reverse) fun fs n => FunctionsWithin fs (k + n) := by
    rintro read k s ⟨hsize, hplain⟩
    refine readsAt_pure ⟨?_, fun f hf => hplain f (List.mem_reverse.1 hf)⟩
    rwa [totalSize_reverse]
  induction bound generalizing read k with
  | zero => exact fun s => hstop read k s hread
  | succ bound ih =>
    intro s
    rw [functions]
    refine readsAt_peek_bind ?_
    split
    · exact hstop read k s hread
    · exact hstop read k s hread
    · refine (reads_function s).bind ?_
      intro result n s₁ hresult
      cases result with
      | none =>
        refine (ih hread s₁).mono ?_
        rintro fs m ⟨hsize, hplain⟩
        exact ⟨by omega, hplain⟩
      | some f =>
        obtain ⟨hfSize, hf⟩ := hresult f rfl
        have hmore : FunctionsWithin (f :: read) (k + n) := by
          refine ⟨?_, List.forall_mem_cons.2 ⟨hf, hread.2⟩⟩
          have hsize := hread.1
          rw [totalSize]
          omega
        refine (ih hmore s₁).mono ?_
        rintro fs m ⟨hsize, hplain⟩
        exact ⟨by omega, hplain⟩
    · refine (reads_reportExpected _ s).bind ?_
      intro _ n₁ s₁ _
      refine (reads_advance s₁).bind ?_
      intro _ n₂ s₂ _
      refine (reads_skipTo _ s₂).bind ?_
      intro _ n₃ s₃ _
      refine (ih hread s₃).mono ?_
      rintro fs m ⟨hsize, hplain⟩
      exact ⟨by omega, hplain⟩

theorem reads_moreSegments (bound : Nat) (read : List String) :
    Reads (moreSegments bound read) fun _ _ => True := by
  induction bound generalizing read with
  | zero => exact fun s => readsAt_pure trivial
  | succ bound ih =>
    intro s
    refine (reads_eat (by simp) s).bind ?_
    intro eaten n s₁ _
    split
    · refine (reads_expect (by simp) s₁).bind ?_
      intro t m s₂ _
      exact ih _ s₂
    · exact readsAt_pure trivial

theorem reads_path : Reads path fun _ _ => True := by
  intro s
  refine (reads_expect (by simp) s).bind ?_
  intro first n s₁ _
  exact readsAt_remaining_bind fun bound => reads_moreSegments _ _ s₁

theorem reads_importDecl : Reads importDecl fun _ n => 0 < n := by
  intro s
  refine (reads_expect (by simp) s).bind ?_
  rintro start n s₁ ⟨rfl, _⟩
  refine (reads_path s₁).bind ?_
  intro segments m s₂ _
  split
  · refine (reads_report _ _ s₂).bind ?_
    intro _ k s₃ _
    refine readsAt_fail.bind (P := fun _ _ => True) ?_
    intro _ k' s₄ _
    refine (reads_expect (by simp) s₄).bind ?_
    intro _ _ s₅ _
    exact readsAt_pure (by omega)
  · refine (reads_expect (by simp) s₂).bind ?_
    intro _ _ s₃ _
    exact readsAt_pure (by omega)

theorem reads_pluginHeader : Reads pluginHeader fun _ _ => True := by
  intro s
  refine (reads_expect (by simp) s).bind ?_
  intro name n s₁ _
  refine (reads_expect (by simp) s₁).bind ?_
  intro _ m s₂ _
  refine readsAt_peek_bind ?_
  refine (reads_path s₂).bind ?_
  intro supertype k s₃ _
  exact readsAt_pure trivial

theorem reads_plugin : Reads plugin PluginWithin := by
  intro s
  refine (reads_advance s).bind ?_
  intro _ n₀ s₁ _
  refine (reads_pluginHeader s₁).attempt.bind ?_
  intro header n₁ s₂ _
  have hmono : ∀ (result : Option PluginDecl) (n m : Nat),
      PluginWithin result (n₀ + (n₁ + n)) → PluginWithin result (n₀ + (n₁ + (m + n))) :=
    fun result n m h => h.mono (by omega)
  refine readsAt_skip_bind hmono (reads_skipTo _) fun s₃ => ?_
  refine (reads_expect (by simp) s₃).attempt.bind ?_
  intro opened n₂ s₄ _
  cases opened with
  | none => exact readsAt_pure fun decl hdecl => absurd hdecl (by simp)
  | some _ =>
    refine readsAt_remaining_bind fun bound => ?_
    have hnone : FunctionsWithin [] 0 := ⟨Nat.le_refl 0, by simp⟩
    refine (reads_functions (bound + 1) hnone s₄).bind ?_
    intro fs n₃ s₅ hfs
    refine (reads_expect (by simp) s₅).attempt.bind ?_
    intro _ n₄ s₆ _
    refine readsAt_pure fun decl hdecl => ?_
    obtain ⟨_, _, rfl⟩ := Option.map_eq_some_iff.1 hdecl
    obtain ⟨hsize, hplain⟩ := hfs
    exact ⟨by dsimp only; omega, hplain⟩

theorem reads_unit (bound : Nat) {read : ParsedUnit} {k : Nat} (hread : PluginWithin read.plugin k) :
    Reads (unit bound read) fun parsed n => PluginWithin parsed.plugin (k + n) := by
  induction bound generalizing read k with
  | zero => exact fun s => readsAt_pure hread
  | succ bound ih =>
    intro s
    rw [unit]
    refine readsAt_peek_bind ?_
    split
    · exact readsAt_pure hread
    · refine (reads_importDecl s).orRecover.bind ?_
      intro result n s₁ _
      cases result with
      | none => exact (ih hread s₁).mono fun parsed m h => h.mono (by omega)
      | some i =>
        have hnext : PluginWithin { read with imports := read.imports ++ [i] }.plugin k := hread
        exact (ih hnext s₁).mono fun parsed m h => h.mono (by omega)
    · refine (reads_plugin s).bind ?_
      intro decl n s₁ hdecl
      split
      · refine (reads_report _ _ s₁).bind ?_
        intro _ n' s₂ _
        exact (ih hread s₂).mono fun parsed m h => h.mono (by omega)
      · have hnext : PluginWithin { read with plugin := decl }.plugin n := hdecl
        exact (ih hnext s₁).mono fun parsed m h => h.mono (by omega)
    · refine (reads_reportExpected _ s).bind ?_
      intro _ n₁ s₁ _
      refine (reads_advance s₁).bind ?_
      intro _ n₂ s₂ _
      refine (reads_skipTo _ s₂).bind ?_
      intro _ n₃ s₃ _
      exact (ih hread s₃).mono fun parsed m h => h.mono (by omega)

end Parser
end PluginSandbox
