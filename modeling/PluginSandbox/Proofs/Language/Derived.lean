import PluginSandbox.Language.Parser.Unit
import PluginSandbox.Proofs.Language.Grammar
import PluginSandbox.Proofs.Language.Taking

/-!
# What is read without errors is derived

Where a parser records no error, the tokens that it took are derived by the grammar, the tree that it returns is the
one of that derivation, and the derivation needs no more levels than the parser was given.
-/

namespace PluginSandbox

/-- What was read of a unit, and what follows it. -/
def ParsedUnit.append (u v : ParsedUnit) : ParsedUnit where
  imports := u.imports ++ v.imports
  plugin := u.plugin.or v.plugin

@[simp] theorem ParsedUnit.append_empty (u : ParsedUnit) : u.append ⟨[], none⟩ = u := by
  simp [append]

@[simp] theorem ParsedUnit.empty_append (u : ParsedUnit) : append ⟨[], none⟩ u = u := by
  simp [append]

namespace Parser

open Grammar

/-! ## Tiers -/

/-- The operators of a tier. -/
def operatorsOf : Nat → Operators
  | 1 => productOperators
  | 2 => sumOperators
  | 3 => orderOperators
  | 4 => equalityOperators
  | 5 => andOperators
  | 6 => orOperators
  | _ => fun _ => none

/-- The operators that are read are those of the grammar. -/
theorem operatorsOf_eq_some {tier : Nat} {kind : TokenKind} {make : Join} :
    operatorsOf tier kind = some make ↔ BinaryOperator tier kind make := by
  constructor
  · intro h
    rw [operatorsOf.eq_def] at h
    split at h
    · cases kind <;> simp [productOperators] at h <;> subst h <;> constructor
    · cases kind <;> simp [sumOperators] at h <;> subst h <;> constructor
    · cases kind <;> simp [orderOperators] at h <;> subst h <;> constructor
    · cases kind <;> simp [equalityOperators] at h <;> subst h <;> constructor
    · cases kind <;> simp [andOperators] at h
      subst h
      constructor
    · cases kind <;> simp [orOperators] at h
      subst h
      constructor
    · exact absurd h (by simp)
  · intro h
    cases h <;> rfl

/-- The parser of a tier, with some levels left. -/
def atTier (nested : Nat → Parser Expr) : Nat → Nat → Parser Expr
  | 0 => unary nested
  | tier + 1 => chain (operatorsOf (tier + 1)) (atTier nested tier)

/-! ## Expressions -/

variable {s : ParserState} {levels : Nat}

theorem takes_chainTail {tier : Nat} {operand : Nat → Parser Expr}
    (hoperand : ∀ levels, Takes (operand levels) (Within levels (InTier tier))) (levels : Nat) (left : Expr) :
    Takes (chainTail (operatorsOf (tier + 1)) operand levels left) fun ts e =>
      ∀ ls k n, IsTier (tier + 1) k ls left n → n ≤ k + levels →
        Within (k + levels) (InTier (tier + 1)) (ls ++ ts) e := by
  have hstop : ∀ (levels : Nat) (left : Expr) (s : ParserState), TakesAt s (pure left) fun ts e =>
      ∀ ls k n, IsTier (tier + 1) k ls left n → n ≤ k + levels →
        Within (k + levels) (InTier (tier + 1)) (ls ++ ts) e := by
    refine fun levels left s => takesAt_pure fun ls k n hleft hn => ⟨n, hn, k, ?_⟩
    rwa [List.append_nil]
  induction levels generalizing left with
  | zero =>
    intro s
    rw [chainTail]
    refine takesAt_peek_bind ?_
    cases operatorsOf (tier + 1) s.next.kind with
    | none => exact hstop 0 left s
    | some make => exact takes_failTooDeep s
  | succ levels ih =>
    intro s
    rw [chainTail]
    refine takesAt_peek_bind ?_
    cases hmake : operatorsOf (tier + 1) s.next.kind with
    | none => exact hstop (levels + 1) left s
    | some make =>
      have hoperator := operatorsOf_eq_some.1 hmake
      refine takesAt_advance_bind (fun hend => ?_) ?_
      · rw [hend] at hoperator
        cases hoperator
      refine (hoperand levels s.rest).bind fun right s₁ => (ih _ s₁).mono ?_
      rintro us e htail ts _ ⟨m, hm, j, hright⟩ ls k n hleft hn
      have hmore := htail _ _ _ (hleft.join hoperator hright rfl) (by omega)
      rwa [List.append_assoc, List.cons_append, Nat.add_right_comm, Nat.add_assoc] at hmore

theorem takes_chain {tier : Nat} {operand : Nat → Parser Expr}
    (hoperand : ∀ levels, Takes (operand levels) (Within levels (InTier tier))) (levels : Nat) :
    Takes (chain (operatorsOf (tier + 1)) operand levels) (Within levels (InTier (tier + 1))) := by
  refine (hoperand levels).bind fun first s => (takes_chainTail hoperand levels first s).mono ?_
  rintro us e htail ts ⟨n, hn, k, hfirst⟩
  have hchain := htail ts 0 n hfirst.single (by omega)
  rwa [Nat.zero_add] at hchain

theorem takes_moreArgs {arg : Parser Expr} (harg : Takes arg (Within levels IsExpression)) (bound : Nat)
    (read : List Expr) (s : ParserState) :
    TakesAt s (moreArgs arg bound read) fun ts es =>
      s.tokens.length < bound → ∃ more, es = read.reverse ++ more ∧ Within levels IsArgList ts more := by
  induction bound generalizing read s with
  | zero => exact takesAt_pure fun h => absurd h (by omega)
  | succ bound ih =>
    rw [moreArgs]
    refine (harg s).bind fun e s₁ => ?_
    refine (takes_eat (by simp) s₁).bind fun eaten s₂ => ?_
    cases eaten with
    | true =>
      refine (ih (e :: read) s₂).mono ?_
      rintro us es hmore vs hvs ⟨comma, rfl, hcomma⟩ ts hts ⟨n, hn, he⟩ hbound
      rw [hts, hvs, List.length_append, List.length_append, List.length_singleton] at hbound
      obtain ⟨more, rfl, m, hm, hmore⟩ := hmore (by omega)
      refine ⟨e :: more, ?_, max n m, by omega, ?_⟩
      · rw [List.reverse_cons, List.append_assoc, List.singleton_append]
      · exact .more he hcomma hmore
    | false =>
      refine takesAt_pure ?_
      rintro vs _ rfl ts _ ⟨n, hn, he⟩ _
      refine ⟨[e], List.reverse_cons, n, hn, ?_⟩
      rw [List.append_nil, List.append_nil]
      exact .one he

theorem takes_args {arg : Parser Expr} (harg : Takes arg (Within levels IsExpression)) :
    Takes (args arg) (Within levels IsArgs) := by
  refine (takes_expect (by simp)).bind fun l s => ?_
  refine takesAt_check_bind ?_
  have hclose : ∀ (es : List Expr) (s : ParserState),
      TakesAt s (do let _ ← expect .closeParen; return es) fun ts es' =>
        ∃ r, ts = [r] ∧ r.kind = .closeParen ∧ es' = es := by
    refine fun es s => (takes_expect (by simp) s).bind fun r s' => takesAt_pure ?_
    rintro _ _ ⟨rfl, hr⟩
    exact ⟨r, rfl, hr, rfl⟩
  split
  · refine takesAt_look_bind (a := []) rfl ((hclose [] s).mono ?_)
    rintro _ es ⟨r, rfl, hr, rfl⟩ _ ⟨rfl, hl⟩
    exact ⟨0, Nat.zero_le _, .none hl hr⟩
  · refine takesAt_remaining_bind ?_
    refine (takes_moreArgs harg (s.tokens.length + 1) [] s).bind fun es s₁ => (hclose es s₁).mono ?_
    rintro _ _ ⟨r, rfl, hr, rfl⟩ ts _ hmore _ ⟨rfl, hl⟩
    obtain ⟨more, rfl, n, hn, hargs⟩ := hmore (Nat.lt_succ_self _)
    exact ⟨n, hn, .some hl hargs hr⟩

theorem takesAt_literal {e : Expr} (h : s.next.kind ≠ .endOfInput) (he : IsOperand [s.next] e 0) :
    TakesAt s (do let _ ← advance; return e) (Within levels IsOperand) :=
  takesAt_advance_bind h (takesAt_pure ⟨0, Nat.zero_le _, he⟩)

theorem takesAt_named {nested : Parser Expr} (hnested : Takes nested (Within levels IsExpression))
    (hkind : s.next.kind = .identifier) :
    TakesAt s (do
      let _ ← advance
      if ← check .openParen then
        return .call s.next.text (← args nested) s.next.position
      else if ← eat .dot then
        let method ← expect .identifier
        return .memberCall s.next.text method.text (← args nested) s.next.position
      else return .var s.next.text s.next.position) (Within levels IsOperand) := by
  refine takesAt_advance_bind (by simp [hkind]) (takesAt_check_bind ?_)
  split
  · refine (takes_args hnested _).bind fun es s₁ => takesAt_pure ?_
    rintro ts _ ⟨n, hn, hes⟩
    rw [List.append_nil]
    exact ⟨n, hn, .call hkind hes⟩
  · refine (takes_eat (by simp) _).bind fun eaten s₁ => ?_
    cases eaten with
    | true =>
      refine (takes_expect (by simp) s₁).bind fun method s₂ => ?_
      refine (takes_args hnested s₂).bind fun es s₃ => takesAt_pure ?_
      rintro ts _ ⟨n, hn, hes⟩ _ _ ⟨rfl, hmethod⟩ _ _ ⟨dot, rfl, hdot⟩
      rw [List.append_nil]
      exact ⟨n, hn, .memberCall hkind hdot hmethod hes⟩
    | false =>
      refine takesAt_pure ?_
      rintro _ _ rfl
      exact ⟨0, Nat.zero_le _, .var hkind⟩

theorem takes_primary {nested : Parser Expr} (hnested : Takes nested (Within levels IsExpression)) :
    Takes (primary nested) (Within levels IsOperand) := by
  intro s
  refine takesAt_peek_bind ?_
  cases hkind : s.next.kind with
  | integer value => exact takesAt_literal (by simp [hkind]) (.int hkind)
  | stringLiteral => exact takesAt_literal (by simp [hkind]) (.str hkind)
  | trueWord => exact takesAt_literal (by simp [hkind]) (.trueWord hkind)
  | falseWord => exact takesAt_literal (by simp [hkind]) (.falseWord hkind)
  | openParen =>
    refine takesAt_advance_bind (by simp [hkind]) ?_
    refine (hnested _).bind fun e s₁ => ?_
    refine (takes_expect (by simp) s₁).bind fun r s₂ => takesAt_pure ?_
    rintro _ _ ⟨rfl, hr⟩ ts _ ⟨n, hn, he⟩
    exact ⟨n, hn, .group hkind he hr⟩
  | identifier => exact takesAt_named hnested hkind
  | _ => exact takes_failExpected _ s

theorem unaryOperator?_cases {kind : TokenKind} {apply : Expr → Position → Expr}
    (h : unaryOperator? kind = some apply) :
    kind = .minus ∧ apply = .neg ∨ kind = .bang ∧ apply = .not := by
  cases kind <;> simp [unaryOperator?] at h <;> simp [h]

theorem takes_unary {nested : Nat → Parser Expr}
    (hnested : ∀ levels, Takes (nested levels) (Within levels IsExpression)) (levels : Nat) :
    Takes (unary nested levels) (Within levels IsOperand) := by
  induction levels with
  | zero =>
    intro s
    rw [unary]
    refine takesAt_peek_bind ?_
    cases unaryOperator? s.next.kind with
    | none => exact takes_primary (hnested 0) s
    | some apply => exact (takes_advance s).bind fun _ s₁ => takes_failTooDeep s₁
  | succ levels ih =>
    intro s
    rw [unary]
    refine takesAt_peek_bind ?_
    cases happly : unaryOperator? s.next.kind with
    | none => exact takes_primary (hnested (levels + 1)) s
    | some apply =>
      have hcases := unaryOperator?_cases happly
      refine takesAt_advance_bind (fun hend => ?_) ?_
      · simp [hend] at hcases
      refine (ih _).bind fun e s₁ => takesAt_pure ?_
      rintro ts _ ⟨n, hn, he⟩
      rw [List.append_nil]
      obtain ⟨hkind, rfl⟩ | ⟨hkind, rfl⟩ := hcases
      · exact ⟨n + 1, Nat.succ_le_succ hn, .neg hkind he⟩
      · exact ⟨n + 1, Nat.succ_le_succ hn, .not hkind he⟩

theorem takes_atTier {nested : Nat → Parser Expr}
    (hnested : ∀ levels, Takes (nested levels) (Within levels IsExpression)) (tier levels : Nat) :
    Takes (atTier nested tier levels) (Within levels (InTier tier)) := by
  induction tier generalizing levels with
  | zero =>
    refine (takes_unary hnested levels).mono ?_
    rintro ts e ⟨n, hn, he⟩
    exact ⟨n, hn, 0, .operand he⟩
  | succ tier ih => exact takes_chain ih levels

theorem takes_exprAt (depth levels : Nat) : Takes (exprAt depth levels) (Within levels IsExpression) := by
  refine exprAt_induction (P := fun levels p => Takes p (Within levels IsExpression)) (fun _ => takes_failTooDeep)
    (fun nested hnested levels => Takes.mono (takes_atTier hnested loosest levels) ?_) depth levels
  rintro ts e ⟨n, hn, k, he⟩
  exact ⟨n + 1, by omega, .complete he⟩

theorem takes_expr (levels : Nat) : Takes (expr levels) (Within levels IsExpression) :=
  takes_exprAt levels levels

/-! ## Statements -/

theorem takes_statements {statement : Parser Stmt} (hstatement : Takes statement (Within levels IsStatement))
    (bound : Nat) (read : List Stmt) :
    Takes (statements statement bound read) fun ts body =>
      ∃ more, body = read.reverse ++ more ∧ Within levels IsStatements ts more := by
  have hstop : ∀ (read : List Stmt) (s : ParserState), TakesAt s (pure read.reverse) fun ts body =>
      ∃ more, body = read.reverse ++ more ∧ Within levels IsStatements ts more :=
    fun read s => takesAt_pure ⟨[], (List.append_nil _).symm, 0, Nat.zero_le _, .nil⟩
  induction bound generalizing read with
  | zero => exact hstop read
  | succ bound ih =>
    intro s
    rw [statements]
    refine takesAt_peek_bind ?_
    split
    · exact hstop read s
    · exact hstop read s
    · refine (hstatement.orRecover s).bind fun result s₁ => ?_
      cases result with
      | none =>
        refine (ih read s₁).mono ?_
        rintro _ _ _ _ _ ⟨_, h, _⟩
        exact absurd h (by simp)
      | some stmt =>
        refine (ih (stmt :: read) s₁).mono ?_
        rintro us _ ⟨more, rfl, m, hm, hmore⟩ ts _ ⟨_, h, n, hn, hstmt⟩
        obtain rfl := Option.some.inj h
        refine ⟨stmt :: more, ?_, max n m, by omega, IsStatements.cons hstmt hmore⟩
        rw [List.reverse_cons, List.append_assoc, List.singleton_append]

theorem takes_block {statement : Parser Stmt} (hstatement : Takes statement (Within levels IsStatement)) :
    Takes (block statement) (Within levels IsBlock) := by
  refine (takes_expect (by simp)).attempt.bind fun result s => ?_
  cases result with
  | none =>
    refine takesAt_pure ?_
    rintro _ ⟨_, h, _⟩
    exact absurd h (by simp)
  | some l =>
    refine takesAt_remaining_bind ?_
    refine (takes_statements hstatement _ [] s).bind fun body s₁ => ?_
    refine ((takes_expect (by simp)).attempt s₁).bind fun _ s₂ => takesAt_pure ?_
    rintro _ _ ⟨r, _, rfl, hr⟩ ts _ ⟨more, rfl, n, hn, hbody⟩ _ ⟨_, h, rfl, hl⟩
    obtain rfl := Option.some.inj h
    exact ⟨n, hn, .braces hl hbody hr⟩

theorem takes_requiredBlock {body : Parser (List Stmt)} (hbody : Takes body (Within levels IsBlock)) :
    Takes (requiredBlock body) (Within levels IsBlock) := by
  intro s
  refine takesAt_check_bind ?_
  split
  · exact hbody s
  · exact takes_failExpected _ s

theorem takesAt_branchOf {condition : Parser Expr} {body : Parser (List Stmt)} {elseIf : Parser Stmt}
    (hcondition : Takes condition (Within levels IsExpression)) (hbody : Takes body (Within levels IsBlock))
    (helseIf : ∀ s : ParserState, s.next.kind = .ifWord →
      TakesAt s elseIf fun ts stmt => ∃ n < levels, IsBranch ts stmt n)
    (hnext : s.next.kind = .ifWord) :
    TakesAt s (branchOf condition body elseIf) (Within levels IsBranch) := by
  refine takesAt_advance_bind (by simp [hnext]) ?_
  refine (hcondition _).bind fun c s₁ => ?_
  refine (takes_requiredBlock hbody s₁).bind fun thenBody s₂ => ?_
  refine (takes_eat (by simp) s₂).bind fun eaten s₃ => ?_
  cases eaten with
  | true =>
    refine takesAt_check_bind ?_
    split
    · next hif =>
      refine (helseIf s₃ (beq_iff_eq.1 hif)).bind fun stmt s₄ => takesAt_pure ?_
      rintro vs _ ⟨k, hk, hstmt⟩ _ _ ⟨elseWord, rfl, helse⟩ us _ ⟨m, hm, hthen⟩ ts _ ⟨n, hn, hc⟩
      rw [List.append_nil]
      exact ⟨max n (max m (k + 1)), by omega, .elseIf hnext hc hthen helse hstmt⟩
    · refine takesAt_check_bind ?_
      split
      · refine (hbody s₃).bind fun elseBody s₄ => takesAt_pure ?_
        rintro vs _ ⟨k, hk, hbody⟩ _ _ ⟨elseWord, rfl, helse⟩ us _ ⟨m, hm, hthen⟩ ts _ ⟨n, hn, hc⟩
        rw [List.append_nil]
        exact ⟨max n (max m k), by omega, .otherwise hnext hc hthen helse hbody⟩
      · exact takes_failExpected _ s₃
  | false =>
    refine takesAt_pure ?_
    rintro _ _ rfl us _ ⟨m, hm, hthen⟩ ts _ ⟨n, hn, hc⟩
    rw [List.append_nil, List.append_nil]
    exact ⟨max n m, by omega, .alone hnext hc hthen⟩

theorem takesAt_branch {body : Nat → Parser (List Stmt)}
    (hbody : ∀ levels, Takes (body levels) (Within levels IsBlock)) (levels : Nat) (s : ParserState)
    (hnext : s.next.kind = .ifWord) : TakesAt s (branch body levels) (Within levels IsBranch) := by
  induction levels generalizing s with
  | zero => exact takesAt_branchOf (takes_expr 0) (hbody 0) (fun s _ => takes_failTooDeep s) hnext
  | succ levels ih =>
    refine takesAt_branchOf (takes_expr _) (hbody _) (fun s hs => (ih s hs).mono ?_) hnext
    rintro ts stmt ⟨n, hn, hstmt⟩
    exact ⟨n, by omega, hstmt⟩

/-- An expression and the semicolon behind it. -/
theorem takes_ended (make : Expr → Stmt) (levels : Nat) :
    Takes (do
      let value ← expr levels
      let _ ← expect .semicolon
      return make value) fun ts stmt =>
        ∃ us semicolon e n, ts = us ++ [semicolon] ∧ stmt = make e ∧ semicolon.kind = .semicolon ∧
          n ≤ levels ∧ IsExpression us e n := by
  refine (takes_expr levels).bind fun e s => ?_
  refine (takes_expect (by simp) s).bind fun semicolon s₁ => takesAt_pure ?_
  rintro _ _ ⟨rfl, hsemicolon⟩ ts ⟨n, hn, he⟩
  exact ⟨ts, semicolon, e, n, rfl, rfl, hsemicolon, hn, he⟩

theorem takesAt_ret (hnext : s.next.kind = .returnWord) :
    TakesAt s (do
      let _ ← advance
      let value ← if ← check .semicolon then pure none else some <$> expr levels
      let _ ← expect .semicolon
      return .ret value s.next.position) (Within (levels + 1) IsStatement) := by
  refine takesAt_advance_bind (by simp [hnext]) (takesAt_check_bind ?_)
  split
  · refine takesAt_look_bind (a := none) rfl ?_
    refine (takes_expect (by simp) _).bind fun semicolon s₁ => takesAt_pure ?_
    rintro _ _ ⟨rfl, hsemicolon⟩
    exact ⟨1, by omega, .retNone hnext hsemicolon⟩
  · have hvalue : Takes (some <$> expr levels) fun ts value =>
        ∃ e, value = some e ∧ Within levels IsExpression ts e := by
      refine (takes_expr levels).bind fun e s => takesAt_pure fun ts he => ?_
      rw [List.append_nil]
      exact ⟨e, rfl, he⟩
    refine (hvalue _).bind fun value s₁ => ?_
    refine (takes_expect (by simp) s₁).bind fun semicolon s₂ => takesAt_pure ?_
    rintro _ _ ⟨rfl, hsemicolon⟩ ts _ ⟨e, rfl, n, hn, he⟩
    exact ⟨n + 1, by omega, .retSome hnext he hsemicolon⟩

theorem takes_statement {nested : Nat → Parser Stmt}
    (hnested : ∀ levels, Takes (nested levels) (Within levels IsStatement)) (levels : Nat) :
    Takes (statement nested levels) (Within (levels + 1) IsStatement) := by
  intro s
  refine takesAt_peek_bind ?_
  split
  · next hnext =>
    refine takesAt_advance_bind (by simp [hnext]) ?_
    refine (takes_expect (by simp) _).bind fun name s₁ => ?_
    refine (takes_expect (by simp) s₁).bind fun assign s₂ => ?_
    refine (takes_ended (.declare name.text · s.next.position) levels s₂).mono ?_
    rintro _ _ ⟨us, semicolon, e, n, rfl, rfl, hsemicolon, hn, he⟩ _ _ ⟨rfl, hassign⟩ _ _ ⟨rfl, hname⟩
    exact ⟨n + 1, by omega, .declare hnext hname hassign he hsemicolon⟩
  · next hnext =>
    refine (takesAt_branch (fun levels => takes_block (hnested levels)) levels s hnext).mono ?_
    rintro ts stmt ⟨n, hn, hstmt⟩
    exact ⟨n + 1, by omega, .branch hstmt⟩
  · next hnext =>
    refine takesAt_advance_bind (by simp [hnext]) ?_
    refine (takes_expr levels _).bind fun c s₁ => ?_
    refine (takes_requiredBlock (takes_block (hnested levels)) s₁).bind fun body s₂ => takesAt_pure ?_
    rintro us _ ⟨m, hm, hbody⟩ ts _ ⟨n, hn, hc⟩
    rw [List.append_nil]
    exact ⟨max n m + 1, by omega, .loop hnext hc hbody⟩
  · next hnext => exact takesAt_ret hnext
  · refine takesAt_peekSecond_bind ?_
    split
    · next hboth =>
      have hname := beq_iff_eq.1 (Bool.and_eq_true_iff.1 hboth).1
      have hassign := beq_iff_eq.1 (Bool.and_eq_true_iff.1 hboth).2
      refine takesAt_advance_bind (by simp [hname]) (takesAt_advance_bind (by simp [hassign]) ?_)
      refine (takes_ended (.assign s.next.text · s.next.position) levels _).mono ?_
      rintro _ _ ⟨us, semicolon, e, n, rfl, rfl, hsemicolon, hn, he⟩
      exact ⟨n + 1, by omega, .assign hname hassign he hsemicolon⟩
    · refine (takes_ended .expr levels s).mono ?_
      rintro _ _ ⟨us, semicolon, e, n, rfl, rfl, hsemicolon, hn, he⟩
      exact ⟨n + 1, by omega, .expr he hsemicolon⟩

theorem takes_stmtAt (depth levels : Nat) : Takes (stmtAt depth levels) (Within levels IsStatement) :=
  stmtAt_induction (P := fun levels p => Takes p (Within levels IsStatement)) (fun _ => takes_failTooDeep)
    (fun _ hnested => takes_statement hnested) depth levels

theorem takes_stmt (levels : Nat) : Takes (stmt levels) (Within levels IsStatement) :=
  takes_stmtAt levels levels

/-! ## Units -/

theorem takes_moreSegments (bound : Nat) (read : List String) :
    Takes (moreSegments bound read) fun ts segments =>
      ∃ words, segments = read.reverse ++ words.map Token.text ∧
        ∀ t : Token, t.kind = .identifier → IsSeparated .dot (t :: ts) (t :: words) := by
  have hstop : ∀ (read : List String) (s : ParserState), TakesAt s (pure read.reverse) fun ts segments =>
      ∃ words, segments = read.reverse ++ words.map Token.text ∧
        ∀ t : Token, t.kind = .identifier → IsSeparated .dot (t :: ts) (t :: words) :=
    fun read s => takesAt_pure ⟨[], (List.append_nil _).symm, fun _ ht => .one ht⟩
  induction bound generalizing read with
  | zero => exact hstop read
  | succ bound ih =>
    refine (takes_eat (by simp)).bind fun eaten s => ?_
    cases eaten with
    | true =>
      refine (takes_expect (by simp) s).bind fun word s₁ => (ih (word.text :: read) s₁).mono ?_
      rintro us _ ⟨words, rfl, hwords⟩ _ _ ⟨rfl, hword⟩ _ ⟨dot, rfl, hdot⟩
      refine ⟨word :: words, ?_, fun t ht => .more ht hdot (hwords word hword)⟩
      rw [List.reverse_cons, List.append_assoc, List.singleton_append, List.map_cons]
    | false =>
      refine (hstop read s).mono ?_
      rintro ts _ h _ rfl
      exact h

theorem takes_path : Takes path IsPath := by
  refine (takes_expect (by simp)).bind fun first s => ?_
  refine takesAt_remaining_bind ((takes_moreSegments _ [first.text] s).mono ?_)
  rintro us _ ⟨words, rfl, hwords⟩ _ ⟨rfl, hfirst⟩
  exact ⟨first :: words, hwords first hfirst, rfl⟩

theorem takes_importDecl : Takes importDecl IsImport := by
  refine (takes_expect (by simp)).bind fun word s => ?_
  refine (takes_path s).bind fun segments s₁ => ?_
  split
  · exact takesAt_recorded rfl
  · next hlength =>
    refine (takes_expect (by simp) s₁).bind fun semicolon s₂ => takesAt_pure ?_
    rintro _ _ ⟨rfl, hsemicolon⟩ ts _ hpath _ ⟨rfl, hword⟩
    exact .path hword hpath (by omega) hsemicolon

theorem takes_moreParams (bound : Nat) (read : List (String × Position)) (s : ParserState) :
    TakesAt s (moreParams bound read) fun ts params => s.tokens.length < bound →
      ∃ words, params = read.reverse ++ words.map (fun t => (t.text, t.position)) ∧
        IsSeparated .comma ts words := by
  induction bound generalizing read s with
  | zero => exact takesAt_pure fun h => absurd h (by omega)
  | succ bound ih =>
    refine (takes_expect (by simp) s).bind fun word s₁ => ?_
    refine (takes_eat (by simp) s₁).bind fun eaten s₂ => ?_
    cases eaten with
    | true =>
      refine (ih ((word.text, word.position) :: read) s₂).mono ?_
      rintro us _ hmore _ hcommas ⟨comma, rfl, hcomma⟩ _ hwords ⟨rfl, hword⟩ hbound
      rw [hwords, hcommas, List.length_append, List.length_append] at hbound
      obtain ⟨words, rfl, hwords⟩ := hmore (by simp only [List.length_singleton] at hbound; omega)
      refine ⟨word :: words, ?_, .more hword hcomma hwords⟩
      rw [List.reverse_cons, List.append_assoc, List.singleton_append, List.map_cons]
    | false =>
      refine takesAt_pure ?_
      rintro _ _ rfl _ _ ⟨rfl, hword⟩ _
      exact ⟨[word], List.reverse_cons, .one hword⟩

theorem takes_functionHeader :
    Takes functionHeader fun ts header => ∃ l us r, ts = header.1 :: l :: (us ++ [r]) ∧
      header.1.kind = .identifier ∧ l.kind = .openParen ∧ IsParams us header.2 ∧ r.kind = .closeParen := by
  refine (takes_expect (by simp)).bind fun name s => ?_
  refine (takes_expect (by simp) s).bind fun l s₁ => ?_
  refine takesAt_check_bind ?_
  have hclose : ∀ (params : List (String × Position)) (s : ParserState),
      TakesAt s (do let _ ← expect .closeParen; return (name, params)) fun ts header =>
        ∃ r, ts = [r] ∧ r.kind = .closeParen ∧ header = (name, params) := by
    refine fun params s => (takes_expect (by simp) s).bind fun r s' => takesAt_pure ?_
    rintro _ _ ⟨rfl, hr⟩
    exact ⟨r, rfl, hr, rfl⟩
  split
  · refine takesAt_look_bind (a := []) rfl ((hclose [] s₁).mono ?_)
    rintro _ _ ⟨r, rfl, hr, rfl⟩ _ _ ⟨rfl, hl⟩ _ ⟨rfl, hname⟩
    exact ⟨l, [], r, rfl, hname, hl, .inl ⟨rfl, rfl⟩, hr⟩
  · refine takesAt_remaining_bind ?_
    refine (takes_moreParams (s₁.tokens.length + 1) [] s₁).bind fun params s₂ => (hclose params s₂).mono ?_
    rintro _ _ ⟨r, rfl, hr, rfl⟩ us _ hmore _ _ ⟨rfl, hl⟩ _ ⟨rfl, hname⟩
    obtain ⟨words, rfl, hwords⟩ := hmore (Nat.lt_succ_self _)
    exact ⟨l, us, r, rfl, hname, hl, .inr ⟨words, hwords, rfl⟩, hr⟩

/-- A body behind a header that may be missing. -/
theorem takes_functionBody (header : Option (Token × List (String × Position))) :
    Takes (do
      let body ←
        if ← check .openBrace then block (stmt maxNesting)
        else do
          if header.isSome then reportExpected TokenKind.openBrace.text
          pure []
      return header.map fun (name, params) =>
        ({ name := name.text, position := name.position, params, body } : FunctionDecl)) fun ts result =>
      ∀ h, header = some h → ∃ body, Within maxNesting IsBlock ts body ∧
        result = some { name := h.1.text, position := h.1.position, params := h.2, body } := by
  intro s
  refine takesAt_check_bind ?_
  split
  · refine (takes_block (takes_stmt maxNesting) s).bind fun body s₁ => takesAt_pure ?_
    rintro ts _ hbody h rfl
    rw [List.append_nil]
    exact ⟨body, hbody, rfl⟩
  · cases header with
    | none => exact takesAt_pure fun h hheader => absurd hheader (by simp)
    | some header => exact (takes_reportExpected _ s).bind fun _ s₁ => takesAt_pure fun _ _ h => h.elim

theorem takesAt_function (hnext : s.next.kind = .fnWord) :
    TakesAt s function fun ts result => ∃ f, result = some f ∧ Within maxNesting IsFunction ts f := by
  refine takesAt_advance_bind (by simp [hnext]) ?_
  refine (takes_functionHeader.attempt _).bind fun header s₁ => ?_
  refine takesAt_skip_bind (takes_skipTo _) (fun s₂ => (takes_functionBody header s₂).mono ?_) ?_
  · rintro us _ hbody ts _ ⟨h, rfl, l, ps, r, rfl, hname, hl, hparams, hr⟩
    obtain ⟨body, ⟨n, hn, hblock⟩, rfl⟩ := hbody h rfl
    refine ⟨_, rfl, n, hn, ?_⟩
    rw [List.cons_append, List.cons_append, List.append_assoc, List.singleton_append]
    exact .mk hnext hname hl hparams hr hblock
  · rintro hnone _ _ _ _ ⟨h, rfl, _⟩
    exact absurd hnone (by simp)

theorem takes_functions (bound : Nat) (read : List FunctionDecl) :
    Takes (functions bound read) fun ts fs =>
      ∃ more, fs = read.reverse ++ more ∧ Within maxNesting IsFunctions ts more := by
  have hstop : ∀ (read : List FunctionDecl) (s : ParserState), TakesAt s (pure read.reverse) fun ts fs =>
      ∃ more, fs = read.reverse ++ more ∧ Within maxNesting IsFunctions ts more :=
    fun read s => takesAt_pure ⟨[], (List.append_nil _).symm, 0, Nat.zero_le _, .nil⟩
  induction bound generalizing read with
  | zero => exact hstop read
  | succ bound ih =>
    intro s
    rw [functions]
    refine takesAt_peek_bind ?_
    split
    · exact hstop read s
    · exact hstop read s
    · next hnext =>
      refine (takesAt_function hnext).bind fun result s₁ => ?_
      cases result with
      | none =>
        refine (ih read s₁).mono ?_
        rintro _ _ _ _ _ ⟨_, h, _⟩
        exact absurd h (by simp)
      | some f =>
        refine (ih (f :: read) s₁).mono ?_
        rintro us _ ⟨more, rfl, m, hm, hmore⟩ ts _ ⟨_, h, n, hn, hf⟩
        obtain rfl := Option.some.inj h
        refine ⟨f :: more, ?_, max n m, by omega, .cons hf hmore⟩
        rw [List.reverse_cons, List.append_assoc, List.singleton_append]
    · refine (takes_reportExpected _ s).bind fun _ s₁ => ?_
      refine (takes_advance s₁).bind fun _ s₂ => ?_
      refine (takes_skipTo _ s₂).bind fun _ s₃ => (ih read s₃).mono ?_
      rintro _ _ _ _ _ _ _ _ _ _ _ h
      exact h.elim

theorem takes_pluginHeader :
    Takes pluginHeader fun ts header => ∃ colon first us, ts = header.1 :: colon :: first :: us ∧
      header.1.kind = .identifier ∧ colon.kind = .colon ∧ header.2.1 = first.position ∧
      IsPath (first :: us) header.2.2 := by
  refine (takes_expect (by simp)).bind fun name s => ?_
  refine (takes_expect (by simp) s).bind fun colon s₁ => ?_
  refine takesAt_peek_bind ((takes_path s₁).bind fun supertype s₂ => takesAt_pure ?_)
  rintro ts hts hpath _ _ ⟨rfl, hcolon⟩ _ ⟨rfl, hname⟩
  cases ts with
  | nil =>
    obtain ⟨_, hseparated, _⟩ := hpath
    cases hseparated
  | cons first us =>
    have hfirst : s₁.next = first := by
      rw [ParserState.next, hts, List.cons_append, List.head?_cons, Option.getD_some]
    refine ⟨colon, first, us, ?_, hname, hcolon, congrArg Token.position hfirst, hpath⟩
    rw [List.append_nil, List.singleton_append, List.singleton_append]

/-- The braces of a plugin and what is in them, behind a header that may be missing. -/
theorem takes_pluginBody (header : Option (Token × Position × List String)) :
    Takes (do
      match ← attempt (expect .openBrace) with
      | none => return none
      | some _ =>
        let functions ← functions ((← remaining) + 1) []
        let _ ← attempt (expect .closeBrace)
        return header.map fun (name, supertypePosition, supertype) =>
          ({ name := name.text, position := name.position, supertype, supertypePosition, functions } :
            PluginDecl)) fun ts result =>
      ∀ h, header = some h → ∃ l us r functions, ts = l :: (us ++ [r]) ∧ l.kind = .openBrace ∧
        Within maxNesting IsFunctions us functions ∧ r.kind = .closeBrace ∧
        result = some
          { name := h.1.text, position := h.1.position, supertype := h.2.2, supertypePosition := h.2.1
            functions } := by
  refine (takes_expect (by simp)).attempt.bind fun opened s => ?_
  cases opened with
  | none =>
    refine takesAt_pure ?_
    rintro _ ⟨_, h, _⟩
    exact absurd h (by simp)
  | some l =>
    refine takesAt_remaining_bind ?_
    refine (takes_functions _ [] s).bind fun fs s₁ => ?_
    refine ((takes_expect (by simp)).attempt s₁).bind fun _ s₂ => takesAt_pure ?_
    rintro _ _ ⟨r, _, rfl, hr⟩ us _ ⟨more, rfl, hmore⟩ _ ⟨_, hopened, rfl, hl⟩ header rfl
    obtain rfl := Option.some.inj hopened
    exact ⟨l, us, r, _, rfl, hl, hmore, hr, rfl⟩

theorem takesAt_plugin (hnext : s.next.kind = .pluginWord) :
    TakesAt s plugin fun ts result => ∃ p, result = some p ∧ Within maxNesting IsPlugin ts p := by
  refine takesAt_advance_bind (by simp [hnext]) ?_
  refine (takes_pluginHeader.attempt _).bind fun header s₁ => ?_
  refine takesAt_skip_bind (takes_skipTo _) (fun s₂ => (takes_pluginBody header s₂).mono ?_) ?_
  · rintro us _ hbody ts _ ⟨⟨name, position, supertype⟩, rfl, colon, first, ps, rfl, hname, hcolon, rfl, hpath⟩
    obtain ⟨l, vs, r, fs, rfl, hl, ⟨n, hn, hfs⟩, hr, rfl⟩ := hbody _ rfl
    exact ⟨_, rfl, n, hn, .mk hnext hname hcolon hpath hl hfs hr⟩
  · rintro hnone _ _ _ _ ⟨h, rfl, _⟩
    exact absurd hnone (by simp)

/-- What a bound on the number of tokens says behind some that were taken. -/
theorem bounded_of_taken {tokens ts rest : List Token} {bound : Nat} (h : tokens = ts ++ rest)
    (hpos : 0 < ts.length) (hbound : tokens.length < bound + 1) (hkinds : ∀ t ∈ tokens, t.kind ≠ .endOfInput) :
    rest.length < bound ∧ ∀ t ∈ rest, t.kind ≠ .endOfInput := by
  rw [h, List.length_append] at hbound
  exact ⟨by omega, fun t ht => hkinds t (h ▸ List.mem_append_right ts ht)⟩

/-- With a bound that exceeds their number, all tokens of a unit are taken. -/
theorem takes_unit (bound : Nat) (read : ParsedUnit) (s : ParserState) :
    TakesAt s (unit bound read) fun ts u =>
      s.tokens.length < bound → (∀ t ∈ s.tokens, t.kind ≠ .endOfInput) → ts = s.tokens ∧
        ∃ v, u = read.append v ∧ Within maxNesting IsUnit ts v ∧ (read.plugin.isSome → v.plugin = none) := by
  induction bound generalizing read s with
  | zero => exact takesAt_pure fun h => absurd h (by omega)
  | succ bound ih =>
    rw [unit]
    refine takesAt_peek_bind ?_
    split
    · next hend =>
      refine takesAt_pure fun _ hkinds => ?_
      have hnil : s.tokens = [] := by
        cases htokens : s.tokens with
        | nil => rfl
        | cons t ts =>
          rw [ParserState.next, htokens] at hend
          exact absurd hend (hkinds t (by simp [htokens]))
      exact ⟨hnil.symm, ⟨[], none⟩, (ParsedUnit.append_empty read).symm, ⟨0, Nat.zero_le _, .nil⟩, fun _ => rfl⟩
    · refine (takes_importDecl.orRecover s).bind fun result s₁ => ?_
      cases result with
      | none =>
        refine (ih read s₁).mono ?_
        rintro _ _ _ _ _ ⟨_, h, _⟩
        exact absurd h (by simp)
      | some i =>
        refine (ih { read with imports := read.imports ++ [i] } s₁).mono ?_
        rintro us _ hrest ts hts ⟨_, h, hi⟩ hbound hkinds
        obtain rfl := Option.some.inj h
        obtain ⟨hbound, hkinds⟩ := bounded_of_taken hts hi.length_pos hbound hkinds
        obtain ⟨rfl, v, rfl, ⟨n, hn, hv⟩, hplugin⟩ := hrest hbound hkinds
        refine ⟨hts.symm, { v with imports := i :: v.imports }, ?_, ⟨n, hn, .addImport hi hv⟩, hplugin⟩
        rw [ParsedUnit.append, ParsedUnit.append, List.append_assoc, List.singleton_append]
    · next hnext =>
      refine (takesAt_plugin hnext).bind fun result s₁ => ?_
      split
      · refine (takes_report _ _ s₁).bind fun _ s₂ => (ih read s₂).mono ?_
        rintro _ _ _ _ _ h
        exact h.elim
      · next hplugin =>
        refine (ih { read with plugin := result } s₁).mono ?_
        rintro us _ hrest ts hts ⟨p, rfl, m, hm, hp⟩ hbound hkinds
        obtain ⟨hbound, hkinds⟩ := bounded_of_taken hts hp.length_pos hbound hkinds
        obtain ⟨rfl, v, rfl, ⟨n, hn, hv⟩, hnone⟩ := hrest hbound hkinds
        refine ⟨hts.symm, { v with plugin := some p }, ?_, ⟨max m n, by omega, .addPlugin hp hv (hnone rfl)⟩,
          fun h => absurd h hplugin⟩
        rw [ParsedUnit.append, ParsedUnit.append, Option.not_isSome_iff_eq_none.1 hplugin, hnone rfl]
        rfl
    · refine (takes_reportExpected _ s).bind fun _ s₁ => ?_
      refine (takes_advance s₁).bind fun _ s₂ => ?_
      refine (takes_skipTo _ s₂).bind fun _ s₃ => (ih read s₃).mono ?_
      rintro _ _ _ _ _ _ _ _ _ _ _ h
      exact h.elim

end Parser
end PluginSandbox
