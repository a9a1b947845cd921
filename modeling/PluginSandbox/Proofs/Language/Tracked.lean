import PluginSandbox.Proofs.Language.Lexed
import PluginSandbox.Proofs.Language.Returning

/-!
# Routines against parsers

Every routine does what the parser of the same name does with the levels that are left.  There is one lemma for each
routine, in the order in which they call each other; a routine that takes a level is compared by induction on the
levels that are left, as the parsers are defined, and a loop by what each of its turns reads (`endsAt_loop`), as the
tokens that are left bound the loop of the parser.  In front of a word that begins something, a routine reads at least
that word, even if it fails; where it fails without having read anything, recovery goes on.

`unit_returns` puts this together: all of a text is read, in a bounded number of calls inside each other, and every
call gives back the levels that were taken in it.
-/

namespace PluginSandbox.Routine

open PluginSandbox.Parser Run RoutineState

variable {depth calls levels : Nat}

/-! ## Expressions -/

theorem endsAt_moreArgs {arg : Parser Expr} (harg : Tracks .expr levels arg) (hdepth : depth + levels = maxNesting)
    (hcalls : calls + (moreArgs []).height levels ≤ maxCalls) (bound : Nat) (read : List Expr) (s : RoutineState)
    (hs : s.Within depth calls) (hbound : s.tokens.length < bound) :
    EndsAt s (fun bound => perform bound (.moreArgs read)) (Parser.moreArgs arg bound read) (Within depth calls) := by
  refine endsAt_loop (r := .moreArgs) (fun _ => rfl) (fun bound read s hs hagain => endsAt_before ?_) bound read s hs
    hbound
  refine (harg s hdepth hcalls hs).bind fun e s₁ he hs₁ => ?_
  refine (endsAt_lift (drops_eat .comma) hs₁).bind fun eaten s₂ heaten hs₂ => ?_
  refine endsAt_ite (fun htrue => ?_) fun _ => endsAt_pure hs₂
  have hlength := heaten.length_lt hs₁ (reads_eat (by simp)) (by simp [htrue])
  exact hagain _ s₂ hs₂ (Nat.lt_of_lt_of_le hlength he.suffix.length_le)

theorem tracks_args {arg : Parser Expr} (harg : Tracks .expr levels arg) : Tracks .args levels (Parser.args arg) := by
  refine tracks_of_body rfl fun s depth calls hdepth hcalls hs => ?_
  refine (endsAt_lift (drops_expect _) hs).bind fun _ s₁ _ hs₁ => endsAt_check_bind ?_
  refine endsAt_ite (fun _ => ?_) fun _ => endsAt_remaining ?_
  · exact (endsAt_pure hs₁).bind fun es s₂ _ hs₂ => endsAt_closed hs₂
  · have hmore := endsAt_moreArgs harg hdepth (by simp only [height] at hcalls ⊢; omega) _ [] s₁ hs₁
      (Nat.lt_succ_self _)
    exact hmore.bind fun es s₂ _ hs₂ => endsAt_closed hs₂

theorem tracks_primary {nested : Parser Expr} (hnested : Tracks .expr levels nested) :
    Tracks .primary levels (Parser.primary nested) := by
  refine tracks_of_body rfl fun s depth calls hdepth hcalls hs => endsAt_peek_bind ?_
  simp only [height] at hcalls
  cases s.next.kind with
  | integer value | stringLiteral | trueWord | falseWord =>
    exact endsAt_advance_bind hs fun s₁ hs₁ _ _ => endsAt_pure hs₁
  | openParen =>
    refine endsAt_advance_bind hs fun s₁ hs₁ _ _ => ?_
    refine (hnested s₁ hdepth (by simp only [height]; omega) hs₁).bind fun inner s₂ _ hs₂ => ?_
    exact endsAt_closed hs₂
  | identifier =>
    have hargs : ∀ s : RoutineState, s.Within depth calls →
        EndsAt s (fun bound => perform bound .args) (Parser.args nested) (Within depth calls) :=
      fun s hs => tracks_args hnested s hdepth (by simp only [height]; omega) hs
    refine endsAt_advance_bind hs fun s₁ hs₁ _ _ => endsAt_check_bind ?_
    refine endsAt_ite (fun _ => ?_) fun _ => ?_
    · exact (hargs s₁ hs₁).bind fun es s₂ _ hs₂ => endsAt_pure hs₂
    · refine (endsAt_lift (drops_eat _) hs₁).bind fun eaten s₂ _ hs₂ => ?_
      refine endsAt_ite (fun _ => ?_) fun _ => endsAt_pure hs₂
      refine (endsAt_lift (drops_expect _) hs₂).bind fun method s₃ _ hs₃ => ?_
      exact (hargs s₃ hs₃).bind fun es s₄ _ hs₄ => endsAt_pure hs₄
  | _ => exact endsAt_lift (drops_failExpected _) hs

section
variable {nested : Nat → Parser Expr} {most : Nat} (hnested : ∀ levels ≤ most, Tracks .expr levels (nested levels))
include hnested

theorem tracks_unary (hlevels : levels ≤ most) : Tracks .unary levels (Parser.unary nested levels) := by
  induction levels with
  | zero =>
    refine tracks_of_body rfl fun s depth calls hdepth hcalls hs => ?_
    rw [Parser.unary]
    refine endsAt_peek_bind ?_
    cases unaryOperator? s.next.kind with
    | none => exact tracks_primary (hnested 0 hlevels) s hdepth (by simp only [height] at hcalls ⊢; omega) hs
    | some apply =>
      refine endsAt_advance_bind hs fun s₁ hs₁ _ _ => ?_
      exact .congr ((endsAt_nested_tooDeep hs₁ hdepth).bind fun operand s₂ _ hs₂ => endsAt_pure hs₂) rfl
  | succ levels ih =>
    refine tracks_of_body rfl fun s depth calls hdepth hcalls hs => ?_
    rw [Parser.unary]
    refine endsAt_peek_bind ?_
    cases unaryOperator? s.next.kind with
    | none =>
      exact tracks_primary (hnested (levels + 1) hlevels) s hdepth (by simp only [height] at hcalls ⊢; omega) hs
    | some apply =>
      refine endsAt_advance_bind hs fun s₁ hs₁ _ _ => ?_
      have hunary := (ih (Nat.le_of_succ_le hlevels)).nested hdepth (by simp only [height] at hcalls ⊢; omega) hs₁
      exact hunary.bind fun operand s₂ _ hs₂ => endsAt_pure hs₂

end

/-- The operators of a chain keep the levels that they take, so there may be more of them taken behind the chain than
in front of it.  The caller gives them back. -/
theorem endsAt_operators {tier : Nat} {operand : Nat → Parser Expr} {most : Nat}
    (hoperand : ∀ levels ≤ most, Tracks (.tier tier) levels (operand levels)) (hlevels : levels ≤ most)
    (left : Expr) (s : RoutineState) {depth : Nat} (hdepth : depth + levels = maxNesting)
    (hcalls : calls + (Routine.tier tier).height most ≤ maxCalls) (hs : s.Within depth calls) :
    EndsAt s (fun bound => perform bound (.operators tier left))
      (chainTail (operatorsOf (tier + 1)) operand levels left) fun s' => ∃ depth', s'.Within depth' calls := by
  induction levels generalizing left s depth with
  | zero =>
    refine endsAt_turn rfl ?_
    rw [chainTail]
    refine endsAt_peek_bind ?_
    cases operatorsOf (tier + 1) s.next.kind with
    | none => exact endsAt_pure ⟨depth, hs⟩
    | some join => exact endsAt_before ((endsAt_enter_tooDeep hs hdepth).mono fun _ _ hs' => ⟨depth, hs'⟩)
  | succ levels ih =>
    refine endsAt_turn rfl ?_
    rw [chainTail]
    refine endsAt_peek_bind ?_
    cases hjoin : operatorsOf (tier + 1) s.next.kind with
    | none => exact endsAt_pure ⟨depth, hs⟩
    | some join =>
      have hnext : s.next.kind ≠ .endOfInput := by
        intro hend
        rw [hend] at hjoin
        cases operatorsOf_eq_some.1 hjoin
      have hdeeper : depth < maxNesting := by omega
      refine endsAt_before (endsAt_enter_bind hs hdeeper ?_)
      refine endsAt_advance_bind (hs.deeper hdeeper) fun s₁ hs₁ _ hread => ?_
      have hright := hoperand levels (by omega) s₁ (by omega) (by simp only [height] at hcalls ⊢; omega) hs₁
      refine hright.andThen (fun right s₂ hret hs₂ => ?_) fun _ _ hs₂ => ⟨_, hs₂⟩
      have hlength := hret.suffix.length_le
      have hlength' : s₁.tokens.length < s.tokens.length := hread hnext
      exact .next (by omega) (ih (by omega) _ s₂ (by omega) hs₂)

section
variable {nested : Nat → Parser Expr} {most : Nat} (hnested : ∀ levels ≤ most, Tracks .expr levels (nested levels))
include hnested

theorem tracks_tier (tier : Nat) (hlevels : levels ≤ most) :
    Tracks (.tier tier) levels (atTier nested tier levels) := by
  induction tier generalizing levels with
  | zero =>
    refine tracks_of_body rfl fun s depth calls hdepth hcalls hs => ?_
    exact tracks_unary hnested hlevels s hdepth (by simp only [height] at hcalls ⊢; omega) hs
  | succ tier ih =>
    refine tracks_of_body rfl fun s depth calls hdepth hcalls hs => .guarded hs ?_
    have hcalls' : calls + (Routine.tier tier).height levels ≤ maxCalls := by
      simp only [height] at hcalls ⊢
      omega
    refine (ih hlevels s hdepth hcalls' hs).andThen (fun first s₁ _ hs₁ => ?_) fun _ _ hs₁ => ⟨_, hs₁⟩
    exact endsAt_operators (fun levels' hlevels' => ih (Nat.le_trans hlevels' hlevels)) (Nat.le_refl levels) first s₁
      hdepth hcalls' hs₁

end

theorem tracks_exprAt {bound : Nat} (hlevels : levels ≤ bound) : Tracks .expr levels (exprAt bound levels) := by
  have hdeep : Tracks .expr 0 (failTooDeep : Parser Expr) :=
    tracks_of_body rfl fun s depth calls hdepth _ hs => endsAt_nested_tooDeep hs hdepth
  induction bound generalizing levels with
  | zero =>
    obtain rfl := Nat.le_zero.1 hlevels
    exact hdeep
  | succ bound ih =>
    cases levels with
    | zero => exact hdeep
    | succ levels =>
      refine tracks_of_body rfl fun s depth calls hdepth hcalls hs => ?_
      have hnested : ∀ levels ≤ bound, Tracks .expr levels (exprAt bound levels) := fun levels => ih
      have htier := tracks_tier hnested Grammar.loosest (Nat.le_of_succ_le_succ hlevels)
      exact htier.nested hdepth (by simp only [height, Grammar.loosest] at hcalls ⊢; omega) hs

theorem tracks_expr (levels : Nat) : Tracks .expr levels (Parser.expr levels) :=
  tracks_exprAt (Nat.le_refl levels)

/-! ## Statements -/

/-- A turn of the loop either reads a statement, which has tokens, or skips something, as it is neither at the end of
the block nor at that of the input. -/
theorem endsAt_statements {statement : Parser Stmt} (hstatement : Tracks .stmt levels statement)
    (hreads : Reads statement fun _ n => 0 < n) (hdepth : depth + levels = maxNesting)
    (hcalls : calls + stmt.height levels ≤ maxCalls) (bound : Nat) (read : List Stmt) (s : RoutineState)
    (hs : s.Within depth calls) (hbound : s.tokens.length < bound) :
    EndsAt s (fun bound => perform bound (.statements read)) (Parser.statements statement bound read)
      (Within depth calls) := by
  refine endsAt_loop (r := .statements) (fun _ => rfl) (fun bound read s hs hagain => endsAt_before ?_) bound read s hs
    hbound
  rw [Parser.statements]
  refine endsAt_peek_bind ?_
  have hstmt := hstatement s hdepth hcalls hs
  cases hkind : s.next.kind with
  | closeBrace | endOfInput => exact endsAt_pure hs
  | _ =>
    refine endsAt_recovering hstmt hs hreads (by simp [hkind]) (by simp [hkind]) fun result s₁ hs₁ hlength => ?_
    cases result with
    | some x => exact hagain _ s₁ hs₁ hlength
    | none => exact hagain _ s₁ hs₁ hlength

theorem tracks_block {statement : Parser Stmt} (hstatement : Tracks .stmt levels statement)
    (hreads : Reads statement fun _ n => 0 < n) : Tracks .block levels (Parser.block statement) := by
  refine tracks_of_body rfl fun s depth calls hdepth hcalls hs => ?_
  refine (endsAt_lift (drops_expect _) hs).attempt.bind fun result s₁ _ hs₁ => ?_
  cases result with
  | none => exact endsAt_pure hs₁
  | some _ =>
    refine endsAt_remaining ?_
    have hbody := endsAt_statements hstatement hreads hdepth (by simp only [height] at hcalls ⊢; omega) _ [] s₁ hs₁
      (Nat.lt_succ_self _)
    refine hbody.bind fun body s₂ _ hs₂ => ?_
    exact (endsAt_lift (drops_expect _) hs₂).attempt.bind fun _ s₃ _ hs₃ => endsAt_pure hs₃

theorem endsAt_requiredBlock {s : RoutineState} {t : Nat → Run (List Stmt)} {body : Parser (List Stmt)}
    (hs : s.Within depth calls) (h : EndsAt s t body (Within depth calls)) :
    EndsAt s (fun bound => Run.requiredBlock (t bound)) (Parser.requiredBlock body) (Within depth calls) :=
  endsAt_check_bind (endsAt_ite (fun _ => h) fun _ => endsAt_lift (drops_failExpected _) hs)

/-- A branch, given how the branch behind `else` is read. -/
theorem endsAt_branchOf {body : Parser (List Stmt)} (hbody : Tracks .block levels body) {t : Nat → Run Stmt}
    {elseIf : Parser Stmt} (helseIf : ∀ s : RoutineState, s.Within depth calls → EndsAt s t elseIf (Within depth calls))
    (hdepth : depth + levels = maxNesting) (hcalls : calls + block.height levels ≤ maxCalls) {s : RoutineState}
    (hs : s.Within depth calls) :
    EndsAt s (fun bound => do
      let _ ← lift advance
      let c ← perform bound .expr
      let thenBody ← Run.requiredBlock (perform bound .block)
      if ← lift (eat .elseWord) then
        if ← lift (check .ifWord) then
          let s ← t bound
          return Stmt.branch c thenBody (some [s])
        else if ← lift (check .openBrace) then
          let elseBody ← perform bound .block
          return Stmt.branch c thenBody (some elseBody)
        else lift (failExpected "`\x7b` or `if`")
      else return Stmt.branch c thenBody none) (branchOf (Parser.expr levels) body elseIf) (Within depth calls) := by
  have hblock := fun (s : RoutineState) (hs : s.Within depth calls) => hbody s hdepth hcalls hs
  refine endsAt_advance_bind hs fun s₁ hs₁ _ _ => ?_
  refine (tracks_expr levels s₁ hdepth (by simp only [height] at hcalls ⊢; omega) hs₁).bind fun c s₂ _ hs₂ => ?_
  refine (endsAt_requiredBlock hs₂ (hblock s₂ hs₂)).bind fun thenBody s₃ _ hs₃ => ?_
  refine (endsAt_lift (drops_eat _) hs₃).bind fun eaten s₄ _ hs₄ => ?_
  refine endsAt_ite (fun _ => endsAt_check_bind ?_) fun _ => endsAt_pure hs₄
  refine endsAt_ite (fun _ => ?_) fun _ => endsAt_check_bind ?_
  · exact (helseIf s₄ hs₄).bind fun x s₅ _ hs₅ => endsAt_pure hs₅
  · refine endsAt_ite (fun _ => ?_) fun _ => endsAt_lift (drops_failExpected _) hs₄
    exact (hblock s₄ hs₄).bind fun elseBody s₅ _ hs₅ => endsAt_pure hs₅

theorem tracks_branch {body : Nat → Parser (List Stmt)} {most : Nat}
    (hbody : ∀ levels ≤ most, Tracks .block levels (body levels)) (hlevels : levels ≤ most) :
    Tracks .branch levels (Parser.branch body levels) := by
  induction levels with
  | zero =>
    refine tracks_of_body rfl fun s depth calls hdepth hcalls hs => ?_
    exact endsAt_branchOf (hbody 0 hlevels) (fun s hs => endsAt_nested_tooDeep hs hdepth) hdepth
      (by simp only [height] at hcalls ⊢; omega) hs
  | succ levels ih =>
    refine tracks_of_body rfl fun s depth calls hdepth hcalls hs => ?_
    exact endsAt_branchOf (hbody (levels + 1) hlevels)
      (fun s hs => (ih (Nat.le_of_succ_le hlevels)).nested hdepth (by simp only [height] at hcalls ⊢; omega) hs) hdepth
      (by simp only [height] at hcalls ⊢; omega) hs

/-- A statement that ends with an expression and a semicolon. -/
theorem endsAt_ended (make : Expr → Stmt) (hdepth : depth + levels = maxNesting)
    (hcalls : calls + expr.height levels ≤ maxCalls) {s : RoutineState} (hs : s.Within depth calls) :
    EndsAt s (fun bound => do
      let value ← perform bound .expr
      let _ ← lift (expect .semicolon)
      return make value) (do
      let value ← Parser.expr levels
      let _ ← expect .semicolon
      return make value) (Within depth calls) :=
  (tracks_expr levels s hdepth hcalls hs).bind fun _ _ _ hs₁ => endsAt_closed hs₁

theorem tracks_statement {nested : Nat → Parser Stmt} {most : Nat}
    (hnested : ∀ levels ≤ most, Tracks .stmt levels (nested levels))
    (hreads : ∀ levels, Reads (nested levels) fun _ n => 0 < n) (hlevels : levels ≤ most) :
    Tracks .statement levels (Parser.statement nested levels) := by
  refine tracks_of_body rfl fun s depth calls hdepth hcalls hs => endsAt_peek_bind ?_
  simp only [height] at hcalls
  have hexpr : calls + expr.height levels ≤ maxCalls := by simp only [height]; omega
  have hblock : ∀ levels ≤ most, Tracks .block levels (Parser.block (nested levels)) :=
    fun levels hlevels => tracks_block (hnested levels hlevels) (hreads levels)
  have hdefault : EndsAt s (fun bound => do
      if s.next.kind == .identifier && (← lift peekSecond) == .assign then
        let _ ← lift advance
        let _ ← lift advance
        let value ← perform bound .expr
        let _ ← lift (expect .semicolon)
        return Stmt.assign s.next.text value s.next.position
      else
        let value ← perform bound .expr
        let _ ← lift (expect .semicolon)
        return .expr value) (do
      if s.next.kind == .identifier && (← peekSecond) == .assign then
        let _ ← advance
        let _ ← advance
        let value ← Parser.expr levels
        let _ ← expect .semicolon
        return Stmt.assign s.next.text value s.next.position
      else
        let value ← Parser.expr levels
        let _ ← expect .semicolon
        return .expr value) (Within depth calls) := by
    refine endsAt_peekSecond_bind (endsAt_ite (fun _ => ?_) fun _ => endsAt_ended .expr hdepth hexpr hs)
    refine endsAt_advance_bind hs fun s₁ hs₁ _ _ => endsAt_advance_bind hs₁ fun s₂ hs₂ _ _ => ?_
    exact endsAt_ended (.assign s.next.text · s.next.position) hdepth hexpr hs₂
  generalize s.next.kind = kind at hdefault
  cases kind with
  | letWord =>
    refine endsAt_advance_bind hs fun s₁ hs₁ _ _ => ?_
    refine (endsAt_lift (drops_expect _) hs₁).bind fun name s₂ _ hs₂ => ?_
    refine (endsAt_lift (drops_expect _) hs₂).bind fun _ s₃ _ hs₃ => ?_
    exact endsAt_ended (.declare name.text · s.next.position) hdepth hexpr hs₃
  | ifWord => exact tracks_branch hblock hlevels s hdepth (by simp only [height]; omega) hs
  | whileWord =>
    refine endsAt_advance_bind hs fun s₁ hs₁ _ _ => ?_
    refine (tracks_expr levels s₁ hdepth hexpr hs₁).bind fun condition s₂ _ hs₂ => ?_
    have hbody := hblock levels hlevels s₂ hdepth (by simp only [height]; omega) hs₂
    exact (endsAt_requiredBlock hs₂ hbody).bind fun body s₃ _ hs₃ => endsAt_pure hs₃
  | returnWord =>
    refine endsAt_advance_bind hs fun s₁ hs₁ _ _ => endsAt_check_bind (endsAt_ite (fun _ => ?_) fun _ => ?_)
    · exact (endsAt_pure hs₁).bind fun value s₂ _ hs₂ => endsAt_closed hs₂
    · have hvalue : EndsAt s₁ (fun bound => some <$> perform bound .expr) (some <$> Parser.expr levels)
          (Within depth calls) :=
        (tracks_expr levels s₁ hdepth hexpr hs₁).bind fun _ _ _ hs₂ => endsAt_pure hs₂
      exact hvalue.bind fun value s₂ _ hs₂ => endsAt_closed hs₂
  | _ => exact hdefault

theorem reads_stmtAt_pos (bound levels : Nat) : Reads (stmtAt bound levels) fun _ n => 0 < n :=
  fun s => (reads_stmtAt bound levels s).mono fun x _ h => Nat.lt_of_lt_of_le x.size_pos h.1

theorem tracks_stmtAt {bound : Nat} (hlevels : levels ≤ bound) : Tracks .stmt levels (stmtAt bound levels) := by
  have hdeep : Tracks .stmt 0 (failTooDeep : Parser Stmt) :=
    tracks_of_body rfl fun s depth calls hdepth _ hs => endsAt_nested_tooDeep hs hdepth
  induction bound generalizing levels with
  | zero =>
    obtain rfl := Nat.le_zero.1 hlevels
    exact hdeep
  | succ bound ih =>
    cases levels with
    | zero => exact hdeep
    | succ levels =>
      refine tracks_of_body rfl fun s depth calls hdepth hcalls hs => ?_
      have hnested : ∀ levels ≤ bound, Tracks .stmt levels (stmtAt bound levels) := fun levels => ih
      have hstatement := tracks_statement hnested (reads_stmtAt_pos bound) (Nat.le_of_succ_le_succ hlevels)
      exact hstatement.nested hdepth (by simp only [height] at hcalls ⊢; omega) hs

theorem tracks_stmt (levels : Nat) : Tracks .stmt levels (Parser.stmt levels) :=
  tracks_stmtAt (Nat.le_refl levels)

/-! ## Units -/

theorem endsAt_moreSegments (bound : Nat) (read : List String) (s : RoutineState) (hs : s.Within depth calls)
    (hbound : s.tokens.length < bound) :
    EndsAt s (fun bound => perform bound (.moreSegments read)) (Parser.moreSegments bound read)
      (Within depth calls) := by
  refine endsAt_loop (r := .moreSegments) (fun _ => rfl) (fun bound read s hs hagain => endsAt_before ?_) bound read s
    hs hbound
  refine (endsAt_lift (drops_eat .dot) hs).bind fun eaten s₁ heaten hs₁ => ?_
  refine endsAt_ite (fun htrue => ?_) fun _ => endsAt_pure hs₁
  have hlength := heaten.length_lt hs (reads_eat (by simp)) (by simp [htrue])
  refine (endsAt_lift (drops_expect _) hs₁).bind fun t s₂ ht hs₂ => ?_
  exact hagain _ s₂ hs₂ (Nat.lt_of_le_of_lt ht.suffix.length_le hlength)

theorem tracks_path (levels : Nat) : Tracks .path levels Parser.path := by
  refine tracks_of_body rfl fun s depth calls _ _ hs => ?_
  refine (endsAt_lift (drops_expect _) hs).bind fun first s₁ _ hs₁ => endsAt_remaining ?_
  exact endsAt_moreSegments _ _ s₁ hs₁ (Nat.lt_succ_self _)

theorem tracks_importDecl (levels : Nat) : Tracks .importDecl levels Parser.importDecl := by
  refine tracks_of_body rfl fun s depth calls hdepth hcalls hs => ?_
  refine (endsAt_lift (drops_expect _) hs).bind fun start s₁ _ hs₁ => ?_
  have hpath := tracks_path levels s₁ hdepth (by simp only [height] at hcalls ⊢; omega) hs₁
  refine hpath.bind fun segments s₂ _ hs₂ => ?_
  refine endsAt_ite (fun _ => ?_) fun _ => endsAt_closed hs₂
  refine (endsAt_lift (drops_report _ _) hs₂).bind fun _ s₃ _ hs₃ => ?_
  exact (endsAt_lift drops_fail hs₃).bind fun _ s₄ _ hs₄ => endsAt_closed hs₄

theorem endsAt_moreParams (bound : Nat) (read : List (String × Position)) (s : RoutineState)
    (hs : s.Within depth calls) (hbound : s.tokens.length < bound) :
    EndsAt s (fun bound => perform bound (.moreParams read)) (Parser.moreParams bound read) (Within depth calls) := by
  refine endsAt_loop (r := .moreParams) (fun _ => rfl) (fun bound read s hs hagain => endsAt_before ?_) bound read s hs
    hbound
  refine (endsAt_lift (drops_expect _) hs).bind fun t s₁ ht hs₁ => ?_
  refine (endsAt_lift (drops_eat .comma) hs₁).bind fun eaten s₂ heaten hs₂ => ?_
  refine endsAt_ite (fun htrue => ?_) fun _ => endsAt_pure hs₂
  have hlength := heaten.length_lt hs₁ (reads_eat (by simp)) (by simp [htrue])
  exact hagain _ s₂ hs₂ (Nat.lt_of_lt_of_le hlength ht.suffix.length_le)

/-- A token that stands where nothing may begin is an error, and is skipped with what follows it. -/
theorem endsAt_stray {α : Type} {t : Nat → Run α} {p : Parser α} {Q : RoutineState → Prop} {s : RoutineState}
    (expected : String) (test : TokenKind → Bool) (hs : s.Within depth calls) (hnext : s.next.kind ≠ .endOfInput)
    (h : ∀ s' : RoutineState, s'.Within depth calls → s'.tokens.length < s.tokens.length →
      EndsAt s' t p Q) :
    EndsAt s (fun bound => do
      lift (reportExpected expected)
      let _ ← lift advance
      lift (skipTo test)
      t bound) (do
      reportExpected expected
      let _ ← advance
      skipTo test
      p) Q := by
  refine (endsAt_lift (drops_reportExpected _) hs).after (succeeds_reportExpected _) fun _ s₁ hret hs₁ => ?_
  have hstate : _ = s₁.toParserState := (Prod.mk.inj hret.eq).2
  have htokens : s₁.tokens = s.tokens := by rw [← hstate]
  have hsame : s₁.next = s.next := by rw [← hstate]; rfl
  refine endsAt_advance_bind hs₁ fun s₂ hs₂ _ hread => ?_
  refine (endsAt_lift (drops_skipTo _) hs₂).after (succeeds_skipTo _) fun _ s₃ hskip hs₃ => ?_
  have hlength := hread (hsame ▸ hnext)
  have hlength' := hskip.suffix.length_le
  rw [htokens] at hlength
  exact h s₃ hs₃ (by omega)

/-- The word that a function begins with is read in any case. -/
theorem endsAt_function (hdepth : depth + maxNesting = maxNesting)
    (hcalls : calls + function.height maxNesting ≤ maxCalls) {s : RoutineState} (hs : s.Within depth calls) :
    EndsAt s (fun bound => perform bound .function) Parser.function fun s' => s'.Within depth calls ∧
      (s.next.kind ≠ .endOfInput → s'.tokens.length < s.tokens.length) := by
  simp only [height] at hcalls
  refine endsAt_call_advance rfl (fun _ => rfl) hs (by omega) fun _ s₁ hs₁ => ?_
  have hheader : EndsAt s₁ (fun bound => do
      let name ← lift (expect .identifier)
      let _ ← lift (expect .openParen)
      let params ← if ← lift (check .closeParen) then pure [] else perform bound (.moreParams [])
      let _ ← lift (expect .closeParen)
      return (name, params)) functionHeader (Within depth (calls + 1)) := by
    refine (endsAt_lift (drops_expect _) hs₁).bind fun name s₂ _ hs₂ => ?_
    refine (endsAt_lift (drops_expect _) hs₂).bind fun _ s₃ _ hs₃ => endsAt_check_bind ?_
    refine endsAt_ite (fun _ => ?_) fun _ => endsAt_remaining ?_
    · exact (endsAt_pure hs₃).bind fun params s₄ _ hs₄ => endsAt_closed hs₄
    · exact (endsAt_moreParams _ [] s₃ hs₃ (Nat.lt_succ_self _)).bind fun params s₄ _ hs₄ => endsAt_closed hs₄
  refine hheader.attempt.bind fun header s₂ _ hs₂ => ?_
  refine endsAt_skip_bind (drops_skipTo _) hs₂ (fun s₃ hs₃ => endsAt_check_bind ?_) fun _ h => h
  refine endsAt_ite (fun _ => ?_) fun _ => ?_
  · have hblock := tracks_block (tracks_stmt maxNesting) (reads_stmtAt_pos _ _)
    exact (hblock s₃ hdepth (by simp only [height]; omega) hs₃).bind fun body s₄ _ hs₄ => endsAt_pure hs₄
  · refine endsAt_skip_bind (drops_reportExpected _) hs₃ (fun s₄ hs₄ => ?_) fun _ h => h
    exact (endsAt_pure hs₄).bind fun body s₅ _ hs₅ => endsAt_pure hs₅

theorem endsAt_functions (hdepth : depth + maxNesting = maxNesting)
    (hcalls : calls + function.height maxNesting ≤ maxCalls) (bound : Nat) (read : List FunctionDecl)
    (s : RoutineState) (hs : s.Within depth calls) (hbound : s.tokens.length < bound) :
    EndsAt s (fun bound => perform bound (.functions read)) (Parser.functions bound read) (Within depth calls) := by
  refine endsAt_loop (r := .functions) (fun _ => rfl) (fun bound read s hs hagain => endsAt_before ?_) bound read s hs
    hbound
  rw [Parser.functions]
  refine endsAt_peek_bind ?_
  cases hkind : s.next.kind with
  | closeBrace | endOfInput => exact endsAt_pure hs
  | fnWord =>
    refine (endsAt_function hdepth hcalls hs).after succeeds_function fun result s₁ _ hs₁ => ?_
    have hlength := hs₁.2 (by simp [hkind])
    cases result with
    | some f => exact hagain _ s₁ hs₁.1 hlength
    | none => exact hagain _ s₁ hs₁.1 hlength
  | _ => exact endsAt_stray _ _ hs (by simp [hkind]) (hagain read)

/-- The word that a plugin begins with is read in any case. -/
theorem endsAt_plugin (hdepth : depth + maxNesting = maxNesting)
    (hcalls : calls + plugin.height maxNesting ≤ maxCalls) {s : RoutineState} (hs : s.Within depth calls) :
    EndsAt s (fun bound => perform bound .plugin) Parser.plugin fun s' => s'.Within depth calls ∧
      (s.next.kind ≠ .endOfInput → s'.tokens.length < s.tokens.length) := by
  simp only [height] at hcalls
  refine endsAt_call_advance rfl (fun _ => rfl) hs (by omega) fun _ s₁ hs₁ => ?_
  have hheader : EndsAt s₁ (fun bound => do
      let name ← lift (expect .identifier)
      let _ ← lift (expect .colon)
      let position := (← lift peek).position
      let supertype ← perform bound .path
      return (name, position, supertype)) pluginHeader (Within depth (calls + 1)) := by
    refine (endsAt_lift (drops_expect _) hs₁).bind fun name s₂ _ hs₂ => ?_
    refine (endsAt_lift (drops_expect _) hs₂).bind fun _ s₃ _ hs₃ => endsAt_peek_bind ?_
    have hpath := tracks_path maxNesting s₃ hdepth (by simp only [height]; omega) hs₃
    exact hpath.bind fun supertype s₄ _ hs₄ => endsAt_pure hs₄
  refine hheader.attempt.bind fun header s₂ _ hs₂ => ?_
  refine endsAt_skip_bind (drops_skipTo _) hs₂ (fun s₃ hs₃ => ?_) fun _ h => h
  refine (endsAt_lift (drops_expect _) hs₃).attempt.bind fun result s₄ _ hs₄ => ?_
  cases result with
  | none => exact endsAt_pure hs₄
  | some _ =>
    refine endsAt_remaining ?_
    have hfunctions := endsAt_functions hdepth (by simp only [height]; omega) _ [] s₄ hs₄ (Nat.lt_succ_self _)
    refine hfunctions.bind fun fs s₅ _ hs₅ => ?_
    exact (endsAt_lift (drops_expect _) hs₅).attempt.bind fun _ s₆ _ hs₆ => endsAt_pure hs₆

theorem endsAt_units (hdepth : depth + maxNesting = maxNesting) (hcalls : calls + plugin.height maxNesting ≤ maxCalls)
    (bound : Nat) (read : ParsedUnit) (s : RoutineState) (hs : s.Within depth calls)
    (hbound : s.tokens.length < bound) :
    EndsAt s (fun bound => perform bound (.units read)) (Parser.unit bound read) fun s' =>
      s'.Within depth calls ∧ s'.tokens = [] := by
  refine endsAt_loop (r := .units) (fun _ => rfl) (fun bound read s hs hagain => endsAt_before ?_) bound read s hs
    hbound
  rw [Parser.unit]
  refine endsAt_peek_bind ?_
  cases hkind : s.next.kind with
  | endOfInput => exact endsAt_pure ⟨hs, hs.tokens_eq_nil hkind⟩
  | importWord =>
    have himport := tracks_importDecl maxNesting s hdepth (by simp only [height] at hcalls ⊢; omega) hs
    refine endsAt_recovering himport hs reads_importDecl (by simp [hkind]) (by simp [hkind])
      fun result s₁ hs₁ hlength => ?_
    cases result with
    | some i => exact hagain _ s₁ hs₁ hlength
    | none => exact hagain _ s₁ hs₁ hlength
  | pluginWord =>
    refine (endsAt_plugin hdepth hcalls hs).after succeeds_plugin fun p s₁ _ hs₁ => ?_
    have hlength := hs₁.2 (by simp [hkind])
    refine endsAt_ite (fun _ => ?_) fun _ => hagain _ s₁ hs₁.1 hlength
    refine (endsAt_lift (drops_report _ _) hs₁.1).after (succeeds_report _ _) fun _ s₂ hret hs₂ => ?_
    exact hagain _ s₂ hs₂ (Nat.lt_of_le_of_lt hret.suffix.length_le hlength)
  | _ => exact endsAt_stray _ _ hs (by simp [hkind]) (hagain read)

/-- All of a text is read. -/
theorem endsAt_unit {bound : Nat} {s : RoutineState} (hdepth : depth + maxNesting = maxNesting)
    (hcalls : calls + unit.height maxNesting ≤ maxCalls) (hs : s.Within depth calls)
    (hbound : s.tokens.length < bound) :
    EndsAt s (fun bound => perform bound .unit) (Parser.unit bound ⟨[], none⟩) fun s' =>
      s'.Within depth calls ∧ s'.tokens = [] := by
  simp only [height] at hcalls
  refine endsAt_call (R := (· = [])) rfl hs ?_
  exact endsAt_units hdepth (by simp only [height]; omega) bound _ s.inCall (hs.inCall (by omega)) hbound

/-- **The parser always returns and cleans up.** Read with a counter of levels and with loops that only end when they
are left, every source text is read to its end: the routines return what the parser gives.  At no time more than
`maxNesting` levels are taken, nor are more than twelve times as many calls inside each other, however long the text
is.  Each turn of a loop reads something or leaves the loop, and every call returns, whether it fails or not, with as
many levels taken as when it was made; so in the end none is. -/
theorem unit_returns (source : String) : ∃ s : RoutineState,
    (∃ least, ∀ bound ≥ least,
      perform bound .unit (.start source) = some (some (ParsedUnit.ofSource source).1, s)) ∧
    (ParsedUnit.ofSource source).2 =
      ((Lexed.ofSource source).errors ++ s.errors.reverse).mergeSort (fun e f => e.position.le f.position) ∧
    s.tokens = [] ∧ s.depth = 0 ∧ s.deepest ≤ maxNesting ∧ s.calls = 0 ∧ s.mostCalls ≤ 12 * maxNesting ∧
    s.idle = false ∧ s.uneven = false := by
  let start := RoutineState.start source
  have hstart : start.Within 0 0 := {
    sound := Lexed.sound_start source
    kinds := fun t ht => (Lexed.names_tokens source t ht).1
    depth_eq := rfl
    deepest_le := Nat.zero_le _
    calls_eq := rfl
    mostCalls_le := Nat.zero_le _
    idle_eq := rfl
    uneven_eq := rfl }
  obtain ⟨s, ⟨least, hreturns⟩, hstate, _, hs, htokens⟩ :=
    endsAt_unit (Nat.zero_add _) (by decide) hstart (Nat.lt_succ_self _)
  have hofSource : ParsedUnit.ofSource source =
      ((Parser.unit (start.tokens.length + 1) ⟨[], none⟩ start.toParserState).1.getD ⟨[], none⟩,
        ((Lexed.ofSource source).errors ++ s.errors.reverse).mergeSort fun e f => e.position.le f.position) := by
    rw [hstate]
    rfl
  obtain ⟨u, hu⟩ :=
    Option.ne_none_iff_exists'.1 (succeeds_unit (start.tokens.length + 1) ⟨[], none⟩ start.toParserState)
  refine ⟨s, ⟨least, fun bound hbound => ?_⟩, ?_, htokens, hs.depth_eq, hs.deepest_le, hs.calls_eq, hs.mostCalls_le,
    hs.idle_eq, hs.uneven_eq⟩
  · rw [hofSource, hu, Option.getD_some, ← hu]
    exact hreturns bound hbound
  · rw [hofSource]

end PluginSandbox.Routine
