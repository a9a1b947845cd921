import Mathlib.Algebra.BigOperators.Group.List.Basic
import PluginSandbox.Proofs.Language.Accepted

/-!
# Recovery behind statements

A chunk is a piece of a block up to a semicolon: no brace, no other semicolon and no end of the input is in it, and
it does not begin with `else`.  In front of a chunk, a parser of a statement either reads the chunk to its end and
records nothing, or fails inside the chunk after recording one error, which points to a token of the chunk
(`StaysAt`, with one lemma for each parser).  As there are no braces in a chunk, recovery then ends behind its
semicolon, where the next statement begins.

So the statements of a block do not depend on what is wrong between them: `block_recovers` says that a block of
statements and malformed chunks is read as its statements, each as it is read alone, with one error for each of the
chunks.
-/

namespace PluginSandbox

/-- The end of an input in which nothing is wrong. -/
def Ending.clean : Ending where
  token := ⟨.endOfInput, "", .first⟩
  errors := []
  kind_eq := rfl

/-- The ending with some more errors recorded, which are given in their order. -/
def Ending.record (z : Ending) (found : List SyntaxError) : Ending :=
  { z with errors := found.reverse ++ z.errors }

theorem Ending.record_record (z : Ending) (found more : List SyntaxError) :
    (z.record found).record more = z.record (found ++ more) := by
  simp only [record, List.reverse_append, List.append_assoc]

/-- Whether a token of a kind may stand in a chunk in front of its semicolon. -/
def TokenKind.isPlain : TokenKind → Bool
  | .openBrace | .closeBrace | .semicolon | .endOfInput => false
  | _ => true

/-- A chunk: some tokens and the semicolon behind them. -/
structure Chunk where
  body : List Token
  semicolon : Token
  plain : ∀ t ∈ body, t.kind.isPlain = true
  begins : kindAt body ≠ .elseWord
  kind_eq : semicolon.kind = .semicolon

namespace Chunk

/-- All tokens of a chunk. -/
def tokens (c : Chunk) : List Token :=
  c.body ++ [c.semicolon]

/-- The tokens are what is left of a chunk and of all that follows it, when some of the chunk has been read but not
its semicolon. -/
def Left (c : Chunk) (rest tokens : List Token) : Prop :=
  ∃ us, us <:+ c.body ∧ tokens = us ++ c.semicolon :: rest

variable {c : Chunk} {rest : List Token} {s : ParserState}

theorem left_tokens (c : Chunk) (rest : List Token) : c.Left rest (c.tokens ++ rest) :=
  ⟨c.body, List.suffix_rfl, by rw [tokens, List.append_assoc, List.singleton_append]⟩

theorem Left.next_mem (h : c.Left rest s.tokens) : s.next ∈ c.tokens := by
  obtain ⟨us, hus, htokens⟩ := h
  rw [ParserState.next, htokens, tokens]
  cases us with
  | nil => exact List.mem_append_right _ (List.mem_singleton_self _)
  | cons t us => exact List.mem_append_left _ (hus.subset List.mem_cons_self)

/-- What is next is the semicolon or may stand in front of it. -/
theorem Left.kind_next (h : c.Left rest s.tokens) : s.next.kind = .semicolon ∨ s.next.kind.isPlain = true := by
  rcases List.mem_append.1 h.next_mem with hbody | hsemicolon
  · exact .inr (c.plain _ hbody)
  · rw [List.mem_singleton.1 hsemicolon]
    exact .inl c.kind_eq

/-- Reading anything but the semicolon stays in front of it. -/
theorem Left.advance (h : c.Left rest s.tokens) (hnext : s.next.kind ≠ .semicolon) : c.Left rest s.rest.tokens := by
  obtain ⟨us, hus, htokens⟩ := h
  rw [ParserState.next, htokens] at hnext
  rw [ParserState.rest, htokens]
  cases us with
  | nil => exact absurd c.kind_eq hnext
  | cons t us => exact ⟨us, (List.suffix_cons t us).trans hus, rfl⟩

/-- Behind the semicolon a chunk has ended. -/
theorem Left.at_end (h : c.Left rest s.tokens) (hnext : s.next.kind = .semicolon) : s.rest.tokens = rest := by
  obtain ⟨us, hus, htokens⟩ := h
  rw [ParserState.next, htokens] at hnext
  rw [ParserState.rest, htokens]
  cases us with
  | nil => rfl
  | cons t us =>
    have hplain := c.plain t (hus.subset List.mem_cons_self)
    rw [show t.kind = .semicolon from hnext] at hplain
    exact absurd hplain (by decide)

/-- Recovery inside a chunk ends behind its semicolon. -/
theorem Left.afterStatement {tokens : List Token} (h : c.Left rest tokens) :
    Parser.afterStatement 0 tokens = rest := by
  obtain ⟨us, hus, rfl⟩ := h
  have hplain : ∀ t ∈ us, t.kind.isPlain = true := fun t ht => c.plain t (hus.subset ht)
  clear hus
  induction us with
  | nil =>
    rw [List.nil_append, Parser.afterStatement.eq_def]
    simp [c.kind_eq]
  | cons t us ih =>
    have ht := hplain t List.mem_cons_self
    rw [List.cons_append, Parser.afterStatement.eq_def]
    cases hkind : t.kind <;> simp_all [TokenKind.isPlain]

end Chunk

namespace Parser

open Grammar

variable {α β : Type} {c : Chunk} {rest : List Token} {s : ParserState} {P Q : List Token → Prop}

/-! ## What a parser does inside a chunk -/

/-- An error is at one of some tokens. -/
def LocatedIn (ts : List Token) (e : SyntaxError) : Prop :=
  ∃ t ∈ ts, e.position = t.position

/-- At a state, a parser either records nothing and something holds of the tokens that are left, or it fails inside a
chunk after recording one error, at a token of the chunk. -/
def StaysAt (c : Chunk) (rest : List Token) (s : ParserState) (p : Parser α) (P : List Token → Prop) : Prop :=
  (∃ a tokens, p s = (some a, { s with tokens }) ∧ P tokens) ∨
    ∃ e tokens, p s = (none, ⟨tokens, s.endToken, e :: s.errors⟩) ∧ c.Left rest tokens ∧ LocatedIn c.tokens e

/-- What a parser does at every state inside a chunk. -/
def Stays (c : Chunk) (rest : List Token) (p : Parser α) (P : List Token → Prop) : Prop :=
  ∀ s : ParserState, c.Left rest s.tokens → StaysAt c rest s p P

theorem staysAt_pure {a : α} (h : P s.tokens) : StaysAt c rest s (pure a) P :=
  .inl ⟨a, s.tokens, rfl, h⟩

/-- One parser after the other, which goes on where the first one has not failed. -/
theorem StaysAt.bind {p : Parser α} {f : α → Parser β} (hp : StaysAt c rest s p P)
    (hf : ∀ a s', P s'.tokens → StaysAt c rest s' (f a) Q) : StaysAt c rest s (p >>= f) Q := by
  rcases hp with ⟨a, tokens, heq, hP⟩ | ⟨e, tokens, heq, hleft, ht⟩
  · have hrest := hf a { s with tokens } hP
    rw [StaysAt, bind_apply, heq]
    exact hrest
  · refine .inr ⟨e, tokens, ?_, hleft, ht⟩
    rw [bind_apply, heq]

/-- A parser that only looks at the state. -/
theorem staysAt_look_bind {p : Parser α} {a : α} {f : α → Parser β} (hp : p s = (some a, s))
    (h : StaysAt c rest s (f a) P) : StaysAt c rest s (p >>= f) P := by
  rw [StaysAt, bind_apply, hp]
  exact h

theorem staysAt_peek_bind {f : Token → Parser β} (h : StaysAt c rest s (f s.next) P) :
    StaysAt c rest s (peek >>= f) P :=
  staysAt_look_bind rfl h

theorem staysAt_peekSecond_bind {f : TokenKind → Parser β} (h : StaysAt c rest s (f s.rest.next.kind) P) :
    StaysAt c rest s (peekSecond >>= f) P :=
  staysAt_look_bind rfl h

theorem staysAt_remaining_bind {f : Nat → Parser β} (h : StaysAt c rest s (f s.tokens.length) P) :
    StaysAt c rest s (remaining >>= f) P :=
  staysAt_look_bind rfl h

theorem staysAt_check_bind {kind : TokenKind} {f : Bool → Parser β}
    (h : StaysAt c rest s (f (s.next.kind == kind)) P) : StaysAt c rest s (check kind >>= f) P :=
  staysAt_look_bind rfl h

theorem staysAt_advance_bind {f : Token → Parser β} (h : StaysAt c rest s.rest (f s.next) P) :
    StaysAt c rest s (advance >>= f) P :=
  h

theorem stays_failExpected (expected : String) : Stays c rest (failExpected expected : Parser α) P :=
  fun s hs =>
    .inr ⟨⟨.unexpectedToken expected s.next.found, s.next.position⟩, s.tokens, rfl, hs, s.next, hs.next_mem, rfl⟩

theorem stays_failTooDeep : Stays c rest (failTooDeep : Parser α) P :=
  fun s hs => .inr ⟨⟨.tooDeep, s.next.position⟩, s.tokens, rfl, hs, s.next, hs.next_mem, rfl⟩

theorem stays_expect {kind : TokenKind} (h : kind ≠ .semicolon) : Stays c rest (expect kind) (c.Left rest) := by
  intro s hs
  refine staysAt_check_bind ?_
  split
  · next heq => exact .inl ⟨s.next, s.rest.tokens, rfl, hs.advance (beq_iff_eq.1 heq ▸ h)⟩
  · exact stays_failExpected _ s hs

/-- The semicolon is only read at the end of a chunk. -/
theorem stays_expect_semicolon : Stays c rest (expect .semicolon) (· = rest) := by
  intro s hs
  refine staysAt_check_bind ?_
  split
  · next heq => exact .inl ⟨s.next, s.rest.tokens, rfl, hs.at_end (beq_iff_eq.1 heq)⟩
  · exact stays_failExpected _ s hs

theorem stays_eat {kind : TokenKind} (h : kind ≠ .semicolon) : Stays c rest (eat kind) (c.Left rest) := by
  intro s hs
  refine staysAt_check_bind ?_
  split
  · next heq => exact staysAt_advance_bind (staysAt_pure (hs.advance (beq_iff_eq.1 heq ▸ h)))
  · exact staysAt_pure hs

/-! ## Expressions -/

theorem operatorsOf_semicolon (tier : Nat) : operatorsOf tier .semicolon = none := by
  refine Option.eq_none_iff_forall_ne_some.2 fun make hmake => ?_
  cases operatorsOf_eq_some.1 hmake

theorem stays_chainTail {tier : Nat} {operand : Nat → Parser Expr}
    (hoperand : ∀ levels, Stays c rest (operand levels) (c.Left rest)) (levels : Nat) (left : Expr) :
    Stays c rest (chainTail (operatorsOf tier) operand levels left) (c.Left rest) := by
  induction levels generalizing left with
  | zero =>
    intro s hs
    rw [chainTail]
    refine staysAt_peek_bind ?_
    cases operatorsOf tier s.next.kind with
    | none => exact staysAt_pure hs
    | some make => exact stays_failTooDeep s hs
  | succ levels ih =>
    intro s hs
    rw [chainTail]
    refine staysAt_peek_bind ?_
    cases hmake : operatorsOf tier s.next.kind with
    | none => exact staysAt_pure hs
    | some make =>
      have hnext : s.next.kind ≠ .semicolon := by
        intro hsemicolon
        rw [hsemicolon, operatorsOf_semicolon] at hmake
        exact absurd hmake (by simp)
      exact staysAt_advance_bind ((hoperand levels _ (hs.advance hnext)).bind fun right s₁ hs₁ => ih _ s₁ hs₁)

theorem stays_moreArgs {arg : Parser Expr} (harg : Stays c rest arg (c.Left rest)) (bound : Nat)
    (read : List Expr) : Stays c rest (moreArgs arg bound read) (c.Left rest) := by
  induction bound generalizing read with
  | zero => exact fun s hs => staysAt_pure hs
  | succ bound ih =>
    intro s hs
    rw [moreArgs]
    refine (harg s hs).bind fun e s₁ hs₁ => (stays_eat (by simp) s₁ hs₁).bind fun eaten s₂ hs₂ => ?_
    cases eaten with
    | true => exact ih (e :: read) s₂ hs₂
    | false => exact staysAt_pure hs₂

theorem stays_args {arg : Parser Expr} (harg : Stays c rest arg (c.Left rest)) :
    Stays c rest (args arg) (c.Left rest) := by
  intro s hs
  have hclose : ∀ es : List Expr, Stays c rest (do let _ ← expect .closeParen; return es) (c.Left rest) :=
    fun es s hs => (stays_expect (by simp) s hs).bind fun _ s₁ hs₁ => staysAt_pure hs₁
  refine (stays_expect (by simp) s hs).bind fun _ s₁ hs₁ => staysAt_check_bind ?_
  split
  · exact staysAt_look_bind (a := []) rfl (hclose [] s₁ hs₁)
  · exact staysAt_remaining_bind ((stays_moreArgs harg _ [] s₁ hs₁).bind fun es s₂ hs₂ => hclose es s₂ hs₂)

/-- A token that is an operand on its own. -/
theorem staysAt_literal {e : Expr} (hs : c.Left rest s.tokens) (h : s.next.kind ≠ .semicolon) :
    StaysAt c rest s (do let _ ← advance; return e) (c.Left rest) :=
  staysAt_advance_bind (staysAt_pure (hs.advance h))

theorem stays_primary {nested : Parser Expr} (hnested : Stays c rest nested (c.Left rest)) :
    Stays c rest (primary nested) (c.Left rest) := by
  intro s hs
  refine staysAt_peek_bind ?_
  cases hkind : s.next.kind with
  | integer value | stringLiteral | trueWord | falseWord => exact staysAt_literal hs (by simp [hkind])
  | openParen =>
    refine staysAt_advance_bind ((hnested _ (hs.advance (by simp [hkind]))).bind fun e s₁ hs₁ => ?_)
    exact (stays_expect (by simp) s₁ hs₁).bind fun _ s₂ hs₂ => staysAt_pure hs₂
  | identifier =>
    have hrest := hs.advance (by simp [hkind])
    refine staysAt_advance_bind (staysAt_check_bind ?_)
    split
    · exact (stays_args hnested _ hrest).bind fun es s₁ hs₁ => staysAt_pure hs₁
    · refine (stays_eat (by simp) _ hrest).bind fun eaten s₁ hs₁ => ?_
      cases eaten with
      | true =>
        refine (stays_expect (by simp) s₁ hs₁).bind fun method s₂ hs₂ => ?_
        exact (stays_args hnested s₂ hs₂).bind fun es s₃ hs₃ => staysAt_pure hs₃
      | false => exact staysAt_pure hs₁
  | _ => exact stays_failExpected _ s hs

theorem stays_unary {nested : Nat → Parser Expr} (hnested : ∀ levels, Stays c rest (nested levels) (c.Left rest))
    (levels : Nat) : Stays c rest (unary nested levels) (c.Left rest) := by
  have hnext : ∀ {s : ParserState} {apply : Expr → Position → Expr}, unaryOperator? s.next.kind = some apply →
      s.next.kind ≠ .semicolon := by
    rintro s apply happly hsemicolon
    rw [hsemicolon] at happly
    exact absurd happly (by simp [unaryOperator?])
  induction levels with
  | zero =>
    intro s hs
    rw [unary]
    refine staysAt_peek_bind ?_
    cases happly : unaryOperator? s.next.kind with
    | none => exact stays_primary (hnested 0) s hs
    | some apply => exact staysAt_advance_bind (stays_failTooDeep _ (hs.advance (hnext happly)))
  | succ levels ih =>
    intro s hs
    rw [unary]
    refine staysAt_peek_bind ?_
    cases happly : unaryOperator? s.next.kind with
    | none => exact stays_primary (hnested (levels + 1)) s hs
    | some apply =>
      refine staysAt_advance_bind ((ih _ (hs.advance (hnext happly))).bind fun operand s₁ hs₁ => ?_)
      exact staysAt_pure hs₁

theorem stays_atTier {nested : Nat → Parser Expr} (hnested : ∀ levels, Stays c rest (nested levels) (c.Left rest))
    (tier levels : Nat) : Stays c rest (atTier nested tier levels) (c.Left rest) := by
  induction tier generalizing levels with
  | zero => exact stays_unary hnested levels
  | succ tier ih =>
    exact fun s hs => (ih levels s hs).bind fun first s₁ hs₁ => stays_chainTail ih levels first s₁ hs₁

theorem stays_exprAt (depth levels : Nat) : Stays c rest (exprAt depth levels) (c.Left rest) :=
  exprAt_induction (P := fun _ p => Stays c rest p (c.Left rest)) (fun _ => stays_failTooDeep)
    (fun _ hnested => stays_atTier hnested loosest) depth levels

theorem stays_expr (levels : Nat) : Stays c rest (expr levels) (c.Left rest) :=
  stays_exprAt levels levels

/-! ## Statements -/

/-- A chunk is read to its end where an expression and a semicolon are read. -/
theorem stays_ended (make : Expr → Stmt) (levels : Nat) :
    Stays c rest (do
      let value ← expr levels
      let _ ← expect .semicolon
      return make value) (· = rest) :=
  fun s hs => (stays_expr levels s hs).bind fun _ s₁ hs₁ =>
    (stays_expect_semicolon s₁ hs₁).bind fun _ _ hs₂ => staysAt_pure hs₂

/-- There is no block in a chunk. -/
theorem stays_requiredBlock (body : Parser (List Stmt)) : Stays c rest (requiredBlock body) P := by
  intro s hs
  refine staysAt_check_bind ?_
  split
  · next heq =>
    have hkind := hs.kind_next
    rw [beq_iff_eq.1 heq] at hkind
    exact absurd hkind (by decide)
  · exact stays_failExpected _ s hs

/-- A chunk may begin as a branch, but it is none. -/
theorem staysAt_branch {body : Nat → Parser (List Stmt)} (levels : Nat) (hs : c.Left rest s.tokens)
    (hnext : s.next.kind = .ifWord) : StaysAt c rest s (branch body levels) P := by
  obtain ⟨elseIf, hbranch⟩ := branch_eq body levels
  rw [hbranch]
  refine staysAt_advance_bind ((stays_expr levels _ (hs.advance (by simp [hnext]))).bind fun condition s₁ hs₁ => ?_)
  exact (stays_requiredBlock (P := fun _ => False) (body levels) s₁ hs₁).bind fun _ _ h => h.elim

theorem stays_statement (nested : Nat → Parser Stmt) (levels : Nat) :
    Stays c rest (statement nested levels) (· = rest) := by
  intro s hs
  refine staysAt_peek_bind ?_
  split
  · next hnext =>
    refine staysAt_advance_bind ?_
    refine (stays_expect (by simp) _ (hs.advance (by simp [hnext]))).bind fun name s₁ hs₁ => ?_
    refine (stays_expect (by simp) s₁ hs₁).bind fun _ s₂ hs₂ => ?_
    exact stays_ended (.declare name.text · s.next.position) levels s₂ hs₂
  · next hnext => exact staysAt_branch levels hs hnext
  · next hnext =>
    refine staysAt_advance_bind ?_
    refine (stays_expr levels _ (hs.advance (by simp [hnext]))).bind fun condition s₁ hs₁ => ?_
    exact (stays_requiredBlock (P := fun _ => False) _ s₁ hs₁).bind fun _ _ h => h.elim
  · next hnext =>
    have hrest := hs.advance (by simp [hnext])
    have hend : ∀ value : Option Expr, Stays c rest (do
        let _ ← expect .semicolon
        return Stmt.ret value s.next.position) (· = rest) :=
      fun value s hs => (stays_expect_semicolon s hs).bind fun _ _ hs₁ => staysAt_pure hs₁
    refine staysAt_advance_bind (staysAt_check_bind ?_)
    split
    · exact staysAt_look_bind (a := none) rfl (hend none _ hrest)
    · have hvalue : StaysAt c rest s.rest (some <$> expr levels) (c.Left rest) :=
        (stays_expr levels _ hrest).bind fun _ _ hs₁ => staysAt_pure hs₁
      exact hvalue.bind fun value s₁ hs₁ => hend value s₁ hs₁
  · refine staysAt_peekSecond_bind ?_
    split
    · next hassign =>
      obtain ⟨hname, hassign⟩ := Bool.and_eq_true_iff.1 hassign
      have hrest := hs.advance (by rw [beq_iff_eq.1 hname]; simp)
      refine staysAt_advance_bind (staysAt_advance_bind ?_)
      exact stays_ended (.assign s.next.text · s.next.position) levels _
        (hrest.advance (by rw [beq_iff_eq.1 hassign]; simp))
    · exact stays_ended .expr levels s hs

theorem stays_stmtAt (depth levels : Nat) : Stays c rest (stmtAt depth levels) (· = rest) :=
  stmtAt_induction (P := fun _ p => Stays c rest p (· = rest)) (fun _ => stays_failTooDeep)
    (fun nested _ => stays_statement nested) depth levels

theorem stays_stmt (levels : Nat) : Stays c rest (stmt levels) (· = rest) :=
  stays_stmtAt levels levels

/-! ## Blocks -/

/-- The statement that some tokens are on their own: all of them are read, and nothing is recorded. -/
def alone (levels : Nat) (ts : List Token) : Option Stmt :=
  match stmt levels (Ending.clean.state ts) with
  | (some s, ⟨[], _, []⟩) => some s
  | _ => none

/-- The tokens that are a statement on their own are those that the grammar derives as one. -/
theorem alone_eq_some_iff {levels : Nat} {ts : List Token} {s : Stmt} :
    alone levels ts = some s ↔ Within levels IsStatement ts s := by
  constructor
  · intro h
    have htakes := (takes_stmt levels (Ending.clean.state ts) rfl).2
    rw [alone] at h
    split at h
    · next heq =>
      obtain rfl := Option.some.inj h
      rw [heq] at htakes
      obtain ⟨s', us, hs', htokens, hus⟩ := htakes rfl
      obtain rfl := Option.some.inj hs'
      have hts : ts = us ++ [] := htokens
      rwa [hts, List.append_nil]
    · exact absurd h (by simp)
  · rintro ⟨n, hn, hs⟩
    have hreads : stmt levels (Ending.clean.state (ts ++ [])) = (some s, Ending.clean.state []) :=
      hs.reads hn hn (by decide)
    rw [List.append_nil] at hreads
    rw [alone, hreads]
    rfl

/-- What stands in a block one after the other: the tokens of a statement, or a chunk that is malformed. -/
inductive IsItem (levels : Nat) : List Token → Prop
  | statement {ts : List Token} {s : Stmt} (h : alone levels ts = some s) : IsItem levels ts
  | malformed (c : Chunk) (h : alone levels c.tokens = none) : IsItem levels c.tokens

theorem orRecover_bind_of_none {p : Parser α} {f : Option α → Parser β} {s s' : ParserState} (h : p s = (none, s')) :
    (orRecover p >>= f) s = f none { s' with tokens := afterStatement 0 s'.tokens } := by
  have hattempt : attempt p s = (some none, s') := by rw [attempt, h]
  refine bind_of_eq ?_
  rw [orRecover, bind_of_eq hattempt]
  rfl

section
variable {levels : Nat} {z : Ending}

/-- An item is not empty, and no `else` is at its beginning. -/
theorem IsItem.begins {ts : List Token} (h : IsItem levels ts) (rest : List Token) :
    0 < ts.length ∧ kindAt (ts ++ rest) ≠ .elseWord := by
  cases h with
  | statement h =>
    obtain ⟨n, _, hs⟩ := alone_eq_some_iff.1 h
    refine ⟨?_, hs.kindAt_ne rfl⟩
    obtain ⟨t, us, rfl, _⟩ := hs.begins
    exact Nat.succ_pos _
  | malformed c h =>
    have hbegins := c.begins
    rw [Chunk.tokens]
    refine ⟨by simp, ?_⟩
    cases hbody : c.body with
    | nil =>
      rw [List.nil_append, List.singleton_append, kindAt_cons, c.kind_eq]
      simp
    | cons t us =>
      rw [hbody] at hbegins
      exact hbegins

/-- Behind a statement that cannot be read, statements are read from where recovery ends. -/
theorem statements_failing {statement : Parser Stmt} {s s' : ParserState} (hclose : s.next.kind ≠ .closeBrace)
    (hend : s.next.kind ≠ .endOfInput) (h : statement s = (none, s')) (bound : Nat) (read : List Stmt) :
    statements statement (bound + 1) read s =
      statements statement bound read { s' with tokens := afterStatement 0 s'.tokens } := by
  rw [statements, peek_bind]
  generalize s.next.kind = kind at hclose hend
  cases kind with
  | closeBrace => exact absurd rfl hclose
  | endOfInput => exact absurd rfl hend
  | _ => exact orRecover_bind_of_none h

/-- A malformed chunk is an error, and the statements behind it are read as if it had not been there. -/
theorem statements_chunk (c : Chunk) (h : alone levels c.tokens = none) (bound : Nat) (read : List Stmt) :
    ∃ e, LocatedIn c.tokens e ∧
      statements (stmt levels) (bound + 1) read (z.state (c.tokens ++ rest)) =
        statements (stmt levels) bound read ((z.record [e]).state rest) := by
  have hleft := c.left_tokens rest
  obtain ⟨hextends, htakes⟩ := takes_stmt levels (z.state (c.tokens ++ rest)) z.kind_eq
  rcases stays_stmt levels (z.state (c.tokens ++ rest)) hleft with
    ⟨s, tokens, heq, rfl⟩ | ⟨e, tokens, heq, hstop, hlocated⟩
  · -- A chunk that is read to its end without an error is a statement.
    rw [heq] at htakes
    obtain ⟨s', ts, _, htokens, hts⟩ := htakes rfl
    obtain rfl := List.append_cancel_right (htokens : c.tokens ++ tokens = ts ++ tokens)
    rw [alone_eq_some_iff.2 hts] at h
    exact absurd h (by simp)
  · refine ⟨e, hlocated, ?_⟩
    have hkind := Chunk.Left.kind_next (s := z.state (c.tokens ++ rest)) hleft
    have hclose : (z.state (c.tokens ++ rest)).next.kind ≠ .closeBrace := fun h => absurd (h ▸ hkind) (by decide)
    have hend : (z.state (c.tokens ++ rest)).next.kind ≠ .endOfInput := fun h => absurd (h ▸ hkind) (by decide)
    rw [statements_failing hclose hend heq, hstop.afterStatement]
    rfl

/-- Statements and malformed chunks up to a closing brace are read as the statements. -/
theorem statements_items {items : List (List Token)} (hitems : ∀ ts ∈ items, IsItem levels ts)
    (hrest : kindAt rest = .closeBrace) {bound : Nat} (hbound : items.length ≤ bound) (read : List Stmt) :
    ∃ found, List.Forall₂ LocatedIn (items.filter fun ts => (alone levels ts).isNone) found ∧
      statements (stmt levels) bound read (z.state (items.flatten ++ rest)) =
        (some (read.reverse ++ items.filterMap (alone levels)), (z.record found).state rest) := by
  induction items generalizing z bound read with
  | nil =>
    refine ⟨[], .nil, ?_⟩
    rw [List.flatten_nil, List.nil_append, List.filterMap_nil, List.append_nil]
    exact statements_stop bound read hrest
  | cons ts items ih =>
    obtain ⟨bound, rfl⟩ := Nat.exists_eq_add_one.2 (Nat.zero_lt_of_lt hbound)
    have hnext : kindAt (items.flatten ++ rest) ≠ .elseWord := by
      cases items with
      | nil => simp [hrest]
      | cons us items =>
        rw [List.flatten_cons, List.append_assoc]
        exact ((hitems us (by simp)).begins _).2
    have hmore := fun us hus => hitems us (List.mem_cons_of_mem _ hus)
    have hlength := Nat.le_of_succ_le_succ hbound
    rw [List.flatten_cons, List.append_assoc]
    cases hitems ts List.mem_cons_self with
    | @statement _ s h =>
      obtain ⟨n, hn, hs⟩ := alone_eq_some_iff.1 h
      have hstmt : stmt levels (z.state (ts ++ (items.flatten ++ rest))) = _ := hs.reads hn hn hnext
      obtain ⟨found, hfound, hread⟩ := ih (z := z) hmore hlength (s :: read)
      refine ⟨found, ?_, ?_⟩
      · rwa [List.filter_cons_of_neg (by simp [h])]
      · rw [statements_cons hs hstmt, hread, List.filterMap_cons_some h, List.reverse_cons,
          List.append_assoc, List.singleton_append]
    | malformed c h =>
      obtain ⟨e, he, hread⟩ := statements_chunk c h bound read
      obtain ⟨found, hfound, hmore⟩ := ih (z := z.record [e]) hmore hlength read
      refine ⟨e :: found, ?_, ?_⟩
      · rw [List.filter_cons_of_pos (by simp [h])]
        exact .cons he hfound
      · rw [hread, hmore, List.filterMap_cons_none h, Ending.record_record]
        rfl

end

/-- **Recovery behind statements.** With any number of levels left, and whatever was recorded before, a block whose
items are statements and malformed chunks is read as its statements in order, each of them being the tree that it is
on its own; exactly one error is recorded for each malformed chunk, in their order, at a token of that chunk. -/
theorem block_recovers (levels : Nat) {items : List (List Token)} (hitems : ∀ ts ∈ items, IsItem levels ts)
    {l r : Token} (hl : l.kind = .openBrace) (hr : r.kind = .closeBrace) (rest : List Token) (z : Ending) :
    ∃ found, List.Forall₂ LocatedIn (items.filter fun ts => (alone levels ts).isNone) found ∧
      block (stmt levels) (z.state (l :: (items.flatten ++ r :: rest))) =
        (some (items.filterMap (alone levels)), ⟨rest, z.token, found.reverse ++ z.errors⟩) := by
  have hbound : items.length ≤ (items.flatten ++ r :: rest).length + 1 := by
    have hlength := List.length_le_sum_of_one_le (items.map List.length) (by
      intro n hn
      obtain ⟨ts, hts, rfl⟩ := List.mem_map.1 hn
      exact ((hitems ts hts).begins []).1)
    rw [List.length_map] at hlength
    rw [List.length_append, List.length_flatten]
    omega
  have hclose : kindAt (r :: rest) = .closeBrace := hr
  obtain ⟨found, hfound, hread⟩ := statements_items (z := z) hitems hclose hbound []
  refine ⟨found, hfound, ?_⟩
  rw [block, attempt_bind (expect_of_kind hl)]
  dsimp only
  rw [remaining_bind, bind_of_eq hread, attempt_bind (expect_of_kind hr)]
  rfl

/-- Between two statements, an expression without its last operand. -/
theorem block_recovers_between :
    ∃ e, LocatedIn [⟨.integer 1, "1", ⟨2, 1⟩⟩, ⟨.plus, "+", ⟨2, 3⟩⟩, ⟨.semicolon, ";", ⟨2, 4⟩⟩] e ∧
      block (stmt maxNesting)
        ⟨[⟨.openBrace, "\x7b", ⟨1, 1⟩⟩, ⟨.returnWord, "return", ⟨1, 3⟩⟩, ⟨.semicolon, ";", ⟨1, 9⟩⟩,
            ⟨.integer 1, "1", ⟨2, 1⟩⟩, ⟨.plus, "+", ⟨2, 3⟩⟩, ⟨.semicolon, ";", ⟨2, 4⟩⟩,
            ⟨.identifier, "x", ⟨3, 1⟩⟩, ⟨.semicolon, ";", ⟨3, 2⟩⟩, ⟨.closeBrace, "\x7d", ⟨3, 4⟩⟩],
          ⟨.endOfInput, "", ⟨3, 5⟩⟩, []⟩ =
        (some [.ret none ⟨1, 3⟩, .expr (.var "x" ⟨3, 1⟩)], ⟨[], ⟨.endOfInput, "", ⟨3, 5⟩⟩, [e]⟩) := by
  let first : List Token := [⟨.returnWord, "return", ⟨1, 3⟩⟩, ⟨.semicolon, ";", ⟨1, 9⟩⟩]
  let sum : List Token := [⟨.integer 1, "1", ⟨2, 1⟩⟩, ⟨.plus, "+", ⟨2, 3⟩⟩, ⟨.semicolon, ";", ⟨2, 4⟩⟩]
  let last : List Token := [⟨.identifier, "x", ⟨3, 1⟩⟩, ⟨.semicolon, ";", ⟨3, 2⟩⟩]
  have hfirst : alone maxNesting first = some (.ret none ⟨1, 3⟩) := rfl
  have hsum : alone maxNesting sum = none := rfl
  have hlast : alone maxNesting last = some (.expr (.var "x" ⟨3, 1⟩)) := rfl
  let chunk : Chunk := ⟨sum.dropLast, ⟨.semicolon, ";", ⟨2, 4⟩⟩, by decide, by decide, rfl⟩
  have hitems : ∀ ts ∈ [first, sum, last], IsItem maxNesting ts := by
    intro ts hts
    simp only [List.mem_cons, List.not_mem_nil, or_false] at hts
    rcases hts with rfl | rfl | rfl
    · exact .statement hfirst
    · exact .malformed chunk hsum
    · exact .statement hlast
  obtain ⟨found, hfound, hread⟩ := block_recovers maxNesting hitems (l := ⟨.openBrace, "\x7b", ⟨1, 1⟩⟩)
    (r := ⟨.closeBrace, "\x7d", ⟨3, 4⟩⟩) rfl rfl [] ⟨⟨.endOfInput, "", ⟨3, 5⟩⟩, [], rfl⟩
  simp only [List.filter_cons, List.filter_nil, List.filterMap_cons, List.filterMap_nil, hfirst, hsum, hlast,
    Option.isNone_some, Option.isNone_none, if_true, if_false, Bool.false_eq_true] at hfound hread
  obtain ⟨e, _, he, hnil, rfl⟩ := List.forall₂_cons_left_iff.1 hfound
  rw [List.forall₂_nil_left_iff] at hnil
  subst hnil
  exact ⟨e, he, hread⟩

end Parser
end PluginSandbox
