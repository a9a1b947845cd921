import PluginSandbox.Proofs.Language.Derived
import PluginSandbox.Proofs.Language.Lexed

/-!
# What is derived is read

The parser reads what the grammar derives, up to the tokens that follow, and returns the tree of the derivation.  It
records nothing on the way, if it has the levels that the derivation needs.

A phrase is read to its end only if the next token does not go on with it: `continues` says which kinds of tokens go
on with a chain of a tier.  As the operators of a tier associate to the left, a derivation of `k` operators is
followed through by reading them one after the other, each of which takes a level of those that are left.
-/

namespace PluginSandbox

/-- The end of the input, and the errors that were recorded before it. -/
structure Ending where
  token : Token
  errors : List SyntaxError
  kind_eq : token.kind = .endOfInput

/-- The state with some tokens in front of an ending. -/
def Ending.state (z : Ending) (tokens : List Token) : ParserState :=
  ⟨tokens, z.token, z.errors⟩

/-- The kind of what is next. -/
def kindAt (tokens : List Token) : TokenKind :=
  (tokens.head?.map Token.kind).getD .endOfInput

@[simp] theorem kindAt_cons (t : Token) (tokens : List Token) : kindAt (t :: tokens) = t.kind := rfl

@[simp] theorem Ending.next_cons (z : Ending) (t : Token) (tokens : List Token) :
    (z.state (t :: tokens)).next = t :=
  rfl

theorem Ending.kind_next (z : Ending) (tokens : List Token) : (z.state tokens).next.kind = kindAt tokens := by
  cases tokens with
  | nil => exact z.kind_eq
  | cons t tokens => rfl

namespace Parser

open Grammar

variable {α β : Type} {z : Ending} {rest : List Token}

/-! ## Steps -/

theorem bind_of_eq {p : Parser α} {f : α → Parser β} {a : α} {s s' : ParserState} (h : p s = (some a, s')) :
    (p >>= f) s = f a s' := by
  rw [bind_apply, h]

theorem peek_bind (f : Token → Parser β) (s : ParserState) : (peek >>= f) s = f s.next s :=
  rfl

theorem peekSecond_bind (f : TokenKind → Parser β) (s : ParserState) :
    (peekSecond >>= f) s = f s.rest.next.kind s :=
  rfl

theorem remaining_bind (f : Nat → Parser β) (tokens : List Token) :
    (remaining >>= f) (z.state tokens) = f tokens.length (z.state tokens) :=
  rfl

theorem advance_bind (f : Token → Parser β) (t : Token) :
    (advance >>= f) (z.state (t :: rest)) = f t (z.state rest) :=
  rfl

theorem check_bind (kind : TokenKind) (f : Bool → Parser β) (tokens : List Token) :
    (check kind >>= f) (z.state tokens) = f (kindAt tokens == kind) (z.state tokens) := by
  rw [← z.kind_next]
  rfl

theorem expect_of_kind {t : Token} {kind : TokenKind} (h : t.kind = kind) :
    expect kind (z.state (t :: rest)) = (some t, z.state rest) := by
  rw [expect, check_bind, kindAt_cons, h, beq_self_eq_true, if_pos rfl]
  rfl

theorem expect_bind {t : Token} {kind : TokenKind} (h : t.kind = kind) (f : Token → Parser β) :
    (expect kind >>= f) (z.state (t :: rest)) = f t (z.state rest) :=
  bind_of_eq (expect_of_kind h)

theorem eat_bind_of_kind {t : Token} {kind : TokenKind} (h : t.kind = kind) (f : Bool → Parser β) :
    (eat kind >>= f) (z.state (t :: rest)) = f true (z.state rest) := by
  refine bind_of_eq ?_
  rw [eat, check_bind, kindAt_cons, h, beq_self_eq_true, if_pos rfl]
  rfl

theorem eat_bind_of_ne {kind : TokenKind} (h : kindAt rest ≠ kind) (f : Bool → Parser β) :
    (eat kind >>= f) (z.state rest) = f false (z.state rest) := by
  refine bind_of_eq ?_
  rw [eat, check_bind, beq_eq_false_iff_ne.2 h, if_neg (by simp)]
  rfl

theorem attempt_bind {p : Parser α} {f : Option α → Parser β} {a : α} {s s' : ParserState}
    (h : p s = (some a, s')) : (attempt p >>= f) s = f (some a) s' := by
  refine bind_of_eq ?_
  rw [attempt, h]

theorem orRecover_bind {p : Parser α} {f : Option α → Parser β} {a : α} {s s' : ParserState}
    (h : p s = (some a, s')) : (orRecover p >>= f) s = f (some a) s' := by
  refine bind_of_eq ?_
  rw [orRecover, attempt_bind h]
  rfl

/-! ## Chains of operators -/

/-- Whether a token of a kind goes on with a chain of a tier. -/
def continues : Nat → TokenKind → Bool
  | 0, kind => kind == .openParen || kind == .dot
  | tier + 1, kind => continues tier kind || (operatorsOf (tier + 1) kind).isSome

theorem continues_succ {tier : Nat} {kind : TokenKind} :
    continues (tier + 1) kind = false ↔ continues tier kind = false ∧ operatorsOf (tier + 1) kind = none := by
  rw [continues, Bool.or_eq_false_iff, Option.isSome_eq_false_iff, Option.isNone_iff_eq_none]

theorem continues_pred {tier : Nat} {kind : TokenKind} (h : continues tier kind = false) :
    continues (tier - 1) kind = false := by
  cases tier with
  | zero => exact h
  | succ tier => exact (continues_succ.1 h).1

/-- An operator does not go on with a chain of a tighter tier. -/
theorem continues_operator {tier : Nat} {kind : TokenKind} {make : Join}
    (h : BinaryOperator (tier + 1) kind make) : continues tier kind = false := by
  cases h <;> rfl

/-- The parser of the rest of a chain of a tier. -/
def restOfTier (nested : Nat → Parser Expr) : Nat → Nat → Expr → Parser Expr
  | 0, _, e => pure e
  | tier + 1, levels, e => chainTail (operatorsOf (tier + 1)) (atTier nested tier) levels e

/-- Where nothing goes on with a chain, it is at its end. -/
theorem restOfTier_stop (nested : Nat → Parser Expr) {tier : Nat} (levels : Nat) (e : Expr)
    (h : continues tier (kindAt rest) = false) :
    restOfTier nested tier levels e (z.state rest) = (some e, z.state rest) := by
  cases tier with
  | zero => rfl
  | succ tier =>
    have hnone : operatorsOf (tier + 1) (z.state rest).next.kind = none := by
      rw [z.kind_next]
      exact (continues_succ.1 h).2
    cases levels with
    | zero =>
      rw [restOfTier, chainTail, peek_bind, hnone]
      rfl
    | succ levels =>
      rw [restOfTier, chainTail, peek_bind, hnone]
      rfl

section
variable {nested : Nat → Parser Expr} {tier levels : Nat} {ts : List Token}

/-- A chain of a tier is the first operand of one of the next tier. -/
theorem atTier_single {k : Nat} {e : Expr}
    (h : atTier nested tier levels (z.state (ts ++ rest)) = restOfTier nested tier (levels - k) e (z.state rest))
    (hrest : continues tier (kindAt rest) = false) :
    atTier nested (tier + 1) levels (z.state (ts ++ rest)) =
      restOfTier nested (tier + 1) levels e (z.state rest) := by
  rw [restOfTier_stop _ _ _ hrest] at h
  exact bind_of_eq h

/-- Behind `k` operators of a chain, another one takes one of the levels that are left. -/
theorem restOfTier_operator {t : Token} {make : Join} (hoperator : BinaryOperator (tier + 1) t.kind make)
    {left right : Expr} {j k : Nat} (hk : k < levels)
    (h : atTier nested tier (levels - (k + 1)) (z.state (ts ++ rest)) =
      restOfTier nested tier (levels - (k + 1) - j) right (z.state rest))
    (hrest : continues tier (kindAt rest) = false) :
    restOfTier nested (tier + 1) (levels - k) left (z.state (t :: (ts ++ rest))) =
      restOfTier nested (tier + 1) (levels - (k + 1)) (make left right t.position) (z.state rest) := by
  rw [restOfTier_stop _ _ _ hrest] at h
  have hmake : operatorsOf (tier + 1) (z.state (t :: (ts ++ rest))).next.kind = some make :=
    operatorsOf_eq_some.2 hoperator
  have hlevels : levels - k = levels - (k + 1) + 1 := by omega
  rw [hlevels, restOfTier, chainTail, peek_bind, hmake]
  show (advance >>= _) _ = _
  rw [advance_bind, bind_of_eq h]
  rfl

end

/-! ## Operands -/

section
variable {nested : Nat → Parser Expr} {levels : Nat} {ts : List Token}

/-- An operand that no unary operator is in front of. -/
theorem unary_of_none {tokens : List Token} (h : unaryOperator? (kindAt tokens) = none) :
    unary nested levels (z.state tokens) = primary (nested levels) (z.state tokens) := by
  rw [← z.kind_next] at h
  cases levels with
  | zero => rw [unary, peek_bind, h]
  | succ levels => rw [unary, peek_bind, h]

/-- A unary operator takes one of the levels that are left. -/
theorem unary_of_some {t : Token} {apply : Expr → Position → Expr} (happly : unaryOperator? t.kind = some apply)
    {e : Expr} (h : unary nested levels (z.state (ts ++ rest)) = (some e, z.state rest)) :
    unary nested (levels + 1) (z.state (t :: (ts ++ rest))) = (some (apply e t.position), z.state rest) := by
  have hnext : unaryOperator? (z.state (t :: (ts ++ rest))).next.kind = some apply := happly
  rw [unary, peek_bind, hnext]
  show (advance >>= _) _ = _
  rw [advance_bind, bind_of_eq h]
  rfl

end

/-- A token that is an expression on its own, whatever follows it. -/
def literal? (t : Token) : Option Expr :=
  match t.kind with
  | .integer value => some (.int value t.position)
  | .stringLiteral => some (.str t.text t.position)
  | .trueWord => some (.bool true t.position)
  | .falseWord => some (.bool false t.position)
  | _ => none

/-- A literal is read on its own. -/
theorem unary_literal {nested : Nat → Parser Expr} {levels : Nat} {t : Token} {e : Expr} (h : literal? t = some e) :
    unary nested levels (z.state (t :: rest)) = (some e, z.state rest) := by
  rw [literal?] at h
  cases hkind : t.kind with
  | integer | stringLiteral | trueWord | falseWord =>
    rw [hkind] at h
    obtain rfl := Option.some.inj h
    rw [unary_of_none (by rw [kindAt_cons, hkind]; rfl), primary, peek_bind, z.next_cons, hkind]
    rfl
  | _ =>
    rw [hkind] at h
    exact absurd h (by simp)

section
variable {nested : Parser Expr} {t : Token} {ts : List Token} {es : List Expr}

/-- A variable is read as one if no call follows. -/
theorem primary_var (hkind : t.kind = .identifier) (hrest : continues 0 (kindAt rest) = false) :
    primary nested (z.state (t :: rest)) = (some (.var t.text t.position), z.state rest) := by
  obtain ⟨hparen, hdot⟩ := Bool.or_eq_false_iff.1 hrest
  rw [primary, peek_bind, z.next_cons, hkind]
  dsimp only
  rw [advance_bind, check_bind, hparen, if_neg (by simp), eat_bind_of_ne (beq_eq_false_iff_ne.1 hdot)]
  rfl

theorem primary_call (hname : t.kind = .identifier) (hparen : kindAt (ts ++ rest) = .openParen)
    (hargs : args nested (z.state (ts ++ rest)) = (some es, z.state rest)) :
    primary nested (z.state (t :: (ts ++ rest))) = (some (.call t.text es t.position), z.state rest) := by
  rw [primary, peek_bind, z.next_cons, hname]
  dsimp only
  rw [advance_bind, check_bind, hparen, beq_self_eq_true, if_pos rfl, bind_of_eq hargs]
  rfl

theorem primary_memberCall {dot method : Token} (hname : t.kind = .identifier) (hdot : dot.kind = .dot)
    (hmethod : method.kind = .identifier)
    (hargs : args nested (z.state (ts ++ rest)) = (some es, z.state rest)) :
    primary nested (z.state (t :: dot :: method :: (ts ++ rest))) =
      (some (.memberCall t.text method.text es t.position), z.state rest) := by
  rw [primary, peek_bind, z.next_cons, hname]
  dsimp only
  rw [advance_bind, check_bind, kindAt_cons, hdot, if_neg (by simp), eat_bind_of_kind hdot, if_pos rfl,
    expect_bind hmethod, bind_of_eq hargs]
  rfl

theorem primary_group {l r : Token} {e : Expr} (hl : l.kind = .openParen) (hr : r.kind = .closeParen)
    (he : nested (z.state (ts ++ r :: rest)) = (some e, z.state (r :: rest))) :
    primary nested (z.state (l :: (ts ++ r :: rest))) = (some e, z.state rest) := by
  rw [primary, peek_bind, z.next_cons, hl]
  dsimp only
  rw [advance_bind, bind_of_eq he, expect_bind hr]
  rfl

/-- At least one argument is read up to the closing parenthesis. -/
theorem moreArgs_last {e : Expr} {bound : Nat} {read : List Expr}
    (he : nested (z.state (ts ++ rest)) = (some e, z.state rest)) (hrest : kindAt rest ≠ .comma) :
    moreArgs nested (bound + 1) read (z.state (ts ++ rest)) = (some (read.reverse ++ [e]), z.state rest) := by
  rw [moreArgs, bind_of_eq he, eat_bind_of_ne hrest, if_neg (by simp), List.reverse_cons]
  rfl

theorem moreArgs_comma {e : Expr} {comma : Token} {bound : Nat} {read : List Expr} (hcomma : comma.kind = .comma)
    (he : nested (z.state (ts ++ comma :: rest)) = (some e, z.state (comma :: rest))) :
    moreArgs nested (bound + 1) read (z.state (ts ++ comma :: rest)) =
      moreArgs nested bound (e :: read) (z.state rest) := by
  rw [moreArgs, bind_of_eq he, eat_bind_of_kind hcomma, if_pos rfl]

theorem args_none {l r : Token} (hl : l.kind = .openParen) (hr : r.kind = .closeParen) :
    args nested (z.state (l :: r :: rest)) = (some [], z.state rest) := by
  rw [args, expect_bind hl, check_bind, kindAt_cons, hr, beq_self_eq_true, if_pos rfl]
  show (expect .closeParen >>= _) _ = _
  rw [expect_bind hr]
  rfl

theorem args_some {l r : Token} (hl : l.kind = .openParen) (hr : r.kind = .closeParen)
    (hbegin : kindAt (ts ++ r :: rest) ≠ .closeParen)
    (hes : moreArgs nested ((ts ++ r :: rest).length + 1) [] (z.state (ts ++ r :: rest)) =
      (some es, z.state (r :: rest))) :
    args nested (z.state (l :: (ts ++ r :: rest))) = (some es, z.state rest) := by
  rw [args, expect_bind hl, check_bind, beq_eq_false_iff_ne.2 hbegin, if_neg (by simp)]
  show (remaining >>= _) _ = _
  rw [remaining_bind, bind_of_eq hes]
  exact expect_bind hr fun _ => pure es

end

end Parser

/-! ## Expressions -/

namespace Grammar

open PluginSandbox.Parser

variable {z : Ending} {rest : List Token} {depth levels : Nat}

/-- What is next in front of an expression is its first token. -/
theorem IsExpression.kindAt_ne {ts : List Token} {e : Expr} {n : Nat} (h : IsExpression ts e n)
    {kind : TokenKind} (hkind : beginsExpression kind = false) : kindAt (ts ++ rest) ≠ kind := by
  obtain ⟨t, us, rfl, ht⟩ := h.begins
  rintro rfl
  exact absurd (ht.symm.trans hkind) (by simp)

theorem IsArgs.kindAt_eq {ts : List Token} {es : List Expr} {n : Nat} (h : IsArgs ts es n) :
    kindAt (ts ++ rest) = .openParen := by
  cases h with
  | none hl | some hl => exact hl

theorem IsArgList.kindAt_ne {ts : List Token} {es : List Expr} {n : Nat} (h : IsArgList ts es n)
    {kind : TokenKind} (hkind : beginsExpression kind = false) : kindAt (ts ++ rest) ≠ kind := by
  cases h with
  | one he => exact he.kindAt_ne hkind
  | more he =>
    rw [List.append_assoc]
    exact he.kindAt_ne hkind

mutual

/-- A chain of operators is read up to the last of them, each of which takes a level. -/
theorem IsTier.reads {tier k : Nat} {ts : List Token} {e : Expr} {n : Nat} :
    IsTier tier k ts e n → ∀ {depth levels : Nat} {rest : List Token}, n ≤ depth → n ≤ levels →
      continues (tier - 1) (kindAt rest) = false →
      atTier (exprAt depth) tier levels (z.state (ts ++ rest)) =
        restOfTier (exprAt depth) tier (levels - k) e (z.state rest)
  | .operand h, _, _, _, hdepth, hlevels, hrest => h.reads hdepth hlevels hrest
  | .single h, _, _, _, hdepth, hlevels, hrest =>
    atTier_single (h.reads hdepth hlevels (continues_pred hrest)) hrest
  | .join hleft hoperator hright he, depth, levels, rest, hdepth, hlevels, hrest => by
    subst he
    rw [List.append_assoc, List.cons_append]
    refine (hleft.reads (Nat.le_trans (Nat.le_max_left _ _) hdepth)
      (Nat.le_trans (Nat.le_max_left _ _) hlevels) ?_).trans ?_
    · exact continues_operator hoperator
    · exact restOfTier_operator hoperator (by omega)
        (hright.reads (by omega) (by omega) (continues_pred hrest)) hrest

theorem IsOperand.reads {ts : List Token} {e : Expr} {n : Nat} :
    IsOperand ts e n → ∀ {depth levels : Nat} {rest : List Token}, n ≤ depth → n ≤ levels →
      continues 0 (kindAt rest) = false →
      unary (exprAt depth) levels (z.state (ts ++ rest)) = (some e, z.state rest)
  | .int h, _, _, _, _, _, _ => unary_literal (by rw [literal?, h])
  | .str h, _, _, _, _, _, _ => unary_literal (by rw [literal?, h])
  | .trueWord h, _, _, _, _, _, _ => unary_literal (by rw [literal?, h])
  | .falseWord h, _, _, _, _, _, _ => unary_literal (by rw [literal?, h])
  | .var h, _, _, _, _, _, hrest =>
    (unary_of_none (by rw [List.singleton_append, kindAt_cons, h]; rfl)).trans (primary_var h hrest)
  | .call h hargs, _, _, _, hdepth, hlevels, _ =>
    (unary_of_none (by rw [List.cons_append, kindAt_cons, h]; rfl)).trans
      (primary_call h hargs.kindAt_eq (hargs.reads hdepth hlevels))
  | .memberCall h hdot hmethod hargs, _, _, _, hdepth, hlevels, _ =>
    (unary_of_none (by rw [List.cons_append, kindAt_cons, h]; rfl)).trans
      (primary_memberCall h hdot hmethod (hargs.reads hdepth hlevels))
  | .group hl he hr, _, _, _, hdepth, hlevels, _ => by
    rw [List.cons_append, List.append_assoc, List.singleton_append,
      unary_of_none (by rw [kindAt_cons, hl]; rfl)]
    exact primary_group hl hr (he.reads hdepth hlevels (by rw [kindAt_cons, hr]; rfl))
  | .neg h he, _, _ + 1, _, hdepth, hlevels, hrest =>
    unary_of_some (by rw [h]; rfl) (he.reads (by omega) (by omega) hrest)
  | .not h he, _, _ + 1, _, hdepth, hlevels, hrest =>
    unary_of_some (by rw [h]; rfl) (he.reads (by omega) (by omega) hrest)

theorem IsExpression.reads {ts : List Token} {e : Expr} {n : Nat} :
    IsExpression ts e n → ∀ {depth levels : Nat} {rest : List Token}, n ≤ depth → n ≤ levels →
      continues loosest (kindAt rest) = false →
      exprAt depth levels (z.state (ts ++ rest)) = (some e, z.state rest)
  | .complete h, _ + 1, _ + 1, _, hdepth, hlevels, hrest =>
    (h.reads (by omega) (by omega) (continues_pred hrest)).trans (restOfTier_stop _ _ _ hrest)

theorem IsArgs.reads {ts : List Token} {es : List Expr} {n : Nat} :
    IsArgs ts es n → ∀ {depth levels : Nat} {rest : List Token}, n ≤ depth → n ≤ levels →
      args (exprAt depth levels) (z.state (ts ++ rest)) = (some es, z.state rest)
  | .none hl hr, _, _, _, _, _ => args_none hl hr
  | .some hl h hr, _, _, rest, hdepth, hlevels => by
    have hbound := h.length_le
    rw [List.cons_append, List.append_assoc, List.singleton_append]
    refine args_some hl hr (h.kindAt_ne rfl) (h.reads hdepth hlevels ?_ hr)
    rw [List.length_append]
    omega

theorem IsArgList.reads {ts : List Token} {es : List Expr} {n : Nat} :
    IsArgList ts es n → ∀ {depth levels bound : Nat} {read : List Expr} {rest : List Token},
      n ≤ depth → n ≤ levels → es.length ≤ bound → kindAt rest = .closeParen →
      moreArgs (exprAt depth levels) bound read (z.state (ts ++ rest)) = (some (read.reverse ++ es), z.state rest)
  | .one h, _, _, _ + 1, _, _, hdepth, hlevels, _, hrest =>
    moreArgs_last (h.reads hdepth hlevels (by rw [hrest]; rfl)) (by simp [hrest])
  | .more he hcomma h, _, _, _ + 1, _, _, hdepth, hlevels, hbound, hrest => by
    rw [List.append_assoc, List.cons_append,
      moreArgs_comma hcomma (he.reads (by omega) (by omega) (by rw [kindAt_cons, hcomma]; rfl)),
      h.reads (by omega) (by omega) (Nat.le_of_succ_le_succ hbound) hrest, List.reverse_cons,
      List.append_assoc, List.singleton_append]

end

/-- A complete expression is read up to what does not go on with it. -/
theorem IsExpression.reads_expr {ts : List Token} {e : Expr} {n : Nat} (h : IsExpression ts e n) (hn : n ≤ levels)
    (hrest : continues loosest (kindAt rest) = false) :
    expr levels (z.state (ts ++ rest)) = (some e, z.state rest) :=
  h.reads hn hn hrest

/-! ## Statements -/

theorem IsBlock.kindAt_eq {ts : List Token} {body : List Stmt} {n : Nat} (h : IsBlock ts body n) :
    kindAt (ts ++ rest) = .openBrace := by
  cases h with
  | braces hl => exact hl

theorem IsBranch.kindAt_eq {ts : List Token} {s : Stmt} {n : Nat} (h : IsBranch ts s n) :
    kindAt (ts ++ rest) = .ifWord := by
  cases h with
  | alone h | otherwise h | elseIf h => exact h

theorem IsStatement.kindAt_ne {ts : List Token} {s : Stmt} {n : Nat} (h : IsStatement ts s n)
    {kind : TokenKind} (hkind : beginsStatement kind = false) : kindAt (ts ++ rest) ≠ kind := by
  obtain ⟨t, us, rfl, ht⟩ := h.begins
  rintro rfl
  exact absurd (ht.symm.trans hkind) (by simp)

theorem IsStatements.kindAt_ne {ts : List Token} {body : List Stmt} {n : Nat} (h : IsStatements ts body n)
    {kind : TokenKind} (hrest : kindAt rest ≠ kind) (hkind : beginsStatement kind = false) :
    kindAt (ts ++ rest) ≠ kind := by
  cases h with
  | nil => exact hrest
  | cons hs =>
    rw [List.append_assoc]
    exact hs.kindAt_ne hkind

section
variable {condition : Parser Expr} {body : Parser (List Stmt)} {elseIf : Parser Stmt} {word elseWord : Token}
  {ts us vs : List Token} {c : Expr} {thenBody elseBody : List Stmt} {s : Stmt}

theorem requiredBlock_of_openBrace (hbegin : kindAt rest = .openBrace) :
    requiredBlock body (z.state rest) = body (z.state rest) := by
  rw [requiredBlock, check_bind, hbegin, beq_self_eq_true, if_pos rfl]

theorem branch_eq (body : Nat → Parser (List Stmt)) (levels : Nat) :
    ∃ elseIf, branch body levels = branchOf (expr levels) (body levels) elseIf := by
  cases levels with
  | zero => exact ⟨_, rfl⟩
  | succ levels => exact ⟨_, rfl⟩

theorem branchOf_alone (hc : condition (z.state (ts ++ (us ++ rest))) = (some c, z.state (us ++ rest)))
    (hbegin : kindAt (us ++ rest) = .openBrace) (hthen : body (z.state (us ++ rest)) = (some thenBody, z.state rest))
    (hrest : kindAt rest ≠ .elseWord) :
    branchOf condition body elseIf (z.state (word :: (ts ++ (us ++ rest)))) =
      (some (.branch c thenBody none), z.state rest) := by
  rw [branchOf, advance_bind, bind_of_eq hc, bind_of_eq ((requiredBlock_of_openBrace hbegin).trans hthen),
    eat_bind_of_ne hrest, if_neg (by simp)]
  rfl

theorem branchOf_otherwise (helse : elseWord.kind = .elseWord)
    (hc : condition (z.state (ts ++ (us ++ elseWord :: (vs ++ rest)))) =
      (some c, z.state (us ++ elseWord :: (vs ++ rest))))
    (hbegin : kindAt (us ++ elseWord :: (vs ++ rest)) = .openBrace)
    (hthen : body (z.state (us ++ elseWord :: (vs ++ rest))) =
      (some thenBody, z.state (elseWord :: (vs ++ rest))))
    (hbegin' : kindAt (vs ++ rest) = .openBrace) (hrest : body (z.state (vs ++ rest)) = (some elseBody, z.state rest)) :
    branchOf condition body elseIf (z.state (word :: (ts ++ (us ++ elseWord :: (vs ++ rest))))) =
      (some (.branch c thenBody (some elseBody)), z.state rest) := by
  rw [branchOf, advance_bind, bind_of_eq hc, bind_of_eq ((requiredBlock_of_openBrace hbegin).trans hthen),
    eat_bind_of_kind helse, if_pos rfl, check_bind, hbegin', if_neg (by simp), check_bind, hbegin',
    beq_self_eq_true, if_pos rfl, bind_of_eq hrest]
  rfl

theorem branchOf_elseIf (helse : elseWord.kind = .elseWord)
    (hc : condition (z.state (ts ++ (us ++ elseWord :: (vs ++ rest)))) =
      (some c, z.state (us ++ elseWord :: (vs ++ rest))))
    (hbegin : kindAt (us ++ elseWord :: (vs ++ rest)) = .openBrace)
    (hthen : body (z.state (us ++ elseWord :: (vs ++ rest))) =
      (some thenBody, z.state (elseWord :: (vs ++ rest))))
    (hbegin' : kindAt (vs ++ rest) = .ifWord) (hrest : elseIf (z.state (vs ++ rest)) = (some s, z.state rest)) :
    branchOf condition body elseIf (z.state (word :: (ts ++ (us ++ elseWord :: (vs ++ rest))))) =
      (some (.branch c thenBody (some [s])), z.state rest) := by
  rw [branchOf, advance_bind, bind_of_eq hc, bind_of_eq ((requiredBlock_of_openBrace hbegin).trans hthen),
    eat_bind_of_kind helse, if_pos rfl, check_bind, hbegin', beq_self_eq_true, if_pos rfl, bind_of_eq hrest]
  rfl

end

section
variable {nested : Nat → Parser Stmt} {word name assign semicolon : Token} {ts us : List Token} {e : Expr} {n : Nat}

/-- An expression and the semicolon behind it are read as a statement. -/
theorem ended_reads (make : Expr → Stmt) (he : IsExpression ts e n) (hn : n ≤ levels)
    (hsemicolon : semicolon.kind = .semicolon) :
    (do
      let value ← expr levels
      let _ ← expect .semicolon
      return make value : Parser Stmt) (z.state (ts ++ semicolon :: rest)) = (some (make e), z.state rest) := by
  rw [bind_of_eq (he.reads_expr hn (by rw [kindAt_cons, hsemicolon]; rfl))]
  exact expect_bind hsemicolon fun _ => pure (make e)

theorem statement_declare (hword : word.kind = .letWord) (hname : name.kind = .identifier)
    (hassign : assign.kind = .assign) (he : IsExpression ts e n) (hn : n ≤ levels)
    (hsemicolon : semicolon.kind = .semicolon) :
    statement nested levels (z.state (word :: name :: assign :: (ts ++ semicolon :: rest))) =
      (some (.declare name.text e word.position), z.state rest) := by
  rw [statement, peek_bind, z.next_cons, hword]
  dsimp only
  rw [advance_bind, expect_bind hname, expect_bind hassign]
  exact ended_reads (.declare name.text · word.position) he hn hsemicolon

theorem statement_assign (hname : name.kind = .identifier) (hassign : assign.kind = .assign)
    (he : IsExpression ts e n) (hn : n ≤ levels) (hsemicolon : semicolon.kind = .semicolon) :
    statement nested levels (z.state (name :: assign :: (ts ++ semicolon :: rest))) =
      (some (.assign name.text e name.position), z.state rest) := by
  have hsecond : (z.state (name :: assign :: (ts ++ semicolon :: rest))).rest.next.kind = .assign := hassign
  rw [statement, peek_bind, z.next_cons, hname]
  dsimp only
  rw [peekSecond_bind, hsecond, beq_self_eq_true, if_pos (by simp), advance_bind, advance_bind]
  exact ended_reads (.assign name.text · name.position) he hn hsemicolon

theorem statement_branch {s : Stmt} (hbegin : kindAt (ts ++ rest) = .ifWord)
    (h : branch (fun levels => block (nested levels)) levels (z.state (ts ++ rest)) = (some s, z.state rest)) :
    statement nested levels (z.state (ts ++ rest)) = (some s, z.state rest) := by
  rw [← z.kind_next] at hbegin
  rw [statement, peek_bind, hbegin]
  exact h

theorem statement_loop {body : List Stmt} (hword : word.kind = .whileWord) (he : IsExpression ts e n) (hn : n ≤ levels)
    (hbegin : kindAt (us ++ rest) = .openBrace)
    (hbody : block (nested levels) (z.state (us ++ rest)) = (some body, z.state rest)) :
    statement nested levels (z.state (word :: (ts ++ (us ++ rest)))) = (some (.loop e body), z.state rest) := by
  rw [statement, peek_bind, z.next_cons, hword]
  dsimp only
  rw [advance_bind, bind_of_eq (he.reads_expr hn (by rw [hbegin]; rfl)),
    bind_of_eq ((requiredBlock_of_openBrace hbegin).trans hbody)]
  rfl

theorem statement_retNone (hword : word.kind = .returnWord) (hsemicolon : semicolon.kind = .semicolon) :
    statement nested levels (z.state (word :: semicolon :: rest)) =
      (some (.ret none word.position), z.state rest) := by
  rw [statement, peek_bind, z.next_cons, hword]
  dsimp only
  rw [advance_bind, check_bind, kindAt_cons, hsemicolon, beq_self_eq_true, if_pos rfl]
  exact expect_bind hsemicolon fun _ => (pure (.ret none word.position) : Parser Stmt)

theorem statement_retSome (hword : word.kind = .returnWord) (he : IsExpression ts e n) (hn : n ≤ levels)
    (hsemicolon : semicolon.kind = .semicolon) :
    statement nested levels (z.state (word :: (ts ++ semicolon :: rest))) =
      (some (.ret (some e) word.position), z.state rest) := by
  have hvalue : (some <$> expr levels) (z.state (ts ++ semicolon :: rest)) =
      (some (some e), z.state (semicolon :: rest)) :=
    bind_of_eq (he.reads_expr hn (by rw [kindAt_cons, hsemicolon]; rfl))
  rw [statement, peek_bind, z.next_cons, hword]
  dsimp only
  rw [advance_bind, check_bind, beq_eq_false_iff_ne.2 (he.kindAt_ne rfl), if_neg (by simp), bind_of_eq hvalue]
  exact expect_bind hsemicolon fun _ => (pure (.ret (some e) word.position) : Parser Stmt)

/-- An expression is not taken for an assignment, as there is no single equals sign in it. -/
theorem statement_expr (he : IsExpression ts e n) (hn : n ≤ levels) (hsemicolon : semicolon.kind = .semicolon) :
    statement nested levels (z.state (ts ++ semicolon :: rest)) = (some (.expr e), z.state rest) := by
  have hassign := he.kind_ne_assign
  obtain ⟨t, us, rfl, ht⟩ := he.begins
  have hsecond : (z.state (t :: us ++ semicolon :: rest)).rest.next.kind ≠ .assign := by
    cases us with
    | nil => exact fun h => absurd (hsemicolon.symm.trans h) (by simp)
    | cons u us => exact hassign u (by simp)
  rw [statement, peek_bind]
  have hbegins : beginsExpression (z.state (t :: us ++ semicolon :: rest)).next.kind = true := ht
  generalize (z.state (t :: us ++ semicolon :: rest)).next.kind = kind at hbegins
  -- only kinds that begin an expression are left, and all of them take the last branch
  cases kind with
  | integer | stringLiteral | trueWord | falseWord | identifier | openParen | minus | bang =>
    dsimp only
    rw [peekSecond_bind, beq_eq_false_iff_ne.2 hsecond, Bool.and_false, if_neg (by simp)]
    exact ended_reads .expr he hn hsemicolon
  | _ => exact absurd hbegins Bool.false_ne_true

end

section
variable {statement : Parser Stmt} {ts : List Token}

theorem statements_stop (bound : Nat) (read : List Stmt) (hrest : kindAt rest = .closeBrace) :
    statements statement bound read (z.state rest) = (some read.reverse, z.state rest) := by
  rw [← z.kind_next] at hrest
  cases bound with
  | zero => rfl
  | succ bound =>
    rw [statements, peek_bind, hrest]
    rfl

theorem statements_cons {s : Stmt} {bound : Nat} {read : List Stmt} {n : Nat} (hs : IsStatement ts s n)
    (h : statement (z.state (ts ++ rest)) = (some s, z.state rest)) :
    statements statement (bound + 1) read (z.state (ts ++ rest)) =
      statements statement bound (s :: read) (z.state rest) := by
  have hclose : (z.state (ts ++ rest)).next.kind ≠ .closeBrace := by
    rw [z.kind_next]
    exact hs.kindAt_ne rfl
  have hend : (z.state (ts ++ rest)).next.kind ≠ .endOfInput := by
    rw [z.kind_next]
    exact hs.kindAt_ne rfl
  rw [statements, peek_bind]
  generalize (z.state (ts ++ rest)).next.kind = kind at hclose hend
  cases kind <;> first | contradiction | exact orRecover_bind h

theorem block_braces {l r : Token} {body : List Stmt} (hl : l.kind = .openBrace) (hr : r.kind = .closeBrace)
    (h : statements statement ((ts ++ r :: rest).length + 1) [] (z.state (ts ++ r :: rest)) =
      (some body, z.state (r :: rest))) :
    block statement (z.state (l :: (ts ++ r :: rest))) = (some body, z.state rest) := by
  rw [block, attempt_bind (expect_of_kind hl)]
  dsimp only
  rw [remaining_bind, bind_of_eq h, attempt_bind (expect_of_kind hr)]
  rfl

end

mutual

/-- A statement is read to its end, if no `else` follows. -/
theorem IsStatement.reads {ts : List Token} {s : Stmt} {n : Nat} :
    IsStatement ts s n → ∀ {depth levels : Nat} {rest : List Token}, n ≤ depth → n ≤ levels →
      kindAt rest ≠ .elseWord → stmtAt depth levels (z.state (ts ++ rest)) = (some s, z.state rest)
  | .declare hword hname hassign he hsemicolon, _ + 1, _ + 1, _, _, hlevels, _ => by
    rw [List.cons_append, List.cons_append, List.cons_append, List.append_assoc, List.singleton_append]
    exact statement_declare hword hname hassign he (Nat.le_of_succ_le_succ hlevels) hsemicolon
  | .assign hname hassign he hsemicolon, _ + 1, _ + 1, _, _, hlevels, _ => by
    rw [List.cons_append, List.cons_append, List.append_assoc, List.singleton_append]
    exact statement_assign hname hassign he (Nat.le_of_succ_le_succ hlevels) hsemicolon
  | .branch h, _ + 1, _ + 1, _, hdepth, hlevels, hrest =>
    statement_branch h.kindAt_eq
      (h.reads (Nat.le_of_succ_le_succ hdepth) (Nat.le_of_succ_le_succ hlevels) hrest)
  | .loop hword he h, _ + 1, _ + 1, _, hdepth, hlevels, _ => by
    rw [List.cons_append, List.append_assoc]
    exact statement_loop hword he (by omega) h.kindAt_eq (h.reads (by omega) (by omega))
  | .retNone hword hsemicolon, _ + 1, _ + 1, _, _, _, _ => statement_retNone hword hsemicolon
  | .retSome hword he hsemicolon, _ + 1, _ + 1, _, _, hlevels, _ => by
    rw [List.cons_append, List.append_assoc, List.singleton_append]
    exact statement_retSome hword he (Nat.le_of_succ_le_succ hlevels) hsemicolon
  | .expr he hsemicolon, _ + 1, _ + 1, _, _, hlevels, _ => by
    rw [List.append_assoc, List.singleton_append]
    exact statement_expr he (Nat.le_of_succ_le_succ hlevels) hsemicolon

theorem IsBranch.reads {ts : List Token} {s : Stmt} {n : Nat} :
    IsBranch ts s n → ∀ {depth levels : Nat} {rest : List Token}, n ≤ depth → n ≤ levels →
      kindAt rest ≠ .elseWord →
      branch (fun levels => block (stmtAt depth levels)) levels (z.state (ts ++ rest)) = (some s, z.state rest)
  | .alone hword hc hthen, depth, levels, _, hdepth, hlevels, hrest => by
    obtain ⟨elseIf, hbranch⟩ := branch_eq (fun levels => block (stmtAt depth levels)) levels
    rw [hbranch, List.cons_append, List.append_assoc]
    exact branchOf_alone (hc.reads_expr (by omega) (by rw [hthen.kindAt_eq]; rfl)) hthen.kindAt_eq
      (hthen.reads (by omega) (by omega)) hrest
  | .otherwise hword hc hthen helse h, depth, levels, _, hdepth, hlevels, _ => by
    obtain ⟨elseIf, hbranch⟩ := branch_eq (fun levels => block (stmtAt depth levels)) levels
    rw [hbranch, List.cons_append, List.append_assoc, List.append_assoc, List.cons_append]
    exact branchOf_otherwise helse (hc.reads_expr (by omega) (by rw [hthen.kindAt_eq]; rfl)) hthen.kindAt_eq
      (hthen.reads (by omega) (by omega)) h.kindAt_eq (h.reads (by omega) (by omega))
  | .elseIf hword hc hthen helse h, depth, levels, _, hdepth, hlevels, hrest => by
    cases levels with
    | zero => omega
    | succ levels =>
      rw [branch, List.cons_append, List.append_assoc, List.append_assoc, List.cons_append]
      exact branchOf_elseIf helse (hc.reads_expr (by omega) (by rw [hthen.kindAt_eq]; rfl)) hthen.kindAt_eq
        (hthen.reads (by omega) (by omega)) h.kindAt_eq (h.reads (by omega) (by omega) hrest)

theorem IsBlock.reads {ts : List Token} {body : List Stmt} {n : Nat} :
    IsBlock ts body n → ∀ {depth levels : Nat} {rest : List Token}, n ≤ depth → n ≤ levels →
      block (stmtAt depth levels) (z.state (ts ++ rest)) = (some body, z.state rest)
  | .braces hl h hr, _, _, _, hdepth, hlevels => by
    have hbound := h.length_le
    rw [List.cons_append, List.append_assoc, List.singleton_append]
    refine block_braces hl hr (h.reads hdepth hlevels ?_ hr)
    rw [List.length_append]
    omega

theorem IsStatements.reads {ts : List Token} {body : List Stmt} {n : Nat} :
    IsStatements ts body n → ∀ {depth levels bound : Nat} {read : List Stmt} {rest : List Token},
      n ≤ depth → n ≤ levels → body.length ≤ bound → kindAt rest = .closeBrace →
      statements (stmtAt depth levels) bound read (z.state (ts ++ rest)) =
        (some (read.reverse ++ body), z.state rest)
  | .nil, _, _, bound, read, _, _, _, _, hrest => by
    rw [List.append_nil]
    exact statements_stop bound read hrest
  | .cons hs h, _, _, bound + 1, read, _, hdepth, hlevels, hbound, hrest => by
    have hnext : kindAt (_ ++ _) ≠ .elseWord := h.kindAt_ne (by rw [hrest]; simp) rfl
    rw [List.append_assoc, statements_cons hs (hs.reads (by omega) (by omega) hnext),
      h.reads (by omega) (by omega) (Nat.le_of_succ_le_succ hbound) hrest, List.reverse_cons,
      List.append_assoc, List.singleton_append]

end

theorem IsBlock.reads_block {ts : List Token} {body : List Stmt} {n : Nat} (h : IsBlock ts body n)
    (hn : n ≤ levels) : block (stmt levels) (z.state (ts ++ rest)) = (some body, z.state rest) := by
  have hstmt : stmt levels = stmtAt levels levels := rfl
  rw [hstmt]
  exact h.reads hn hn

/-! ## Paths and parameters -/

theorem IsSeparated.head {separator : TokenKind} {ts words : List Token} (h : IsSeparated separator ts words) :
    ∃ t us ws, ts = t :: us ∧ words = t :: ws ∧ t.kind = .identifier := by
  cases h with
  | one ht | more ht => exact ⟨_, _, _, rfl, rfl, ht⟩

theorem moreSegments_stop (bound : Nat) (read : List String) (hrest : kindAt rest ≠ .dot) :
    moreSegments bound read (z.state rest) = (some read.reverse, z.state rest) := by
  cases bound with
  | zero => rfl
  | succ bound =>
    rw [moreSegments, eat_bind_of_ne hrest, if_neg (by simp)]
    rfl

theorem IsSeparated.reads_moreSegments {ts words : List Token} (h : IsSeparated .dot ts words) {bound : Nat}
    {read : List String} (hbound : words.length ≤ bound + 1) (hrest : kindAt rest ≠ .dot) :
    moreSegments bound read (z.state (ts.tail ++ rest)) =
      (some (read.reverse ++ words.tail.map Token.text), z.state rest) := by
  induction h generalizing bound read with
  | one =>
    rw [List.tail_cons, List.map_nil, List.append_nil]
    exact moreSegments_stop bound read hrest
  | more ht hdot h ih =>
    obtain ⟨word, us, ws, rfl, rfl, hword⟩ := h.head
    cases bound with
    | zero =>
      rw [List.length_cons, List.length_cons] at hbound
      omega
    | succ bound =>
      have hmore : moreSegments bound (word.text :: read) (z.state (us ++ rest)) = _ :=
        ih (Nat.le_of_succ_le_succ hbound)
      rw [List.tail_cons, List.cons_append, List.cons_append, moreSegments, eat_bind_of_kind hdot, if_pos rfl,
        expect_bind hword, hmore, List.reverse_cons, List.append_assoc, List.singleton_append]
      rfl

theorem IsPath.reads {ts : List Token} {segments : List String} (h : IsPath ts segments)
    (hrest : kindAt rest ≠ .dot) : path (z.state (ts ++ rest)) = (some segments, z.state rest) := by
  obtain ⟨words, h, rfl⟩ := h
  have hbound := h.length_le
  obtain ⟨first, us, ws, rfl, rfl, hfirst⟩ := h.head
  rw [path, List.cons_append, expect_bind hfirst, remaining_bind]
  refine (h.reads_moreSegments ?_ hrest).trans rfl
  rw [List.length_append]
  simp only [List.length_cons] at hbound ⊢
  omega

theorem IsSeparated.reads_moreParams {ts words : List Token} (h : IsSeparated .comma ts words) {bound : Nat}
    {read : List (String × Position)} (hbound : words.length ≤ bound) (hrest : kindAt rest ≠ .comma) :
    moreParams bound read (z.state (ts ++ rest)) =
      (some (read.reverse ++ words.map fun t => (t.text, t.position)), z.state rest) := by
  induction h generalizing bound read with
  | one ht =>
    obtain ⟨bound, rfl⟩ := Nat.exists_eq_add_one.2 (Nat.zero_lt_of_lt hbound)
    rw [List.singleton_append, moreParams, expect_bind ht]
    show (eat .comma >>= _) _ = _
    rw [eat_bind_of_ne hrest, if_neg (by simp), List.reverse_cons]
    rfl
  | more ht hcomma h ih =>
    obtain ⟨bound, rfl⟩ := Nat.exists_eq_add_one.2 (Nat.zero_lt_of_lt hbound)
    rw [List.cons_append, List.cons_append, moreParams, expect_bind ht]
    show (eat .comma >>= _) _ = _
    rw [eat_bind_of_kind hcomma, if_pos rfl, ih (Nat.le_of_succ_le_succ hbound), List.reverse_cons,
      List.append_assoc, List.singleton_append, List.map_cons]

/-! ## Units -/

theorem IsImport.reads {ts : List Token} {i : Import} (h : IsImport ts i) :
    importDecl (z.state (ts ++ rest)) = (some i, z.state rest) := by
  cases h with
  | path hword hpath hlength hsemicolon =>
    rw [List.cons_append, List.append_assoc, List.singleton_append, importDecl, expect_bind hword,
      bind_of_eq (hpath.reads (by rw [kindAt_cons, hsemicolon]; simp)), if_neg (by omega)]
    show (expect .semicolon >>= _) _ = _
    rw [expect_bind hsemicolon]
    rfl

theorem IsParams.reads_header {ts : List Token} {params : List (String × Position)} {name l r : Token}
    (hname : name.kind = .identifier) (hl : l.kind = .openParen) (h : IsParams ts params)
    (hr : r.kind = .closeParen) :
    functionHeader (z.state (name :: l :: (ts ++ r :: rest))) = (some (name, params), z.state rest) := by
  rw [functionHeader, expect_bind hname, expect_bind hl, check_bind]
  obtain ⟨rfl, rfl⟩ | ⟨words, h, rfl⟩ := h
  · rw [List.nil_append, kindAt_cons, hr, beq_self_eq_true, if_pos rfl]
    exact expect_bind hr fun _ => pure (name, [])
  · have hbound := h.length_le
    have hbegin : kindAt (ts ++ r :: rest) ≠ .closeParen := by
      obtain ⟨t, us, _, rfl, _, ht⟩ := h.head
      rw [List.cons_append, kindAt_cons, ht]
      simp
    rw [beq_eq_false_iff_ne.2 hbegin, if_neg (by simp)]
    show (remaining >>= _) _ = _
    rw [remaining_bind, bind_of_eq (h.reads_moreParams ?_ (by rw [kindAt_cons, hr]; simp))]
    · exact expect_bind hr fun _ => pure (name, words.map fun t => (t.text, t.position))
    · rw [List.length_append]
      omega

theorem IsFunction.reads {ts : List Token} {f : FunctionDecl} {n : Nat} (h : IsFunction ts f n)
    (hn : n ≤ maxNesting) : function (z.state (ts ++ rest)) = (some (some f), z.state rest) := by
  cases h with
  | mk hword hname hl hparams hr hbody =>
    rw [List.cons_append, List.cons_append, List.cons_append, List.append_assoc, List.cons_append, function,
      advance_bind, attempt_bind (hparams.reads_header hname hl hr)]
    dsimp only
    rw [if_neg (by simp), check_bind, hbody.kindAt_eq, beq_self_eq_true, if_pos rfl,
      bind_of_eq (hbody.reads_block hn)]
    rfl

theorem functions_stop (bound : Nat) (read : List FunctionDecl) (hrest : kindAt rest = .closeBrace) :
    functions bound read (z.state rest) = (some read.reverse, z.state rest) := by
  rw [← z.kind_next] at hrest
  cases bound with
  | zero => rfl
  | succ bound =>
    rw [functions, peek_bind, hrest]
    rfl

theorem functions_cons {ts : List Token} {f : FunctionDecl} {n bound : Nat} {read : List FunctionDecl}
    (h : IsFunction ts f n) (hn : n ≤ maxNesting) :
    functions (bound + 1) read (z.state (ts ++ rest)) = functions bound (f :: read) (z.state rest) := by
  have hnext : (z.state (ts ++ rest)).next.kind = .fnWord := by
    cases h with
    | mk hword => exact hword
  rw [functions, peek_bind, hnext]
  exact bind_of_eq (h.reads hn)

theorem IsFunctions.reads {ts : List Token} {fs : List FunctionDecl} {n bound : Nat} {read : List FunctionDecl}
    (h : IsFunctions ts fs n) (hn : n ≤ maxNesting) (hbound : fs.length ≤ bound)
    (hrest : kindAt rest = .closeBrace) :
    functions bound read (z.state (ts ++ rest)) = (some (read.reverse ++ fs), z.state rest) := by
  induction h generalizing bound read with
  | nil =>
    rw [List.append_nil]
    exact functions_stop bound read hrest
  | cons hf _ ih =>
    obtain ⟨bound, rfl⟩ := Nat.exists_eq_add_one.2 (Nat.zero_lt_of_lt hbound)
    rw [List.append_assoc, functions_cons hf (by omega), ih (by omega) (Nat.le_of_succ_le_succ hbound),
      List.reverse_cons, List.append_assoc, List.singleton_append]

theorem IsPlugin.reads {ts : List Token} {p : PluginDecl} {n : Nat} (h : IsPlugin ts p n) (hn : n ≤ maxNesting) :
    plugin (z.state (ts ++ rest)) = (some (some p), z.state rest) := by
  cases h with
  | @mk word name colon first l r ts us supertype fs n hword hname hcolon hpath hl hfs hr =>
    have hheader : pluginHeader (z.state (name :: colon :: first :: (ts ++ l :: (us ++ r :: rest)))) =
        (some (name, first.position, supertype), z.state (l :: (us ++ r :: rest))) := by
      rw [pluginHeader, expect_bind hname, expect_bind hcolon, peek_bind, z.next_cons]
      show (path >>= _) _ = _
      rw [← List.cons_append, bind_of_eq (hpath.reads (by rw [kindAt_cons, hl]; simp))]
      rfl
    have hbound := hfs.length_le
    have hfunctions : functions ((us ++ r :: rest).length + 1) [] (z.state (us ++ r :: rest)) =
        (some fs, z.state (r :: rest)) := by
      refine hfs.reads hn ?_ hr
      rw [List.length_append]
      omega
    simp only [List.cons_append, List.append_assoc, List.nil_append]
    rw [plugin, advance_bind, attempt_bind hheader]
    dsimp only
    rw [if_neg (by simp), attempt_bind (expect_of_kind hl)]
    dsimp only
    rw [remaining_bind, bind_of_eq hfunctions, attempt_bind (expect_of_kind hr)]
    rfl

theorem unit_import {ts us : List Token} {i : Import} {bound : Nat} {read : ParsedUnit} (h : IsImport ts i) :
    unit (bound + 1) read (z.state (ts ++ us)) =
      unit bound { read with imports := read.imports ++ [i] } (z.state us) := by
  have hnext : (z.state (ts ++ us)).next.kind = .importWord := by
    cases h with
    | path hword => exact hword
  rw [unit, peek_bind, hnext]
  exact orRecover_bind h.reads

theorem unit_plugin {ts us : List Token} {p : PluginDecl} {n bound : Nat} {read : ParsedUnit} (h : IsPlugin ts p n)
    (hn : n ≤ maxNesting) (hread : read.plugin.isSome = false) :
    unit (bound + 1) read (z.state (ts ++ us)) = unit bound { read with plugin := some p } (z.state us) := by
  have hnext : (z.state (ts ++ us)).next.kind = .pluginWord := by
    cases h with
    | mk hword => exact hword
  rw [unit, peek_bind, hnext]
  dsimp only
  rw [bind_of_eq (h.reads hn), hread, if_neg (by simp)]

/-- All of a unit is read, behind what was read of it before. -/
theorem IsUnit.reads {ts : List Token} {u : ParsedUnit} {n bound : Nat} {read : ParsedUnit} (h : IsUnit ts u n)
    (hn : n ≤ maxNesting) (hbound : ts.length < bound) (hread : read.plugin.isSome → u.plugin = none) :
    unit bound read (z.state ts) = (some (read.append u), z.state []) := by
  induction h generalizing bound read with
  | nil =>
    obtain ⟨bound, rfl⟩ := Nat.exists_eq_add_one.2 (Nat.zero_lt_of_lt hbound)
    rw [unit, peek_bind, z.kind_next, ParsedUnit.append_empty]
    rfl
  | @addImport ts us i u n hi _ ih =>
    obtain ⟨bound, rfl⟩ := Nat.exists_eq_add_one.2 (Nat.zero_lt_of_lt hbound)
    have hpos := hi.length_pos
    rw [List.length_append] at hbound
    have hrest : unit bound { read with imports := read.imports ++ [i] } (z.state us) = _ :=
      ih hn (by omega) hread
    rw [unit_import hi, hrest, ParsedUnit.append, ParsedUnit.append, List.append_assoc, List.singleton_append]
  | addPlugin hp _ hnone ih =>
    obtain ⟨bound, rfl⟩ := Nat.exists_eq_add_one.2 (Nat.zero_lt_of_lt hbound)
    have hpos := hp.length_pos
    rw [List.length_append] at hbound
    have hfirst : read.plugin = none := by
      cases hplugin : read.plugin with
      | none => rfl
      | some p => exact absurd (hread (by simp [hplugin])) (by simp)
    refine (unit_plugin hp (by omega) (by simp [hfirst])).trans
      ((ih (by omega) (by omega) fun _ => hnone).trans ?_)
    rw [ParsedUnit.append, ParsedUnit.append, hfirst, hnone]
    rfl

end Grammar

/-! ## Source texts -/

/-- **The parser accepts exactly its grammar.** A source text is read as a unit without errors exactly if it has no
lexical error, and all its tokens, in order, are a unit of the grammar that needs no more than `maxNesting` levels;
the unit that is read is then the one that is derived, so there is no other. -/
theorem ParsedUnit.ofSource_eq_iff (source : String) (u : ParsedUnit) :
    ofSource source = (u, []) ↔
      (Lexed.ofSource source).errors = [] ∧
        Grammar.Within maxNesting Grammar.IsUnit (Lexed.ofSource source).tokens u := by
  let lexed := Lexed.ofSource source
  let start : ParserState := { tokens := lexed.tokens, endToken := lexed.endToken, errors := [] }
  have hkinds : ∀ t ∈ start.tokens, t.kind ≠ .endOfInput :=
    fun t ht => (Lexed.names_tokens source t ht).1
  have hofSource : ofSource source =
      ((Parser.unit (start.tokens.length + 1) ⟨[], none⟩ start).1.getD ⟨[], none⟩,
        (lexed.errors ++ (Parser.unit (start.tokens.length + 1) ⟨[], none⟩ start).2.errors.reverse).mergeSort
          fun e f => e.position.le f.position) := rfl
  constructor
  · intro h
    rw [hofSource] at h
    obtain ⟨hunit, herrors⟩ := Prod.mk.inj h
    have hnone := List.eq_nil_of_length_eq_zero ((List.length_mergeSort _).symm.trans (congrArg List.length herrors))
    obtain ⟨hlexed, hrecorded⟩ := List.append_eq_nil_iff.1 hnone
    obtain ⟨_, htakes⟩ := Parser.takes_unit (start.tokens.length + 1) ⟨[], none⟩ start rfl
    obtain ⟨read, ts, hread, _, htokens⟩ := htakes (List.reverse_eq_nil_iff.1 hrecorded)
    obtain ⟨rfl, v, rfl, hv, _⟩ := htokens (Nat.lt_succ_self _) hkinds
    rw [hread, Option.getD_some, empty_append] at hunit
    exact ⟨hlexed, hunit ▸ hv⟩
  · rintro ⟨hlexed, n, hn, hu⟩
    have hreads : Parser.unit (start.tokens.length + 1) ⟨[], none⟩ start = (some (append ⟨[], none⟩ u), _) :=
      hu.reads (z := ⟨lexed.endToken, [], rfl⟩) hn (Nat.lt_succ_self _) nofun
    have herrors : lexed.errors = [] := hlexed
    rw [hofSource, hreads, empty_append, herrors]
    exact congrArg (Prod.mk u) (List.mergeSort_nil)

end PluginSandbox
