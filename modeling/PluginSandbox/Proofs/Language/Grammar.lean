import PluginSandbox.Language.Tree

/-!
# The grammar

Which sequences of tokens are expressions, statements, functions and units, and what trees they are read as.  Each
relation holds of all the tokens of a construct, in order, of the tree, and of the number of nesting levels that
the construct needs:

* a statement, a complete expression, the operand of a unary operator and the branch behind `else` each need one
  level;
* the operator that is the `k`-th one of its chain needs `k` levels for its right operand, and the first operand of
  a chain needs none.

The binary operators have six tiers, from the tightest (`1`) to the loosest (`6`); tier `0` is an operand without
binary operators.  `IsTier tier k` is a chain of `k` operators of that tier.  It is left-recursive, as the operators
associate to the left.
-/

namespace PluginSandbox
namespace Grammar

/-! ## Expressions -/

/-- The binary operators with their tiers, and what they make of two operands, given the place of the operator. -/
inductive BinaryOperator : Nat → TokenKind → (Expr → Expr → Position → Expr) → Prop
  | mul : BinaryOperator 1 .star (.binary .mul)
  | div : BinaryOperator 1 .slash (.binary .div)
  | rem : BinaryOperator 1 .percent (.binary .rem)
  | add : BinaryOperator 2 .plus (.binary .add)
  | sub : BinaryOperator 2 .minus (.binary .sub)
  | lt : BinaryOperator 3 .less (.binary .lt)
  | le : BinaryOperator 3 .lessEqual (.binary .le)
  | gt : BinaryOperator 3 .greater (.binary .gt)
  | ge : BinaryOperator 3 .greaterEqual (.binary .ge)
  | eq : BinaryOperator 4 .equal (.binary .eq)
  | ne : BinaryOperator 4 .notEqual (.binary .ne)
  | and : BinaryOperator 5 .andAnd .and
  | or : BinaryOperator 6 .orOr .or

/-- The loosest tier, which has all expressions. -/
def loosest : Nat := 6

mutual

/-- A chain of a number of operators of a tier. -/
inductive IsTier : Nat → Nat → List Token → Expr → Nat → Prop
  | operand {ts : List Token} {e : Expr} {n : Nat} : IsOperand ts e n → IsTier 0 0 ts e n
  | single {tier k : Nat} {ts : List Token} {e : Expr} {n : Nat} :
      IsTier tier k ts e n → IsTier (tier + 1) 0 ts e n
  -- `k` operators go before this one, so its right operand lies `k + 1` levels down
  | join {tier k j : Nat} {ls rs : List Token} {t : Token} {left right e : Expr} {n m : Nat}
      {make : Expr → Expr → Position → Expr} :
      IsTier (tier + 1) k ls left n → BinaryOperator (tier + 1) t.kind make → IsTier tier j rs right m →
      e = make left right t.position → IsTier (tier + 1) (k + 1) (ls ++ t :: rs) e (max n (k + 1 + m))

/-- An operand of binary operators. -/
inductive IsOperand : List Token → Expr → Nat → Prop
  | int {t : Token} {value : Int64} : t.kind = .integer value → IsOperand [t] (.int value t.position) 0
  | str {t : Token} : t.kind = .stringLiteral → IsOperand [t] (.str t.text t.position) 0
  | trueWord {t : Token} : t.kind = .trueWord → IsOperand [t] (.bool true t.position) 0
  | falseWord {t : Token} : t.kind = .falseWord → IsOperand [t] (.bool false t.position) 0
  | var {t : Token} : t.kind = .identifier → IsOperand [t] (.var t.text t.position) 0
  | call {t : Token} {ts : List Token} {es : List Expr} {n : Nat} :
      t.kind = .identifier → IsArgs ts es n → IsOperand (t :: ts) (.call t.text es t.position) n
  | memberCall {t dot method : Token} {ts : List Token} {es : List Expr} {n : Nat} :
      t.kind = .identifier → dot.kind = .dot → method.kind = .identifier → IsArgs ts es n →
      IsOperand (t :: dot :: method :: ts) (.memberCall t.text method.text es t.position) n
  | group {l r : Token} {ts : List Token} {e : Expr} {n : Nat} :
      l.kind = .openParen → IsExpression ts e n → r.kind = .closeParen → IsOperand (l :: (ts ++ [r])) e n
  | neg {t : Token} {ts : List Token} {e : Expr} {n : Nat} :
      t.kind = .minus → IsOperand ts e n → IsOperand (t :: ts) (.neg e t.position) (n + 1)
  | not {t : Token} {ts : List Token} {e : Expr} {n : Nat} :
      t.kind = .bang → IsOperand ts e n → IsOperand (t :: ts) (.not e t.position) (n + 1)

/-- A complete expression. -/
inductive IsExpression : List Token → Expr → Nat → Prop
  | complete {k : Nat} {ts : List Token} {e : Expr} {n : Nat} :
      IsTier loosest k ts e n → IsExpression ts e (n + 1)

/-- The arguments of a call, with their parentheses. -/
inductive IsArgs : List Token → List Expr → Nat → Prop
  | none {l r : Token} : l.kind = .openParen → r.kind = .closeParen → IsArgs [l, r] [] 0
  | some {l r : Token} {ts : List Token} {es : List Expr} {n : Nat} :
      l.kind = .openParen → IsArgList ts es n → r.kind = .closeParen → IsArgs (l :: (ts ++ [r])) es n

/-- At least one argument, with commas between them. -/
inductive IsArgList : List Token → List Expr → Nat → Prop
  | one {ts : List Token} {e : Expr} {n : Nat} : IsExpression ts e n → IsArgList ts [e] n
  | more {ts rest : List Token} {comma : Token} {e : Expr} {es : List Expr} {n m : Nat} :
      IsExpression ts e n → comma.kind = .comma → IsArgList rest es m →
      IsArgList (ts ++ comma :: rest) (e :: es) (max n m)

end

/-- A chain of operators of a tier, however many. -/
def InTier (tier : Nat) (ts : List Token) (e : Expr) (n : Nat) : Prop :=
  ∃ k, IsTier tier k ts e n

/-- A relation that holds for no more than a number of levels. -/
def Within {α : Type} (levels : Nat) (R : List Token → α → Nat → Prop) (ts : List Token) (a : α) : Prop :=
  ∃ n ≤ levels, R ts a n

/-! ## Statements -/

mutual

/-- A statement. -/
inductive IsStatement : List Token → Stmt → Nat → Prop
  | declare {word name assign semicolon : Token} {ts : List Token} {e : Expr} {n : Nat} :
      word.kind = .letWord → name.kind = .identifier → assign.kind = .assign → IsExpression ts e n →
      semicolon.kind = .semicolon →
      IsStatement (word :: name :: assign :: (ts ++ [semicolon])) (.declare name.text e word.position) (n + 1)
  | assign {name assign semicolon : Token} {ts : List Token} {e : Expr} {n : Nat} :
      name.kind = .identifier → assign.kind = .assign → IsExpression ts e n →
      semicolon.kind = .semicolon →
      IsStatement (name :: assign :: (ts ++ [semicolon])) (.assign name.text e name.position) (n + 1)
  | branch {ts : List Token} {s : Stmt} {n : Nat} : IsBranch ts s n → IsStatement ts s (n + 1)
  | loop {word : Token} {ts us : List Token} {c : Expr} {body : List Stmt} {n m : Nat} :
      word.kind = .whileWord → IsExpression ts c n → IsBlock us body m →
      IsStatement (word :: (ts ++ us)) (.loop c body) (max n m + 1)
  | retNone {word semicolon : Token} :
      word.kind = .returnWord → semicolon.kind = .semicolon →
      IsStatement [word, semicolon] (.ret none word.position) 1
  | retSome {word semicolon : Token} {ts : List Token} {e : Expr} {n : Nat} :
      word.kind = .returnWord → IsExpression ts e n → semicolon.kind = .semicolon →
      IsStatement (word :: (ts ++ [semicolon])) (.ret (some e) word.position) (n + 1)
  | expr {semicolon : Token} {ts : List Token} {e : Expr} {n : Nat} :
      IsExpression ts e n → semicolon.kind = .semicolon → IsStatement (ts ++ [semicolon]) (.expr e) (n + 1)

/-- A branch, without the level that it needs as a statement. -/
inductive IsBranch : List Token → Stmt → Nat → Prop
  | alone {word : Token} {ts us : List Token} {c : Expr} {thenBody : List Stmt} {n m : Nat} :
      word.kind = .ifWord → IsExpression ts c n → IsBlock us thenBody m →
      IsBranch (word :: (ts ++ us)) (.branch c thenBody none) (max n m)
  | otherwise {word elseWord : Token} {ts us vs : List Token} {c : Expr} {thenBody elseBody : List Stmt}
      {n m k : Nat} :
      word.kind = .ifWord → IsExpression ts c n → IsBlock us thenBody m → elseWord.kind = .elseWord →
      IsBlock vs elseBody k →
      IsBranch (word :: (ts ++ (us ++ elseWord :: vs))) (.branch c thenBody (some elseBody)) (max n (max m k))
  | elseIf {word elseWord : Token} {ts us vs : List Token} {c : Expr} {thenBody : List Stmt} {s : Stmt}
      {n m k : Nat} :
      word.kind = .ifWord → IsExpression ts c n → IsBlock us thenBody m → elseWord.kind = .elseWord →
      IsBranch vs s k →
      IsBranch (word :: (ts ++ (us ++ elseWord :: vs))) (.branch c thenBody (some [s])) (max n (max m (k + 1)))

/-- A block with its braces. -/
inductive IsBlock : List Token → List Stmt → Nat → Prop
  | braces {l r : Token} {ts : List Token} {body : List Stmt} {n : Nat} :
      l.kind = .openBrace → IsStatements ts body n → r.kind = .closeBrace → IsBlock (l :: (ts ++ [r])) body n

/-- Statements in a row. -/
inductive IsStatements : List Token → List Stmt → Nat → Prop
  | nil : IsStatements [] [] 0
  | cons {ts us : List Token} {s : Stmt} {body : List Stmt} {n m : Nat} :
      IsStatement ts s n → IsStatements us body m → IsStatements (ts ++ us) (s :: body) (max n m)

end

/-! ## Units -/

/-- A word and more of them behind separators. -/
inductive IsSeparated (separator : TokenKind) : List Token → List Token → Prop
  | one {t : Token} : t.kind = .identifier → IsSeparated separator [t] [t]
  | more {t sep : Token} {ts words : List Token} :
      t.kind = .identifier → sep.kind = separator → IsSeparated separator ts words →
      IsSeparated separator (t :: sep :: ts) (t :: words)

/-- A path: identifiers with full stops between them. -/
def IsPath (ts : List Token) (segments : List String) : Prop :=
  ∃ words, IsSeparated .dot ts words ∧ segments = words.map Token.text

/-- The parameters of a function: identifiers with commas between them, or nothing. -/
def IsParams (ts : List Token) (params : List (String × Position)) : Prop :=
  ts = [] ∧ params = [] ∨
    ∃ words, IsSeparated .comma ts words ∧ params = words.map fun t => (t.text, t.position)

/-- An import, which names a package and a symbol. -/
inductive IsImport : List Token → Import → Prop
  | path {word semicolon : Token} {ts : List Token} {segments : List String} :
      word.kind = .importWord → IsPath ts segments → 2 ≤ segments.length → semicolon.kind = .semicolon →
      IsImport (word :: (ts ++ [semicolon])) { segments, position := word.position }

/-- A function. -/
inductive IsFunction : List Token → FunctionDecl → Nat → Prop
  | mk {word name l r : Token} {ts us : List Token} {params : List (String × Position)} {body : List Stmt}
      {n : Nat} :
      word.kind = .fnWord → name.kind = .identifier → l.kind = .openParen → IsParams ts params →
      r.kind = .closeParen → IsBlock us body n →
      IsFunction (word :: name :: l :: (ts ++ r :: us))
        { name := name.text, position := name.position, params, body } n

/-- Functions in a row. -/
inductive IsFunctions : List Token → List FunctionDecl → Nat → Prop
  | nil : IsFunctions [] [] 0
  | cons {ts us : List Token} {f : FunctionDecl} {fs : List FunctionDecl} {n m : Nat} :
      IsFunction ts f n → IsFunctions us fs m → IsFunctions (ts ++ us) (f :: fs) (max n m)

/-- A plugin. -/
inductive IsPlugin : List Token → PluginDecl → Nat → Prop
  | mk {word name colon first l r : Token} {ts us : List Token} {supertype : List String}
      {functions : List FunctionDecl} {n : Nat} :
      word.kind = .pluginWord → name.kind = .identifier → colon.kind = .colon →
      IsPath (first :: ts) supertype → l.kind = .openBrace → IsFunctions us functions n →
      r.kind = .closeBrace →
      IsPlugin (word :: name :: colon :: first :: (ts ++ l :: (us ++ [r])))
        { name := name.text, position := name.position, supertype, supertypePosition := first.position
          functions } n

/-- A unit: imports in any number and one plugin at most, in any order. -/
inductive IsUnit : List Token → ParsedUnit → Nat → Prop
  | nil : IsUnit [] ⟨[], none⟩ 0
  | addImport {ts us : List Token} {i : Import} {u : ParsedUnit} {n : Nat} :
      IsImport ts i → IsUnit us u n → IsUnit (ts ++ us) { u with imports := i :: u.imports } n
  | addPlugin {ts us : List Token} {p : PluginDecl} {u : ParsedUnit} {n m : Nat} :
      IsPlugin ts p n → IsUnit us u m → u.plugin = none →
      IsUnit (ts ++ us) { u with plugin := some p } (max n m)

/-! ## How phrases begin, and what is not in them -/

/-- The kinds of tokens that begin an expression. -/
def beginsExpression : TokenKind → Bool
  | .integer _ | .stringLiteral | .trueWord | .falseWord | .identifier | .openParen | .minus | .bang => true
  | _ => false

/-- The kinds of tokens that begin a statement. -/
def beginsStatement : TokenKind → Bool
  | .letWord | .ifWord | .whileWord | .returnWord => true
  | kind => beginsExpression kind

theorem IsOperand.begins {ts : List Token} {e : Expr} {n : Nat} (h : IsOperand ts e n) :
    ∃ t us, ts = t :: us ∧ beginsExpression t.kind = true := by
  cases h with
  | int h | str h | trueWord h | falseWord h | var h | call h | memberCall h | group h | neg h | not h =>
    exact ⟨_, _, rfl, by rw [h]; rfl⟩

theorem IsTier.begins {tier k : Nat} {ts : List Token} {e : Expr} {n : Nat} :
    IsTier tier k ts e n → ∃ t us, ts = t :: us ∧ beginsExpression t.kind = true
  | .operand h => h.begins
  | .single h => h.begins
  | .join hleft _ _ _ => by
    obtain ⟨t, us, rfl, ht⟩ := hleft.begins
    exact ⟨t, _, rfl, ht⟩

theorem IsExpression.begins {ts : List Token} {e : Expr} {n : Nat} :
    IsExpression ts e n → ∃ t us, ts = t :: us ∧ beginsExpression t.kind = true
  | .complete h => h.begins

theorem IsStatement.begins {ts : List Token} {s : Stmt} {n : Nat} (h : IsStatement ts s n) :
    ∃ t us, ts = t :: us ∧ beginsStatement t.kind = true := by
  cases h with
  | declare h | assign h | loop h | retNone h | retSome h => exact ⟨_, _, rfl, by rw [h]; rfl⟩
  | branch h =>
    cases h with
    | alone h | otherwise h | elseIf h => exact ⟨_, _, rfl, by rw [h]; rfl⟩
  | expr he =>
    obtain ⟨t, us, rfl, ht⟩ := he.begins
    refine ⟨t, _, rfl, ?_⟩
    rw [beginsStatement.eq_def]
    split <;> first | rfl | exact ht

mutual

/-- No expression has a single equals sign. -/
theorem IsTier.kind_ne_assign {tier k : Nat} {ts : List Token} {e : Expr} {n : Nat} :
    IsTier tier k ts e n → ∀ t ∈ ts, t.kind ≠ .assign
  | .operand h => h.kind_ne_assign
  | .single h => h.kind_ne_assign
  | .join hleft hop hright _ => by
    refine List.forall_mem_append.2 ⟨hleft.kind_ne_assign, List.forall_mem_cons.2 ⟨?_, hright.kind_ne_assign⟩⟩
    intro h
    rw [h] at hop
    cases hop

theorem IsOperand.kind_ne_assign {ts : List Token} {e : Expr} {n : Nat} :
    IsOperand ts e n → ∀ t ∈ ts, t.kind ≠ .assign
  | .int h | .str h | .trueWord h | .falseWord h | .var h => by simp [h]
  | .call h hargs => by simpa [h] using hargs.kind_ne_assign
  | .memberCall h hdot hmethod hargs => by simpa [h, hdot, hmethod] using hargs.kind_ne_assign
  | .group hl he hr => by simpa [hl, hr, or_imp, forall_and] using he.kind_ne_assign
  | .neg h he | .not h he => by simpa [h] using he.kind_ne_assign

theorem IsExpression.kind_ne_assign {ts : List Token} {e : Expr} {n : Nat} :
    IsExpression ts e n → ∀ t ∈ ts, t.kind ≠ .assign
  | .complete h => h.kind_ne_assign

theorem IsArgs.kind_ne_assign {ts : List Token} {es : List Expr} {n : Nat} :
    IsArgs ts es n → ∀ t ∈ ts, t.kind ≠ .assign
  | .none hl hr => by simp [hl, hr]
  | .some hl hargs hr => by simpa [hl, hr, or_imp, forall_and] using hargs.kind_ne_assign

theorem IsArgList.kind_ne_assign {ts : List Token} {es : List Expr} {n : Nat} :
    IsArgList ts es n → ∀ t ∈ ts, t.kind ≠ .assign
  | .one h => h.kind_ne_assign
  | .more he hcomma hrest => by
    refine List.forall_mem_append.2 ⟨he.kind_ne_assign, List.forall_mem_cons.2 ⟨?_, hrest.kind_ne_assign⟩⟩
    simp [hcomma]

end

/-! ## Lengths -/

theorem IsArgList.length_le {ts : List Token} {es : List Expr} {n : Nat} :
    IsArgList ts es n → es.length ≤ ts.length
  | .one h => by
    obtain ⟨t, us, rfl, _⟩ := h.begins
    simp
  | .more _ _ hrest => by
    have h := hrest.length_le
    rw [List.length_cons, List.length_append, List.length_cons]
    omega

theorem IsStatements.length_le {ts : List Token} {body : List Stmt} {n : Nat} :
    IsStatements ts body n → body.length ≤ ts.length
  | .nil => Nat.le_refl 0
  | .cons hs hrest => by
    obtain ⟨t, us, rfl, _⟩ := hs.begins
    have h := hrest.length_le
    rw [List.length_cons, List.length_append, List.length_cons]
    omega

theorem IsSeparated.length_le {separator : TokenKind} {ts words : List Token}
    (h : IsSeparated separator ts words) : words.length ≤ ts.length := by
  induction h with
  | one => exact Nat.le_refl 1
  | more _ _ _ ih =>
    rw [List.length_cons, List.length_cons, List.length_cons]
    omega

theorem IsFunction.length_pos {ts : List Token} {f : FunctionDecl} {n : Nat} (h : IsFunction ts f n) :
    0 < ts.length := by
  cases h
  exact Nat.succ_pos _

theorem IsFunctions.length_le {ts : List Token} {fs : List FunctionDecl} {n : Nat} (h : IsFunctions ts fs n) :
    fs.length ≤ ts.length := by
  induction h with
  | nil => exact Nat.le_refl 0
  | cons hf _ ih =>
    have hpos := hf.length_pos
    rw [List.length_cons, List.length_append]
    omega

theorem IsImport.length_pos {ts : List Token} {i : Import} (h : IsImport ts i) : 0 < ts.length := by
  cases h
  exact Nat.succ_pos _

theorem IsPlugin.length_pos {ts : List Token} {p : PluginDecl} {n : Nat} (h : IsPlugin ts p n) :
    0 < ts.length := by
  cases h
  exact Nat.succ_pos _

end Grammar
end PluginSandbox
