import PluginSandbox.Proofs.Language.Derived
import PluginSandbox.Proofs.Language.Positions

/-!
# Where trees stand

Every place in the tree of a text is a place of the text, and so is every place that a syntax error points at.

The parser takes places from tokens only.  So what one parser has to be known for is that it keeps to the places of
a text: given tokens and errors that stand there, it leaves tokens and errors that stand there, and what it returns
stands there too (`Parser.Places`).  A sequence of such parsers is one again, and the parser of a unit is put together
from them.  This holds whether a text has errors or not, because what is returned is looked at wherever a parser
does not fail, and the state wherever it ends.
-/

namespace PluginSandbox

/-! ## Trees -/

mutual

/-- Every place in an expression is a place of a text. -/
def Expr.StandsIn (text : List Char) : Expr → Prop
  | .int _ p | .str _ p | .bool _ p | .var _ p => p.IsIn text
  | .call _ es p | .memberCall _ _ es p => p.IsIn text ∧ ArgsStandIn text es
  | .neg operand p | .not operand p => p.IsIn text ∧ operand.StandsIn text
  | .binary _ left right p | .and left right p | .or left right p =>
    p.IsIn text ∧ left.StandsIn text ∧ right.StandsIn text

/-- Every place in arguments is a place of a text. -/
def ArgsStandIn (text : List Char) : List Expr → Prop
  | [] => True
  | e :: rest => e.StandsIn text ∧ ArgsStandIn text rest

end

mutual

/-- Every place in a statement is a place of a text. -/
def Stmt.StandsIn (text : List Char) : Stmt → Prop
  | .declare _ value p | .assign _ value p => p.IsIn text ∧ value.StandsIn text
  | .branch condition thenBody elseBody =>
    condition.StandsIn text ∧ BodyStandsIn text thenBody ∧ OptionalStandsIn text elseBody
  | .loop condition body => condition.StandsIn text ∧ BodyStandsIn text body
  | .ret none p => p.IsIn text
  | .ret (some value) p => p.IsIn text ∧ value.StandsIn text
  | .expr value => value.StandsIn text

/-- Every place in the statements of a block is a place of a text. -/
def BodyStandsIn (text : List Char) : List Stmt → Prop
  | [] => True
  | s :: rest => s.StandsIn text ∧ BodyStandsIn text rest

/-- Every place in a block that may be missing is a place of a text. -/
def OptionalStandsIn (text : List Char) : Option (List Stmt) → Prop
  | none => True
  | some stmts => BodyStandsIn text stmts

end

/-- Every place in a function is a place of a text. -/
structure FunctionDecl.StandsIn (text : List Char) (f : FunctionDecl) : Prop where
  position : f.position.IsIn text
  params : ∀ param ∈ f.params, param.2.IsIn text
  body : BodyStandsIn text f.body

/-- Every place in a plugin is a place of a text. -/
structure PluginDecl.StandsIn (text : List Char) (p : PluginDecl) : Prop where
  position : p.position.IsIn text
  supertypePosition : p.supertypePosition.IsIn text
  functions : ∀ f ∈ p.functions, f.StandsIn text

/-- Every place in a unit is a place of a text. -/
structure ParsedUnit.StandsIn (text : List Char) (u : ParsedUnit) : Prop where
  imports : ∀ i ∈ u.imports, i.position.IsIn text
  plugin : ∀ p, u.plugin = some p → p.StandsIn text

variable {text : List Char}

theorem argsStandIn_iff {es : List Expr} : ArgsStandIn text es ↔ ∀ e ∈ es, e.StandsIn text := by
  induction es with
  | nil => simp [ArgsStandIn]
  | cons e es ih => rw [ArgsStandIn, ih, List.forall_mem_cons]

theorem bodyStandsIn_iff {stmts : List Stmt} : BodyStandsIn text stmts ↔ ∀ s ∈ stmts, s.StandsIn text := by
  induction stmts with
  | nil => simp [BodyStandsIn]
  | cons s stmts ih => rw [BodyStandsIn, ih, List.forall_mem_cons]

theorem Grammar.BinaryOperator.standsIn_iff {tier : Nat} {kind : TokenKind} {make : Expr → Expr → Position → Expr}
    (h : BinaryOperator tier kind make) (left right : Expr) (pos : Position) :
    (make left right pos).StandsIn text ↔ pos.IsIn text ∧ left.StandsIn text ∧ right.StandsIn text := by
  cases h <;> rfl

/-! ## Parsers -/

/-- The tokens that a parser works on stand at places of a text, and the errors that were recorded point at such
places. -/
structure ParserState.Placed (text : List Char) (s : ParserState) : Prop where
  tokens : ∀ t ∈ s.tokens, t.position.IsIn text
  endToken : s.endToken.position.IsIn text
  errors : ∀ e ∈ s.errors, e.Points text

/-- The next token stands at a place of the text, and so does the end of the input if there is none. -/
theorem ParserState.Placed.next {s : ParserState} (h : s.Placed text) : s.next.position.IsIn text := by
  rw [ParserState.next]
  cases htokens : s.tokens with
  | nil => exact h.endToken
  | cons t tokens => exact h.tokens t (htokens ▸ List.mem_cons_self)

namespace Parser

variable {α β : Type} {P : α → Prop} {Q : β → Prop}

/-- A parser keeps to the places of a text, and what it returns has a property. -/
def Places (text : List Char) (p : Parser α) (P : α → Prop) : Prop :=
  ∀ s : ParserState, s.Placed text → (p s).2.Placed text ∧ ∀ a, (p s).1 = some a → P a

theorem places_pure {a : α} (h : P a) : Places text (pure a) P := by
  refine fun s hs => ⟨hs, fun b hb => ?_⟩
  obtain rfl := Option.some.inj hb
  exact h

/-- What was read before is returned in order. -/
theorem places_reverse {read : List α} (hread : ∀ a ∈ read, P a) :
    Places text (pure read.reverse) fun l => ∀ a ∈ l, P a :=
  places_pure fun a ha => hread a (List.mem_reverse.1 ha)

theorem places_fail : Places text (fail : Parser α) P :=
  fun _ hs => ⟨hs, fun _ ha => absurd ha (by simp [fail])⟩

theorem Places.bind {p : Parser α} {f : α → Parser β} (hp : Places text p P)
    (hf : ∀ a, P a → Places text (f a) Q) : Places text (p >>= f) Q := by
  intro s hs
  obtain ⟨hs', hP⟩ := hp s hs
  rw [bind_apply]
  generalize p s = outcome at hs' hP
  obtain ⟨result, s'⟩ := outcome
  cases result with
  | none => exact ⟨hs', fun _ hb => absurd hb (by simp)⟩
  | some a => exact hf a (hP a rfl) s' hs'

/-- A parser that only looks at the state. -/
theorem places_look {p : Parser α} (h : ∀ s, (p s).2 = s) : Places text p fun _ => True :=
  fun s hs => ⟨(h s).symm ▸ hs, fun _ _ => trivial⟩

theorem places_peek : Places text peek fun t => t.position.IsIn text := by
  refine fun s hs => ⟨hs, fun t ht => ?_⟩
  obtain rfl := Option.some.inj ht
  exact hs.next

theorem places_peekSecond : Places text peekSecond fun _ => True :=
  places_look fun _ => rfl

theorem places_remaining : Places text remaining fun _ => True :=
  places_look fun _ => rfl

theorem places_check (kind : TokenKind) : Places text (check kind) fun _ => True :=
  places_look fun _ => rfl

/-- A parser that drops some tokens. -/
theorem places_drop {p : Parser α} (h : ∀ s, ∃ tokens, tokens.Sublist s.tokens ∧ (p s).2 = { s with tokens }) :
    Places text p fun _ => True := by
  intro s hs
  obtain ⟨tokens, hsublist, hstate⟩ := h s
  rw [hstate]
  exact ⟨⟨fun t ht => hs.tokens t (hsublist.subset ht), hs.endToken, hs.errors⟩, fun _ _ => trivial⟩

theorem places_skipTo (test : TokenKind → Bool) : Places text (skipTo test) fun _ => True :=
  places_drop fun _ => ⟨_, List.dropWhile_sublist _, rfl⟩

theorem places_recover : Places text recover fun _ => True :=
  places_drop fun _ => ⟨_, (afterStatement_suffix _ _).sublist, rfl⟩

theorem places_advance : Places text advance fun t => t.position.IsIn text := by
  intro s hs
  have hdrop : Places text advance fun _ => True := places_drop fun _ => ⟨_, List.tail_sublist _, rfl⟩
  refine ⟨(hdrop s hs).1, fun t ht => ?_⟩
  obtain rfl := Option.some.inj ht
  exact hs.next

theorem places_report {problem : SyntaxProblem} {p : Position} (hp : p.IsIn text)
    (hproblem : problem ≠ .unknownEscape '\n') : Places text (report problem p) fun _ => True :=
  fun _ hs => ⟨⟨hs.tokens, hs.endToken, List.forall_mem_cons.2
    ⟨SyntaxError.points_of_isIn hp hproblem, hs.errors⟩⟩, fun _ _ => trivial⟩

theorem places_reportExpected (expected : String) : Places text (reportExpected expected) fun _ => True :=
  places_peek.bind fun _ ht => places_report ht (by simp)

theorem places_failExpected (expected : String) : Places text (failExpected expected : Parser α) P :=
  (places_reportExpected expected).bind fun _ _ => places_fail

theorem places_failTooDeep : Places text (failTooDeep : Parser α) P :=
  places_peek.bind fun _ ht => (places_report ht (by simp)).bind fun _ _ => places_fail

theorem places_expect (kind : TokenKind) : Places text (expect kind) fun t => t.position.IsIn text := by
  refine (places_check kind).bind fun found _ => ?_
  split
  · exact places_advance
  · exact places_failExpected _

theorem places_eat (kind : TokenKind) : Places text (eat kind) fun _ => True := by
  refine (places_check kind).bind fun found _ => ?_
  split
  · exact places_advance.bind fun _ _ => places_pure trivial
  · exact places_pure trivial

theorem Places.attempt {p : Parser α} (h : Places text p P) :
    Places text (attempt p) fun result => ∀ a, result = some a → P a := by
  refine fun s hs => ⟨(h s hs).1, fun result hresult a ha => (h s hs).2 a ?_⟩
  have hsome : some (p s).1 = some result := hresult
  exact (Option.some.inj hsome).trans ha

theorem Places.orRecover {p : Parser α} (h : Places text p P) :
    Places text (orRecover p) fun result => ∀ a, result = some a → P a := by
  refine h.attempt.bind fun result hresult => ?_
  cases result with
  | some a => exact places_pure hresult
  | none => exact places_recover.bind fun _ _ => places_pure nofun

/-- Something that may be skipped before the rest is read. -/
theorem places_skip_bind {c : Bool} {p : Parser Unit} (hp : Places text p fun _ => True) {next : Unit → Parser β}
    (hnext : Places text (next ()) Q) : Places text (if c = true then p >>= next else next ()) Q := by
  split
  · exact hp.bind fun _ _ => hnext
  · exact hnext

/-! ## Expressions -/

theorem places_chainTail {tier : Nat} {operand : Nat → Parser Expr}
    (hoperand : ∀ levels, Places text (operand levels) (Expr.StandsIn text)) (levels : Nat) {left : Expr}
    (hleft : left.StandsIn text) :
    Places text (chainTail (operatorsOf (tier + 1)) operand levels left) (Expr.StandsIn text) := by
  induction levels generalizing left with
  | zero =>
    refine places_peek.bind fun t _ => ?_
    cases operatorsOf (tier + 1) t.kind with
    | none => exact places_pure hleft
    | some make => exact places_failTooDeep
  | succ levels ih =>
    refine places_peek.bind fun t _ => ?_
    cases hmake : operatorsOf (tier + 1) t.kind with
    | none => exact places_pure hleft
    | some make =>
      refine places_advance.bind fun t ht => (hoperand levels).bind fun right hright => ih ?_
      exact ((operatorsOf_eq_some.1 hmake).standsIn_iff left right t.position).2 ⟨ht, hleft, hright⟩

theorem places_moreArgs {arg : Parser Expr} (harg : Places text arg (Expr.StandsIn text)) (bound : Nat)
    {read : List Expr} (hread : ∀ e ∈ read, e.StandsIn text) :
    Places text (moreArgs arg bound read) fun es => ∀ e ∈ es, e.StandsIn text := by
  induction bound generalizing read with
  | zero => exact places_reverse hread
  | succ bound ih =>
    refine harg.bind fun e he => (places_eat .comma).bind fun eaten _ => ?_
    have hmore : ∀ e' ∈ e :: read, e'.StandsIn text := List.forall_mem_cons.2 ⟨he, hread⟩
    cases eaten with
    | true => exact ih hmore
    | false => exact places_reverse hmore

theorem places_args {arg : Parser Expr} (harg : Places text arg (Expr.StandsIn text)) :
    Places text (args arg) (ArgsStandIn text) := by
  have hclose : ∀ es : List Expr, (∀ e ∈ es, e.StandsIn text) →
      Places text (do let _ ← expect .closeParen; return es) (ArgsStandIn text) :=
    fun es hes => (places_expect _).bind fun _ _ => places_pure (argsStandIn_iff.2 hes)
  refine (places_expect _).bind fun _ _ => (places_check _).bind fun empty _ => ?_
  split
  · exact (places_pure (P := fun es => ∀ e ∈ es, e.StandsIn text) (by simp)).bind hclose
  · exact places_remaining.bind fun bound _ => (places_moreArgs harg (bound + 1) (by simp)).bind hclose

theorem places_primary {nested : Parser Expr} (hnested : Places text nested (Expr.StandsIn text)) :
    Places text (primary nested) (Expr.StandsIn text) := by
  refine places_peek.bind fun t ht => ?_
  cases t.kind with
  | integer | stringLiteral | trueWord | falseWord => exact places_advance.bind fun _ _ => places_pure ht
  | openParen =>
    exact places_advance.bind fun _ _ => hnested.bind fun e he => (places_expect _).bind fun _ _ => places_pure he
  | identifier =>
    refine places_advance.bind fun _ _ => (places_check _).bind fun called _ => ?_
    split
    · exact (places_args hnested).bind fun es hes => places_pure ⟨ht, hes⟩
    · refine (places_eat _).bind fun member _ => ?_
      split
      · exact (places_expect _).bind fun method _ => (places_args hnested).bind fun es hes => places_pure ⟨ht, hes⟩
      · exact places_pure ht
  | _ => exact places_failExpected _

theorem places_unary {nested : Nat → Parser Expr}
    (hnested : ∀ levels, Places text (nested levels) (Expr.StandsIn text)) (levels : Nat) :
    Places text (unary nested levels) (Expr.StandsIn text) := by
  induction levels with
  | zero =>
    refine places_peek.bind fun t _ => ?_
    split
    · exact places_primary (hnested 0)
    · exact places_advance.bind fun _ _ => places_failTooDeep
  | succ levels ih =>
    refine places_peek.bind fun t _ => ?_
    split
    · exact places_primary (hnested _)
    · next apply happly =>
      refine places_advance.bind fun t ht => ih.bind fun e he => places_pure ?_
      obtain ⟨_, rfl⟩ | ⟨_, rfl⟩ := unaryOperator?_cases happly
      · exact ⟨ht, he⟩
      · exact ⟨ht, he⟩

theorem places_atTier {nested : Nat → Parser Expr}
    (hnested : ∀ levels, Places text (nested levels) (Expr.StandsIn text)) (tier levels : Nat) :
    Places text (atTier nested tier levels) (Expr.StandsIn text) := by
  induction tier generalizing levels with
  | zero => exact places_unary hnested levels
  | succ tier ih => exact (ih levels).bind fun first hfirst => places_chainTail ih levels hfirst

theorem places_exprAt (depth levels : Nat) : Places text (exprAt depth levels) (Expr.StandsIn text) :=
  exprAt_induction (P := fun _ p => Places text p (Expr.StandsIn text)) (fun _ => places_failTooDeep)
    (fun _ hnested => places_atTier hnested Grammar.loosest) depth levels

theorem places_expr (levels : Nat) : Places text (expr levels) (Expr.StandsIn text) :=
  places_exprAt levels levels

/-! ## Statements -/

theorem places_statements {statement : Parser Stmt} (hstatement : Places text statement (Stmt.StandsIn text))
    (bound : Nat) {read : List Stmt} (hread : ∀ s ∈ read, s.StandsIn text) :
    Places text (statements statement bound read) fun stmts => ∀ s ∈ stmts, s.StandsIn text := by
  induction bound generalizing read with
  | zero => exact places_reverse hread
  | succ bound ih =>
    refine places_peek.bind fun t _ => ?_
    split
    · exact places_reverse hread
    · exact places_reverse hread
    · refine hstatement.orRecover.bind fun result hresult => ?_
      cases result with
      | none => exact ih hread
      | some s => exact ih (List.forall_mem_cons.2 ⟨hresult s rfl, hread⟩)

theorem places_block {statement : Parser Stmt} (hstatement : Places text statement (Stmt.StandsIn text)) :
    Places text (block statement) (BodyStandsIn text) := by
  refine (places_expect _).attempt.bind fun opened _ => ?_
  split
  · exact places_pure trivial
  · refine places_remaining.bind fun bound _ => (places_statements hstatement (bound + 1) (by simp)).bind ?_
    exact fun body hbody => (places_expect _).attempt.bind fun _ _ => places_pure (bodyStandsIn_iff.2 hbody)

theorem places_requiredBlock {body : Parser (List Stmt)} {R : List Stmt → Prop} (hbody : Places text body R) :
    Places text (requiredBlock body) R := by
  refine (places_check _).bind fun opened _ => ?_
  split
  · exact hbody
  · exact places_failExpected _

theorem places_branchOf {condition : Parser Expr} {body : Parser (List Stmt)} {elseIf : Parser Stmt}
    (hcondition : Places text condition (Expr.StandsIn text)) (hbody : Places text body (BodyStandsIn text))
    (helseIf : Places text elseIf (Stmt.StandsIn text)) :
    Places text (branchOf condition body elseIf) (Stmt.StandsIn text) := by
  refine places_advance.bind fun _ _ => hcondition.bind fun c hc => ?_
  refine (places_requiredBlock hbody).bind fun thenBody hthen => (places_eat _).bind fun elsewhere _ => ?_
  split
  · refine (places_check _).bind fun again _ => ?_
    split
    · exact helseIf.bind fun s hs => places_pure ⟨hc, hthen, hs, trivial⟩
    · refine (places_check _).bind fun opened _ => ?_
      split
      · exact hbody.bind fun elseBody helse => places_pure ⟨hc, hthen, helse⟩
      · exact places_failExpected _
  · exact places_pure ⟨hc, hthen, trivial⟩

theorem places_branch {body : Nat → Parser (List Stmt)}
    (hbody : ∀ levels, Places text (body levels) (BodyStandsIn text)) (levels : Nat) :
    Places text (branch body levels) (Stmt.StandsIn text) := by
  induction levels with
  | zero => exact places_branchOf (places_expr 0) (hbody 0) places_failTooDeep
  | succ levels ih => exact places_branchOf (places_expr _) (hbody _) ih

/-- A statement that goes above one expression. -/
theorem places_ended (levels : Nat) {make : Expr → Stmt}
    (hmake : ∀ e : Expr, e.StandsIn text → (make e).StandsIn text) :
    Places text (do
      let value ← expr levels
      let _ ← expect .semicolon
      return make value) (Stmt.StandsIn text) :=
  (places_expr levels).bind fun e he => (places_expect _).bind fun _ _ => places_pure (hmake e he)

theorem places_ret (levels : Nat) {p : Position} (hp : p.IsIn text) :
    Places text (do
      let _ ← advance
      let value ← if ← check .semicolon then pure none else some <$> expr levels
      let _ ← expect .semicolon
      return Stmt.ret value p) (Stmt.StandsIn text) := by
  refine places_advance.bind fun _ _ => (places_check _).bind fun empty _ => ?_
  split
  · refine (places_pure (P := (· = none)) rfl).bind fun value hvalue => (places_expect _).bind fun _ _ => ?_
    subst hvalue
    exact places_pure hp
  · refine Places.bind (P := fun value => ∃ e, value = some e ∧ e.StandsIn text) ?_ ?_
    · exact (places_expr levels).bind fun e he => places_pure ⟨e, rfl, he⟩
    · rintro _ ⟨e, rfl, he⟩
      exact (places_expect _).bind fun _ _ => places_pure ⟨hp, he⟩

theorem places_statement {nested : Nat → Parser Stmt}
    (hnested : ∀ levels, Places text (nested levels) (Stmt.StandsIn text)) (levels : Nat) :
    Places text (statement nested levels) (Stmt.StandsIn text) := by
  refine places_peek.bind fun t ht => ?_
  split
  · refine places_advance.bind fun _ _ => (places_expect _).bind fun name _ => (places_expect _).bind fun _ _ => ?_
    exact places_ended levels fun _ he => ⟨ht, he⟩
  · exact places_branch (fun levels => places_block (hnested levels)) levels
  · refine places_advance.bind fun _ _ => (places_expr levels).bind fun c hc => ?_
    exact (places_requiredBlock (places_block (hnested levels))).bind fun body hbody => places_pure ⟨hc, hbody⟩
  · exact places_ret levels ht
  · refine places_peekSecond.bind fun second _ => ?_
    split
    · exact places_advance.bind fun _ _ => places_advance.bind fun _ _ =>
        places_ended levels fun _ he => ⟨ht, he⟩
    · exact places_ended levels fun _ he => he

theorem places_stmtAt (depth levels : Nat) : Places text (stmtAt depth levels) (Stmt.StandsIn text) :=
  stmtAt_induction (P := fun _ p => Places text p (Stmt.StandsIn text)) (fun _ => places_failTooDeep)
    (fun _ hnested => places_statement hnested) depth levels

/-! ## Units -/

theorem places_moreSegments (bound : Nat) (read : List String) :
    Places text (moreSegments bound read) fun _ => True := by
  induction bound generalizing read with
  | zero => exact places_pure trivial
  | succ bound ih =>
    refine (places_eat _).bind fun more _ => ?_
    split
    · exact (places_expect _).bind fun t _ => ih _
    · exact places_pure trivial

theorem places_path : Places text path fun _ => True :=
  (places_expect _).bind fun _ _ => places_remaining.bind fun _ _ => places_moreSegments _ _

theorem places_importDecl : Places text importDecl fun i => i.position.IsIn text := by
  refine (places_expect _).bind fun start hstart => places_path.bind fun segments _ => ?_
  split
  · exact (places_report hstart (by simp)).bind fun _ _ => places_fail.bind fun _ h => h
  · exact (places_expect _).bind fun _ _ => places_pure hstart

theorem places_moreParams (bound : Nat) {read : List (String × Position)}
    (hread : ∀ param ∈ read, param.2.IsIn text) :
    Places text (moreParams bound read) fun params => ∀ param ∈ params, param.2.IsIn text := by
  induction bound generalizing read with
  | zero => exact places_reverse hread
  | succ bound ih =>
    refine (places_expect _).bind fun t ht => (places_eat .comma).bind fun more _ => ?_
    have hmore : ∀ param ∈ (t.text, t.position) :: read, param.2.IsIn text := List.forall_mem_cons.2 ⟨ht, hread⟩
    split
    · exact ih hmore
    · exact places_reverse hmore

theorem places_functionHeader : Places text functionHeader fun header =>
    header.1.position.IsIn text ∧ ∀ param ∈ header.2, param.2.IsIn text := by
  refine (places_expect _).bind fun name hname => (places_expect _).bind fun _ _ => ?_
  have hclose : ∀ params : List (String × Position), (∀ param ∈ params, param.2.IsIn text) →
      Places text (do let _ ← expect .closeParen; return (name, params)) fun header =>
        header.1.position.IsIn text ∧ ∀ param ∈ header.2, param.2.IsIn text :=
    fun params hparams => (places_expect _).bind fun _ _ => places_pure ⟨hname, hparams⟩
  refine (places_check _).bind fun empty _ => ?_
  split
  · exact (places_pure (P := fun params => ∀ param ∈ params, param.2.IsIn text) (by simp)).bind hclose
  · exact places_remaining.bind fun bound _ => (places_moreParams (bound + 1) (by simp)).bind hclose

theorem places_function : Places text function fun result => ∀ f, result = some f → f.StandsIn text := by
  refine places_advance.bind fun _ _ => places_functionHeader.attempt.bind fun header hheader => ?_
  have hend : ∀ body : List Stmt, BodyStandsIn text body →
      Places text (return header.map fun h =>
        ({ name := h.1.text, position := h.1.position, params := h.2, body } : FunctionDecl)) fun result =>
          ∀ f, result = some f → f.StandsIn text := by
    refine fun body hbody => places_pure fun f hf => ?_
    obtain ⟨h, hh, rfl⟩ := Option.map_eq_some_iff.1 hf
    exact ⟨(hheader h hh).1, (hheader h hh).2, hbody⟩
  refine places_skip_bind (places_skipTo _) ((places_check _).bind fun opened _ => ?_)
  split
  · exact (places_block (places_stmtAt _ _)).bind hend
  · exact places_skip_bind (places_reportExpected _) ((places_pure (show BodyStandsIn text [] from trivial)).bind hend)

theorem places_functions (bound : Nat) {read : List FunctionDecl} (hread : ∀ f ∈ read, f.StandsIn text) :
    Places text (functions bound read) fun fs => ∀ f ∈ fs, f.StandsIn text := by
  induction bound generalizing read with
  | zero => exact places_reverse hread
  | succ bound ih =>
    refine places_peek.bind fun t _ => ?_
    split
    · exact places_reverse hread
    · exact places_reverse hread
    · refine places_function.bind fun result hresult => ?_
      cases result with
      | none => exact ih hread
      | some f => exact ih (List.forall_mem_cons.2 ⟨hresult f rfl, hread⟩)
    · exact (places_reportExpected _).bind fun _ _ => places_advance.bind fun _ _ =>
        (places_skipTo _).bind fun _ _ => ih hread

theorem places_pluginHeader : Places text pluginHeader fun header =>
    header.1.position.IsIn text ∧ header.2.1.IsIn text :=
  (places_expect _).bind fun _ hname => (places_expect _).bind fun _ _ => places_peek.bind fun _ hsupertype =>
    places_path.bind fun _ _ => places_pure ⟨hname, hsupertype⟩

theorem places_plugin : Places text plugin fun result => ∀ p, result = some p → p.StandsIn text := by
  refine places_advance.bind fun _ _ => places_pluginHeader.attempt.bind fun header hheader => ?_
  refine places_skip_bind (places_skipTo _) ((places_expect _).attempt.bind fun opened _ => ?_)
  split
  · exact places_pure nofun
  · refine places_remaining.bind fun bound _ => (places_functions (bound + 1) (by simp)).bind fun fs hfs => ?_
    refine (places_expect _).attempt.bind fun _ _ => places_pure fun p hp => ?_
    obtain ⟨h, hh, rfl⟩ := Option.map_eq_some_iff.1 hp
    exact ⟨(hheader h hh).1, (hheader h hh).2, hfs⟩

theorem places_unit (bound : Nat) {read : ParsedUnit} (hread : read.StandsIn text) :
    Places text (unit bound read) (ParsedUnit.StandsIn text) := by
  induction bound generalizing read with
  | zero => exact places_pure hread
  | succ bound ih =>
    refine places_peek.bind fun t ht => ?_
    split
    · exact places_pure hread
    · refine places_importDecl.orRecover.bind fun result hresult => ?_
      cases result with
      | none => exact ih hread
      | some i =>
        refine ih ⟨fun i' hi' => ?_, hread.plugin⟩
        rcases List.mem_append.1 hi' with hi' | hi'
        · exact hread.imports i' hi'
        · exact List.mem_singleton.1 hi' ▸ hresult i rfl
    · refine places_plugin.bind fun result hresult => ?_
      split
      · exact (places_report ht (by simp)).bind fun _ _ => ih hread
      · exact ih ⟨hread.imports, hresult⟩
    · exact (places_reportExpected _).bind fun _ _ => places_advance.bind fun _ _ =>
        (places_skipTo _).bind fun _ _ => ih hread

end Parser

/-! ## Source texts -/

namespace ParsedUnit

/-- What the parser makes of the tokens of a text. -/
theorem placed_ofSource (source : String) :
    (ofSource source).1.StandsIn source.toList ∧ ∀ e ∈ (ofSource source).2, e.Points source.toList := by
  have hstart : ParserState.Placed source.toList
      { tokens := (Lexed.ofSource source).tokens, endToken := (Lexed.ofSource source).endToken, errors := [] } :=
    ⟨Lexed.isIn_tokens source, Lexed.isIn_stop source, fun _ h => absurd h List.not_mem_nil⟩
  have hnone : StandsIn source.toList ⟨[], none⟩ := ⟨fun _ h => absurd h List.not_mem_nil, nofun⟩
  obtain ⟨hstate, hparsed⟩ := Parser.places_unit ((Lexed.ofSource source).tokens.length + 1) hnone _ hstart
  rw [ofSource]
  dsimp only
  generalize Parser.unit _ _ _ = outcome at hstate hparsed
  obtain ⟨result, state⟩ := outcome
  constructor
  · cases result with
    | none => exact hnone
    | some parsed => exact hparsed parsed rfl
  · intro e he
    rcases List.mem_append.1 (List.mem_mergeSort.1 he) with he | he
    · exact Lexed.points_errors source e he
    · exact hstate.errors e (List.mem_reverse.1 he)

/-- The errors of a text are in the order of their places. -/
theorem pairwise_errors (source : String) :
    (ofSource source).2.Pairwise fun e f => e.position.le f.position = true := by
  rw [ofSource]
  refine List.pairwise_mergeSort ?_ ?_ _
  · intro e f g hef hfg
    simp only [Position.le, Bool.or_eq_true, Bool.and_eq_true, decide_eq_true_iff, beq_iff_eq] at hef hfg ⊢
    omega
  · intro e f
    simp only [Position.le, Bool.or_eq_true, Bool.and_eq_true, decide_eq_true_iff, beq_iff_eq]
    omega

end ParsedUnit
end PluginSandbox
