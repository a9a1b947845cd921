import PluginSandbox.Language.Parser.Basic

/-!
# What parsers read

`Parser.ReadsAt` says of a parser at a state that it reads some number of tokens, and what holds of its result
and of that number unless it fails.  A sequence of parsers reads the sum of what they read, so the size of a
tree can be compared with the number of tokens that it was read from.

The states are those of a text that the lexer has read (`ParserState.Sound`): the last token is the end of the
input and no other one is, and every identifier is one.
-/

namespace PluginSandbox

namespace ParserState

/-- The next token. -/
def next (s : ParserState) : Token :=
  s.tokens.head?.getD s.endToken

/-- The state behind the next token. -/
def rest (s : ParserState) : ParserState :=
  { s with tokens := s.tokens.tail }

/-- The tokens are ones that the lexer may give. -/
structure Sound (s : ParserState) : Prop where
  endToken : s.endToken.kind = .endOfInput
  identifiers : ∀ t ∈ s.tokens, t.kind = .identifier → isIdentifier t.text = true

theorem Sound.of_sublist {s s' : ParserState} (h : s.Sound) (htokens : s'.tokens.Sublist s.tokens)
    (hend : s'.endToken = s.endToken) : s'.Sound :=
  ⟨hend ▸ h.endToken, fun t ht => h.identifiers t (htokens.subset ht)⟩

theorem Sound.rest {s : ParserState} (h : s.Sound) : s.rest.Sound :=
  h.of_sublist (List.tail_sublist _) rfl

/-- Only the end of the input is not there to be read. -/
theorem Sound.length_rest {s : ParserState} (h : s.Sound) (hnext : s.next.kind ≠ .endOfInput) :
    s.rest.tokens.length + 1 = s.tokens.length := by
  cases htokens : s.tokens with
  | nil =>
    rw [next, htokens] at hnext
    exact absurd h.endToken hnext
  | cons t tokens => rw [ParserState.rest, htokens, List.tail_cons, List.length_cons]

/-- The text of an identifier that is next is one. -/
theorem Sound.isIdentifier_next {s : ParserState} (h : s.Sound)
    (hnext : s.next.kind = .identifier) : isIdentifier s.next.text = true := by
  cases htokens : s.tokens with
  | nil =>
    rw [next, htokens] at hnext
    exact absurd (hnext.symm.trans h.endToken) (by simp)
  | cons t tokens =>
    have hmem : s.next ∈ s.tokens := by
      rw [next, htokens]
      exact List.mem_cons_self
    exact h.identifiers _ hmem hnext

end ParserState

namespace Parser

variable {α β : Type} {s : ParserState} {P Q : α → Nat → Prop}

/-- At a state, a parser reads some number of tokens, and unless it fails something holds of its result and of
that number. -/
def ReadsAt (s : ParserState) (p : Parser α) (P : α → Nat → Prop) : Prop :=
  s.Sound → ∃ n, (p s).2.tokens.length + n = s.tokens.length ∧ (p s).2.Sound ∧
    ∀ a, (p s).1 = some a → P a n

/-- What a parser reads at every state. -/
def Reads (p : Parser α) (P : α → Nat → Prop) : Prop :=
  ∀ s, ReadsAt s p P

theorem ReadsAt.mono {p : Parser α} (h : ReadsAt s p P) (hPQ : ∀ a n, P a n → Q a n) :
    ReadsAt s p Q := by
  intro hs
  obtain ⟨n, hn, hs', hP⟩ := h hs
  exact ⟨n, hn, hs', fun a ha => hPQ a n (hP a ha)⟩

theorem readsAt_pure {a : α} (h : P a 0) : ReadsAt s (pure a) P := by
  intro hs
  refine ⟨0, rfl, hs, fun b hb => ?_⟩
  obtain rfl := Option.some.inj hb
  exact h

/-- A parser that fails without reading. -/
theorem readsAt_fail : ReadsAt s (fail : Parser α) P :=
  fun hs => ⟨0, rfl, hs, fun _ ha => absurd ha (by simp [fail])⟩

theorem bind_apply (p : Parser α) (f : α → Parser β) (s : ParserState) :
    (p >>= f) s = match p s with
      | (some a, s) => f a s
      | (none, s) => (none, s) :=
  rfl

/-- What two parsers read one after the other. -/
theorem ReadsAt.bind {p : Parser α} {f : α → Parser β} {R : β → Nat → Prop} (hp : ReadsAt s p P)
    (hf : ∀ a n s', P a n → ReadsAt s' (f a) fun b m => R b (n + m)) : ReadsAt s (p >>= f) R := by
  intro hs
  obtain ⟨n, hn, hs', hP⟩ := hp hs
  rw [bind_apply]
  generalize p s = outcome at hn hs' hP
  obtain ⟨result, s'⟩ := outcome
  cases result with
  | none => exact ⟨n, hn, hs', fun _ hb => absurd hb (by simp)⟩
  | some a =>
    obtain ⟨m, hm, hs'', hR⟩ := hf a n s' (hP a rfl) hs'
    have hlength : s'.tokens.length + n = s.tokens.length := hn
    refine ⟨n + m, ?_, hs'', hR⟩
    show (f a s').2.tokens.length + (n + m) = s.tokens.length
    omega

/-- A parser that only looks at the state. -/
theorem readsAt_look_bind {p : Parser α} {a : α} {f : α → Parser β} {R : β → Nat → Prop}
    (hp : p s = (some a, s)) (h : ReadsAt s (f a) R) : ReadsAt s (p >>= f) R := by
  rw [ReadsAt, bind_apply, hp]
  exact h

theorem readsAt_peek_bind {f : Token → Parser β} {R : β → Nat → Prop}
    (h : ReadsAt s (f s.next) R) : ReadsAt s (peek >>= f) R :=
  readsAt_look_bind rfl h

theorem readsAt_peekSecond_bind {f : TokenKind → Parser β} {R : β → Nat → Prop}
    (h : ∀ kind, ReadsAt s (f kind) R) : ReadsAt s (peekSecond >>= f) R :=
  readsAt_look_bind rfl (h _)

theorem readsAt_remaining_bind {f : Nat → Parser β} {R : β → Nat → Prop}
    (h : ∀ n, ReadsAt s (f n) R) : ReadsAt s (remaining >>= f) R :=
  readsAt_look_bind rfl (h _)

theorem readsAt_check_bind {kind : TokenKind} {f : Bool → Parser β} {R : β → Nat → Prop}
    (h : ReadsAt s (f (s.next.kind == kind)) R) : ReadsAt s (check kind >>= f) R :=
  readsAt_look_bind rfl h

/-- Reading the next token, unless that is the end of the input. -/
theorem readsAt_advance (h : s.next.kind ≠ .endOfInput) :
    ReadsAt s advance fun t n => t = s.next ∧ n = 1 := by
  intro hs
  exact ⟨1, hs.length_rest h, hs.rest, fun t ht => ⟨(Option.some.inj ht).symm, rfl⟩⟩

/-- Reading the next token or nothing. -/
theorem reads_advance : Reads advance fun _ n => n ≤ 1 := by
  intro s hs
  by_cases h : s.next.kind = .endOfInput
  · refine ⟨s.tokens.length - s.rest.tokens.length, ?_, hs.rest, fun _ _ => ?_⟩ <;>
      simp only [advance, ParserState.rest, List.length_tail] <;> omega
  · exact ⟨1, hs.length_rest h, hs.rest, fun _ _ => Nat.le_refl 1⟩

theorem reads_report (problem : SyntaxProblem) (pos : Position) :
    Reads (report problem pos) fun _ n => n = 0 :=
  fun _ hs => ⟨0, rfl, ⟨hs.endToken, hs.identifiers⟩, fun _ _ => rfl⟩

theorem reads_reportExpected (expected : String) :
    Reads (reportExpected expected) fun _ n => n = 0 :=
  fun _ => readsAt_peek_bind (reads_report _ _ _)

theorem reads_failExpected (expected : String) : Reads (failExpected expected : Parser α) P :=
  fun s => (reads_reportExpected expected s).bind fun _ _ _ _ => readsAt_fail

theorem reads_failTooDeep : Reads (failTooDeep : Parser α) P := by
  intro s
  refine readsAt_peek_bind ?_
  exact (reads_report _ _ s).bind fun _ _ _ _ => readsAt_fail

/-- Reading a token of a kind. -/
theorem reads_expect {kind : TokenKind} (h : kind ≠ .endOfInput) :
    Reads (expect kind) fun t n =>
      n = 1 ∧ (kind = .identifier → isIdentifier t.text = true) := by
  intro s
  refine readsAt_check_bind ?_
  by_cases heq : s.next.kind = kind
  · rw [beq_iff_eq.2 heq, if_pos rfl]
    intro hs
    obtain ⟨n, hn, hs', hP⟩ := readsAt_advance (heq ▸ h) hs
    refine ⟨n, hn, hs', fun t ht => ?_⟩
    obtain ⟨rfl, rfl⟩ := hP t ht
    exact ⟨rfl, fun hkind => hs.isIdentifier_next (heq.trans hkind)⟩
  · rw [beq_eq_false_iff_ne.2 heq, if_neg (by simp)]
    exact reads_failExpected _ s

theorem reads_eat {kind : TokenKind} (h : kind ≠ .endOfInput) :
    Reads (eat kind) fun eaten n => n = if eaten then 1 else 0 := by
  intro s
  refine readsAt_check_bind ?_
  by_cases heq : s.next.kind = kind
  · rw [beq_iff_eq.2 heq, if_pos rfl]
    refine (readsAt_advance (heq ▸ h)).bind ?_
    rintro t n s' ⟨_, rfl⟩
    exact readsAt_pure rfl
  · rw [beq_eq_false_iff_ne.2 heq, if_neg (by simp)]
    exact readsAt_pure rfl

/-- A parser that is attempted reads the same. -/
theorem ReadsAt.attempt {p : Parser α} (h : ReadsAt s p P) :
    ReadsAt s (attempt p) fun result n => ∀ a, result = some a → P a n := by
  intro hs
  obtain ⟨n, hn, hs', hP⟩ := h hs
  refine ⟨n, hn, hs', fun result hresult a ha => hP a ?_⟩
  have hsome : some (p s).1 = some result := hresult
  rw [Option.some.inj hsome, ha]

/-! ## Skipping -/

/-- A parser that drops some tokens. -/
theorem readsAt_drop {p : Parser α} {s' : ParserState} (hp : (p s).2 = s')
    (htokens : s'.tokens.Sublist s.tokens) (hend : s'.endToken = s.endToken) :
    ReadsAt s p fun _ _ => True := by
  intro hs
  have hlength := htokens.length_le
  subst hp
  exact ⟨s.tokens.length - (p s).2.tokens.length, by omega, hs.of_sublist htokens hend,
    fun _ _ => trivial⟩

theorem reads_skipTo (test : TokenKind → Bool) : Reads (skipTo test) fun _ _ => True :=
  fun _ => readsAt_drop rfl (List.dropWhile_sublist _) rfl

theorem afterStatement_suffix (depth : Nat) (tokens : List Token) :
    afterStatement depth tokens <:+ tokens := by
  fun_induction afterStatement depth tokens with
  | case1 => exact List.suffix_rfl
  | case2 => exact List.suffix_cons _ _
  | case3 => exact List.suffix_rfl
  | case4 _ _ _ _ ih => exact ih.trans (List.suffix_cons _ _)
  | case5 _ _ _ _ ih => exact ih.trans (List.suffix_cons _ _)
  | case6 _ _ _ _ _ _ _ ih => exact ih.trans (List.suffix_cons _ _)

theorem reads_recover : Reads recover fun _ _ => True :=
  fun _ => readsAt_drop rfl (afterStatement_suffix _ _).sublist rfl

/-- A statement that cannot be read is skipped. -/
theorem ReadsAt.orRecover {p : Parser α} (h : ReadsAt s p P) :
    ReadsAt s (orRecover p) fun result n => ∀ a, result = some a → P a n := by
  refine h.attempt.bind ?_
  intro result n s' hresult
  cases result with
  | some a => exact readsAt_pure fun b hb => by rw [Nat.add_zero]; exact hresult b hb
  | none =>
    refine (reads_recover s').bind ?_
    intro _ m s'' _
    exact readsAt_pure fun b hb => absurd hb (by simp)

end Parser
end PluginSandbox
