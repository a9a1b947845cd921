import PluginSandbox.Proofs.Language.Reading

/-!
# What parsers take when they record nothing

`Parser.TakesAt` says of a parser at a state that the errors it finds there stay recorded, and that, if it adds
none, it succeeds: it takes tokens off the front, and something holds of these tokens and of its result.  So a
parser that fails has recorded why, and a branch that skips a token has recorded that it did.

The rule for sequences (`TakesAt.bind`) asks nothing of the second parser but that it takes tokens, whatever the
first one did: what holds of the first result is a premise of what is to hold of the second one.
-/

namespace PluginSandbox

/-- The errors of a state are still there in a later one, and the same stands behind the last token. -/
structure ParserState.Extends (s s' : ParserState) : Prop where
  endToken : s'.endToken = s.endToken
  errors : s.errors <:+ s'.errors

namespace ParserState.Extends

theorem refl (s : ParserState) : s.Extends s :=
  ⟨rfl, List.suffix_rfl⟩

theorem trans {s s' s'' : ParserState} (h : s.Extends s') (h' : s'.Extends s'') : s.Extends s'' :=
  ⟨h'.endToken.trans h.endToken, h.errors.trans h'.errors⟩

/-- Where nothing has been added between two states, nothing was added at any state between them. -/
theorem eq_of_eq {s s' s'' : ParserState} (h : s.Extends s') (h' : s'.Extends s'')
    (heq : s''.errors = s.errors) : s'.errors = s.errors ∧ s''.errors = s'.errors := by
  have hlength := h.errors.length_le
  have hlength' := h'.errors.length_le
  rw [heq] at hlength'
  have hfirst : s.errors = s'.errors := h.errors.eq_of_length (Nat.le_antisymm hlength hlength')
  exact ⟨hfirst.symm, heq.trans hfirst⟩

end ParserState.Extends

namespace Parser

variable {α β : Type} {s : ParserState} {R R' : List Token → α → Prop} {Q : List Token → β → Prop}

/-- At a state, a parser keeps the recorded errors, and if it adds none, it takes some tokens and succeeds. -/
def TakesAt (s : ParserState) (p : Parser α) (R : List Token → α → Prop) : Prop :=
  s.endToken.kind = .endOfInput → s.Extends (p s).2 ∧
    ((p s).2.errors = s.errors →
      ∃ a ts, (p s).1 = some a ∧ s.tokens = ts ++ (p s).2.tokens ∧ R ts a)

/-- What a parser takes at every state. -/
def Takes (p : Parser α) (R : List Token → α → Prop) : Prop :=
  ∀ s, TakesAt s p R

theorem TakesAt.mono {p : Parser α} (h : TakesAt s p R) (hR : ∀ ts a, R ts a → R' ts a) :
    TakesAt s p R' := by
  intro hs
  obtain ⟨hextends, htakes⟩ := h hs
  refine ⟨hextends, fun heq => ?_⟩
  obtain ⟨a, ts, ha, htokens, hts⟩ := htakes heq
  exact ⟨a, ts, ha, htokens, hR ts a hts⟩

theorem Takes.mono {p : Parser α} (h : Takes p R) (hR : ∀ ts a, R ts a → R' ts a) : Takes p R' :=
  fun s => (h s).mono hR

theorem takesAt_pure {a : α} (h : R [] a) : TakesAt s (pure a) R :=
  fun _ => ⟨.refl s, fun _ => ⟨a, [], rfl, rfl, h⟩⟩

/-- What two parsers take one after the other. -/
theorem TakesAt.bind {p : Parser α} {f : α → Parser β} (hp : TakesAt s p R)
    (hf : ∀ a s', TakesAt s' (f a) fun us b => ∀ ts, s.tokens = ts ++ s'.tokens → R ts a → Q (ts ++ us) b) :
    TakesAt s (p >>= f) Q := by
  intro hs
  obtain ⟨hextends, htakes⟩ := hp hs
  rw [bind_apply]
  generalize p s = outcome at hextends htakes
  obtain ⟨result, s'⟩ := outcome
  cases result with
  | none =>
    refine ⟨hextends, fun heq => ?_⟩
    obtain ⟨_, _, ha, _⟩ := htakes heq
    exact absurd ha (by simp)
  | some a =>
    obtain ⟨hextends', htakes'⟩ := hf a s' (hextends.endToken ▸ hs)
    refine ⟨hextends.trans hextends', fun heq => ?_⟩
    obtain ⟨hfirst, hsecond⟩ := hextends.eq_of_eq hextends' heq
    obtain ⟨a', ts, ha, htokens, hts⟩ := htakes hfirst
    obtain rfl := Option.some.inj ha
    obtain ⟨b, us, hb, htokens', hus⟩ := htakes' hsecond
    refine ⟨b, ts ++ us, hb, ?_, hus ts htokens hts⟩
    rw [List.append_assoc, ← htokens', htokens]

theorem Takes.bind {p : Parser α} {f : α → Parser β} (hp : Takes p R)
    (hf : ∀ a s, TakesAt s (f a) fun us b => ∀ ts, R ts a → Q (ts ++ us) b) : Takes (p >>= f) Q :=
  fun s => (hp s).bind fun a s' => (hf a s').mono fun _ _ h ts _ hts => h ts hts

/-! ## Looking -/

/-- A parser that only looks at the state. -/
theorem takesAt_look_bind {p : Parser α} {a : α} {f : α → Parser β} (hp : p s = (some a, s))
    (h : TakesAt s (f a) Q) : TakesAt s (p >>= f) Q := by
  rw [TakesAt, bind_apply, hp]
  exact h

theorem takesAt_peek_bind {f : Token → Parser β} (h : TakesAt s (f s.next) Q) :
    TakesAt s (peek >>= f) Q :=
  takesAt_look_bind rfl h

theorem takesAt_peekSecond_bind {f : TokenKind → Parser β} (h : TakesAt s (f s.rest.next.kind) Q) :
    TakesAt s (peekSecond >>= f) Q :=
  takesAt_look_bind rfl h

theorem takesAt_remaining_bind {f : Nat → Parser β} (h : TakesAt s (f s.tokens.length) Q) :
    TakesAt s (remaining >>= f) Q :=
  takesAt_look_bind rfl h

theorem takesAt_check_bind {kind : TokenKind} {f : Bool → Parser β}
    (h : TakesAt s (f (s.next.kind == kind)) Q) : TakesAt s (check kind >>= f) Q :=
  takesAt_look_bind rfl h

/-! ## Taking one token -/

/-- What is next and is not the end of the input is the first token. -/
theorem tokens_eq_cons (hs : s.endToken.kind = .endOfInput) (h : s.next.kind ≠ .endOfInput) :
    s.tokens = s.next :: s.rest.tokens := by
  cases htokens : s.tokens with
  | nil =>
    rw [ParserState.next, htokens] at h
    exact absurd hs h
  | cons t tokens =>
    rw [ParserState.next, ParserState.rest, htokens, List.head?_cons, Option.getD_some, List.tail_cons]

/-- Taking the next token, unless that is the end of the input. -/
theorem takesAt_advance_bind {f : Token → Parser β} (h : s.next.kind ≠ .endOfInput)
    (hf : TakesAt s.rest (f s.next) fun ts b => Q (s.next :: ts) b) : TakesAt s (advance >>= f) Q := by
  intro hs
  obtain ⟨hextends, htakes⟩ := hf hs
  refine ⟨⟨hextends.endToken, hextends.errors⟩, fun heq => ?_⟩
  obtain ⟨b, ts, hb, htokens, hts⟩ := htakes heq
  refine ⟨b, s.next :: ts, hb, ?_, hts⟩
  rw [tokens_eq_cons hs h, htokens]
  rfl

/-- Dropping some of the next tokens. -/
theorem takesAt_drop {p : Parser α} {a : α} {tokens : List Token} (hp : p s = (some a, { s with tokens }))
    (htokens : tokens <:+ s.tokens) : TakesAt s p fun _ _ => True := by
  intro _
  obtain ⟨ts, hts⟩ := htokens
  rw [hp]
  exact ⟨⟨rfl, List.suffix_rfl⟩, fun _ => ⟨a, ts, rfl, hts.symm, trivial⟩⟩

theorem takes_advance : Takes advance fun _ _ => True :=
  fun s => takesAt_drop rfl (List.tail_suffix s.tokens)

theorem takes_skipTo (test : TokenKind → Bool) : Takes (skipTo test) fun _ _ => True :=
  fun _ => takesAt_drop rfl (List.dropWhile_suffix _)

theorem takes_recover : Takes recover fun _ _ => True :=
  fun s => takesAt_drop rfl (afterStatement_suffix 0 s.tokens)

/-! ## Recording -/

/-- A parser that records an error. -/
theorem takesAt_recorded {p : Parser α} {result : Option α} {e : SyntaxError}
    (hp : p s = (result, { s with errors := e :: s.errors })) : TakesAt s p R := by
  intro _
  rw [hp]
  exact ⟨⟨rfl, List.suffix_cons e s.errors⟩, fun heq => absurd heq (List.cons_ne_self e s.errors)⟩

theorem takes_report (problem : SyntaxProblem) (pos : Position) :
    Takes (report problem pos) fun _ _ => False :=
  fun _ => takesAt_recorded rfl

theorem takes_reportExpected (expected : String) : Takes (reportExpected expected) fun _ _ => False :=
  fun _ => takesAt_recorded rfl

theorem takes_failExpected (expected : String) : Takes (failExpected expected : Parser α) R :=
  fun _ => takesAt_recorded rfl

theorem takes_failTooDeep : Takes (failTooDeep : Parser α) R :=
  fun _ => takesAt_recorded rfl

/-- Taking a token of a kind. -/
theorem takes_expect {kind : TokenKind} (h : kind ≠ .endOfInput) :
    Takes (expect kind) fun ts t => ts = [t] ∧ t.kind = kind := by
  intro s
  refine takesAt_check_bind ?_
  split
  · next heq =>
    have hkind := beq_iff_eq.1 heq
    intro hs
    refine ⟨⟨rfl, List.suffix_rfl⟩, fun _ => ⟨s.next, [s.next], rfl, ?_, rfl, hkind⟩⟩
    exact tokens_eq_cons hs (hkind ▸ h)
  · exact takes_failExpected _ s

/-- Taking a token of a kind if there is one. -/
theorem takes_eat {kind : TokenKind} (h : kind ≠ .endOfInput) :
    Takes (eat kind) fun ts eaten => if eaten = true then ∃ t, ts = [t] ∧ t.kind = kind else ts = [] := by
  intro s
  refine takesAt_check_bind ?_
  split
  · next heq =>
    have hkind := beq_iff_eq.1 heq
    exact takesAt_advance_bind (hkind ▸ h) (takesAt_pure ⟨s.next, rfl, hkind⟩)
  · exact takesAt_pure rfl

/-! ## Going on after a failure -/

/-- A parser that is attempted records the same, so where nothing is recorded it has succeeded. -/
theorem TakesAt.attempt {p : Parser α} (h : TakesAt s p R) :
    TakesAt s (attempt p) fun ts result => ∃ a, result = some a ∧ R ts a := by
  intro hs
  obtain ⟨hextends, htakes⟩ := h hs
  refine ⟨hextends, fun heq => ?_⟩
  obtain ⟨a, ts, ha, htokens, hts⟩ := htakes heq
  exact ⟨(p s).1, ts, rfl, htokens, a, ha, hts⟩

theorem Takes.attempt {p : Parser α} (h : Takes p R) :
    Takes (attempt p) fun ts result => ∃ a, result = some a ∧ R ts a :=
  fun s => (h s).attempt

/-- A parser that is skipped if it fails. -/
theorem Takes.orRecover {p : Parser α} (h : Takes p R) :
    Takes (orRecover p) fun ts result => ∃ a, result = some a ∧ R ts a := by
  refine h.attempt.bind ?_
  rintro (_ | a) s
  · refine (takes_recover s).bind fun _ s' => takesAt_pure ?_
    rintro _ _ _ _ ⟨a, ha, _⟩
    exact absurd ha (by simp)
  · refine takesAt_pure ?_
    rintro ts ⟨_, ha, hts⟩
    rw [List.append_nil]
    exact ⟨_, ha, hts⟩

/-- Something that may be skipped before the rest is taken, if that does not happen where nothing is recorded. -/
theorem takesAt_skip_bind {c : Bool} {p : Parser Unit} (hp : Takes p fun _ _ => True)
    {next : Unit → Parser β} (hnext : ∀ s, TakesAt s (next ()) Q) (hQ : c = true → ∀ ts b, Q ts b) :
    TakesAt s (if c = true then p >>= next else next ()) Q := by
  split
  · next hc => exact (hp s).bind fun _ s' => (hnext s').mono fun _ _ _ _ _ _ => hQ hc _ _
  · exact hnext s

end Parser
end PluginSandbox
