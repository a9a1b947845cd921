import PluginSandbox.Proofs.Language.Routine
import PluginSandbox.Proofs.Language.Succeeding

/-!
# What routines return

`EndsAt` compares a run with a parser: it ends, if it may go deep enough into calls, and then it returns what the
parser returns and leaves the tokens and errors that the parser leaves.  `RoutineState.Within` is what a state says of
itself if nothing has gone wrong before.  A sequence of runs ends as a sequence of parsers does, and there is a rule
for each way to put runs together.  `Routine.Tracks` then compares a routine, whatever levels are taken when it is
called, with a parser that is given the levels that are left.
-/

namespace PluginSandbox

/-- As many calls may be inside each other. -/
def maxCalls : Nat := 12 * maxNesting

namespace RoutineState

/-- Some levels are taken and some calls have not returned, and at no time there were too many; no loop went on
without reading, and no call returned with other levels taken than when it was made. -/
structure Within (depth calls : Nat) (s : RoutineState) : Prop where
  sound : s.toParserState.Sound
  kinds : ∀ t ∈ s.tokens, t.kind ≠ .endOfInput
  depth_eq : s.depth = depth
  deepest_le : s.deepest ≤ maxNesting
  calls_eq : s.calls = calls
  mostCalls_le : s.mostCalls ≤ maxCalls
  idle_eq : s.idle = false
  uneven_eq : s.uneven = false

end RoutineState

open RoutineState

namespace Parser

variable {α β : Type}

/-- A parser reads some tokens off the front. -/
def Drops (p : Parser α) : Prop :=
  ∀ s, (p s).2.tokens <:+ s.tokens ∧ (p s).2.endToken = s.endToken

theorem drops_fail : Drops (fail : Parser α) :=
  fun _ => ⟨List.suffix_rfl, rfl⟩

theorem drops_advance : Drops advance :=
  fun s => ⟨List.tail_suffix s.tokens, rfl⟩

theorem drops_report (problem : SyntaxProblem) (position : Position) : Drops (report problem position) :=
  fun _ => ⟨List.suffix_rfl, rfl⟩

theorem drops_reportExpected (expected : String) : Drops (reportExpected expected) :=
  fun _ => ⟨List.suffix_rfl, rfl⟩

theorem drops_failExpected (expected : String) : Drops (failExpected expected : Parser α) :=
  fun _ => ⟨List.suffix_rfl, rfl⟩

theorem drops_failTooDeep : Drops (failTooDeep : Parser α) :=
  fun _ => ⟨List.suffix_rfl, rfl⟩

theorem drops_skipTo (test : TokenKind → Bool) : Drops (skipTo test) :=
  fun _ => ⟨List.dropWhile_suffix _, rfl⟩

theorem drops_recover : Drops recover :=
  fun s => ⟨afterStatement_suffix 0 s.tokens, rfl⟩

/-- Behind anything but a closing brace, something is skipped. -/
theorem length_afterStatement_lt {t : Token} {tokens : List Token} (ht : t.kind ≠ .closeBrace) :
    (afterStatement 0 (t :: tokens)).length < (t :: tokens).length := by
  have hrest : ∀ depth, (afterStatement depth tokens).length < (t :: tokens).length :=
    fun depth => Nat.lt_succ_of_le (afterStatement_suffix depth tokens).length_le
  rw [afterStatement.eq_def]
  dsimp only
  split
  · exact Nat.lt_succ_self _
  · next hkind _ => exact absurd hkind ht
  · next hkind hzero => exact absurd hzero (by simp)
  · exact hrest 1
  · exact hrest 0

theorem drops_expect (kind : TokenKind) : Drops (expect kind) := by
  intro s
  have hexpect : expect kind s = (if (s.next.kind == kind) = true then advance else failExpected kind.text) s := rfl
  rw [hexpect]
  split
  · exact drops_advance s
  · exact drops_failExpected _ s

theorem drops_eat (kind : TokenKind) : Drops (eat kind) := by
  intro s
  have heat : eat kind s = (if (s.next.kind == kind) = true then advance >>= fun _ => pure true else pure false) s :=
    rfl
  rw [heat]
  split
  · exact drops_advance s
  · exact ⟨List.suffix_rfl, rfl⟩

end Parser

namespace RoutineState

variable {depth calls : Nat} {s : RoutineState}

/-- Reading tokens off the front changes nothing else that a run keeps account of. -/
theorem Within.read (h : s.Within depth calls) {s' : ParserState} (htokens : s'.tokens <:+ s.tokens)
    (hend : s'.endToken = s.endToken) : Within depth calls { s with toParserState := s' } :=
  { h with
    sound := h.sound.of_sublist htokens.sublist hend
    kinds := fun t ht => h.kinds t (htokens.subset ht) }

theorem Within.deeper (h : s.Within depth calls) (hdepth : depth < maxNesting) : s.deeper.Within (depth + 1) calls :=
  { h with
    depth_eq := congrArg (· + 1) h.depth_eq
    deepest_le := Nat.max_le.2 ⟨h.deepest_le, h.depth_eq ▸ hdepth⟩ }

theorem Within.inCall (h : s.Within depth calls) (hcalls : calls < maxCalls) : s.inCall.Within depth (calls + 1) :=
  { h with
    calls_eq := congrArg (· + 1) h.calls_eq
    mostCalls_le := Nat.max_le.2 ⟨h.mostCalls_le, h.calls_eq ▸ hcalls⟩ }

/-- Only the end of the input is next where all has been read. -/
theorem Within.tokens_eq_nil (h : s.Within depth calls) (hnext : s.next.kind = .endOfInput) : s.tokens = [] := by
  cases htokens : s.tokens with
  | nil => rfl
  | cons t tokens =>
    rw [ParserState.next, htokens] at hnext
    exact absurd hnext (h.kinds t (htokens ▸ List.mem_cons_self))

end RoutineState

namespace Run

variable {α β : Type} {s : RoutineState} {t : Nat → Run α} {p : Parser α} {f : Nat → α → Run β}
  {g : α → Parser β} {P Q : RoutineState → Prop} {depth calls : Nat}

/-- At a state, a run ends if it may go deep enough into calls, and it does what a parser does; it reads some tokens
off the front, and something holds of the state behind it. -/
def EndsAt (s : RoutineState) (t : Nat → Run α) (p : Parser α) (Q : RoutineState → Prop) : Prop :=
  ∃ s' : RoutineState, (∃ least, ∀ bound ≥ least, t bound s = some ((p s.toParserState).1, s')) ∧
    s'.toParserState = (p s.toParserState).2 ∧ s'.tokens <:+ s.tokens ∧ Q s'

/-- At a state, a parser has returned something, and another state is the one behind it. -/
structure Returned (p : Parser α) (s : RoutineState) (a : α) (s' : RoutineState) : Prop where
  eq : p s.toParserState = (some a, s'.toParserState)
  suffix : s'.tokens <:+ s.tokens

/-- What is known to be read where a parser does not fail. -/
theorem Returned.length_lt {a : α} {s' : RoutineState} {R : α → Nat → Prop} (h : Returned p s a s')
    (hs : s.Within depth calls) (hp : Parser.Reads p R) (hpos : ∀ n, R a n → 0 < n) :
    s'.tokens.length < s.tokens.length := by
  obtain ⟨n, hn, _, hR⟩ := hp s.toParserState hs.sound
  rw [h.eq] at hn hR
  have hn' := hpos n (hR a rfl)
  have hlength : s'.tokens.length + n = s.tokens.length := hn
  omega

theorem EndsAt.mono (h : EndsAt s t p P) (hPQ : ∀ s', s'.tokens <:+ s.tokens → P s' → Q s') : EndsAt s t p Q := by
  obtain ⟨s', hreturns, hstate, hsuffix, hP⟩ := h
  exact ⟨s', hreturns, hstate, hsuffix, hPQ s' hsuffix hP⟩

/-- What a parser does at a state is all that matters. -/
theorem EndsAt.congr {q : Parser α} (h : EndsAt s t q Q) (heq : p s.toParserState = q s.toParserState) :
    EndsAt s t p Q := by
  rwa [EndsAt, heq]

theorem endsAt_pure {a : α} (h : Q s) : EndsAt s (fun _ => pure a) (pure a) Q :=
  ⟨s, ⟨0, fun _ _ => rfl⟩, rfl, List.suffix_rfl, h⟩

theorem bind_apply (t : Run α) (f : α → Run β) (s : RoutineState) :
    (t >>= f) s = match t s with
      | some (some a, s) => f a s
      | some (none, s) => some (none, s)
      | none => none :=
  rfl

/-- One run after the other. -/
theorem EndsAt.andThen (ht : EndsAt s t p P)
    (hf : ∀ a s', Returned p s a s' → P s' → EndsAt s' (f · a) (g a) Q)
    (hfail : (p s.toParserState).1 = none → ∀ s', P s' → Q s') :
    EndsAt s (fun bound => t bound >>= f bound) (p >>= g) Q := by
  obtain ⟨s', ⟨least, hleast⟩, hstate, hsuffix, hP⟩ := ht
  cases hresult : (p s.toParserState).1 with
  | none =>
    have heq : p s.toParserState = (none, s'.toParserState) := by
      rw [hstate, ← hresult]
    have hp : (p >>= g) s.toParserState = (none, s'.toParserState) := by
      rw [Parser.bind_apply, heq]
    refine ⟨s', ⟨least, fun bound hbound => ?_⟩, ?_, hsuffix, hfail hresult s' hP⟩
    · show (t bound >>= f bound) s = _
      rw [bind_apply, hleast bound hbound, hresult, hp]
    · rw [hp]
  | some a =>
    have heq : p s.toParserState = (some a, s'.toParserState) := by
      rw [hstate, ← hresult]
    have hp : (p >>= g) s.toParserState = g a s'.toParserState := by
      rw [Parser.bind_apply, heq]
    obtain ⟨s'', ⟨least', hleast'⟩, hstate', hsuffix', hQ⟩ := hf a s' ⟨heq, hsuffix⟩ hP
    refine ⟨s'', ⟨max least least', fun bound hbound => ?_⟩, ?_, hsuffix'.trans hsuffix, hQ⟩
    · show (t bound >>= f bound) s = _
      rw [bind_apply, hleast bound (Nat.le_trans (Nat.le_max_left _ _) hbound), hresult, hp]
      exact hleast' bound (Nat.le_trans (Nat.le_max_right _ _) hbound)
    · rw [hp, hstate']

theorem EndsAt.bind (ht : EndsAt s t p Q) (hf : ∀ a s', Returned p s a s' → Q s' → EndsAt s' (f · a) (g a) Q) :
    EndsAt s (fun bound => t bound >>= f bound) (p >>= g) Q :=
  ht.andThen hf fun _ _ h => h

/-- Behind a parser that does not fail, nothing has to hold of where it would. -/
theorem EndsAt.after (ht : EndsAt s t p P) (hp : Parser.Succeeds p)
    (hf : ∀ a s', Returned p s a s' → P s' → EndsAt s' (f · a) (g a) Q) :
    EndsAt s (fun bound => t bound >>= f bound) (p >>= g) Q :=
  ht.andThen hf fun hnone _ _ => absurd hnone (hp _)

/-! ## Parsers that call nothing -/

theorem endsAt_lift (hp : Parser.Drops p) (hs : s.Within depth calls) :
    EndsAt s (fun _ => lift p) p (Within depth calls) :=
  ⟨_, ⟨0, fun _ _ => rfl⟩, rfl, (hp _).1, hs.read (hp _).1 (hp _).2⟩

theorem endsAt_peek_bind {f : Nat → Token → Run β} {g : Token → Parser β}
    (h : EndsAt s (f · s.next) (g s.next) Q) :
    EndsAt s (fun bound => lift Parser.peek >>= f bound) (Parser.peek >>= g) Q :=
  h

theorem endsAt_peekSecond_bind {f : Nat → TokenKind → Run β} {g : TokenKind → Parser β}
    (h : EndsAt s (f · s.rest.next.kind) (g s.rest.next.kind) Q) :
    EndsAt s (fun bound => lift Parser.peekSecond >>= f bound) (Parser.peekSecond >>= g) Q :=
  h

theorem endsAt_check_bind {kind : TokenKind} {f : Nat → Bool → Run β} {g : Bool → Parser β}
    (h : EndsAt s (f · (s.next.kind == kind)) (g (s.next.kind == kind)) Q) :
    EndsAt s (fun bound => lift (Parser.check kind) >>= f bound) (Parser.check kind >>= g) Q :=
  h

/-- A turn of a loop begins by looking how much is left. -/
theorem endsAt_before {f : Nat → Nat → Run β} {p : Parser β} (h : EndsAt s (f · s.tokens.length) p Q) :
    EndsAt s (fun bound => lift Parser.remaining >>= f bound) p Q :=
  h

/-- A parser bounds its loop by what is left. -/
theorem endsAt_remaining {t : Nat → Run β} {g : Nat → Parser β} (h : EndsAt s t (g s.tokens.length) Q) :
    EndsAt s t (Parser.remaining >>= g) Q :=
  h

/-- Reading the next token, unless that is the end of the input. -/
theorem endsAt_advance_bind {f : Nat → Token → Run β} {g : Token → Parser β} (hs : s.Within depth calls)
    (h : ∀ s' : RoutineState, s'.Within depth calls → s'.tokens <:+ s.tokens →
      (s.next.kind ≠ .endOfInput → s'.tokens.length < s.tokens.length) → EndsAt s' (f · s.next) (g s.next) Q) :
    EndsAt s (fun bound => lift Parser.advance >>= f bound) (Parser.advance >>= g) Q := by
  have hsuffix := List.tail_suffix s.tokens
  obtain ⟨s', hreturns, hstate, hsuffix', hQ⟩ :=
    h { s with toParserState := s.rest } (hs.read hsuffix rfl) hsuffix
      fun hnext => Nat.lt_of_succ_le (Nat.le_of_eq (hs.sound.length_rest hnext))
  exact ⟨s', hreturns, hstate, hsuffix'.trans hsuffix, hQ⟩

/-! ## Going on after a failure -/

theorem EndsAt.attempt (h : EndsAt s t p Q) : EndsAt s (fun bound => attempt (t bound)) (Parser.attempt p) Q := by
  obtain ⟨s', ⟨least, hleast⟩, hs'⟩ := h
  refine ⟨s', ⟨least, fun bound hbound => ?_⟩, hs'⟩
  show (t bound s).map _ = _
  rw [hleast bound hbound]
  rfl

theorem EndsAt.orRecover (h : EndsAt s t p (Within depth calls)) :
    EndsAt s (fun bound => orRecover (t bound)) (Parser.orRecover p) (Within depth calls) := by
  refine h.attempt.bind fun result s₁ _ hs₁ => ?_
  cases result with
  | some a => exact endsAt_pure hs₁
  | none => exact (endsAt_lift Parser.drops_recover hs₁).bind fun _ s₂ _ hs₂ => endsAt_pure hs₂

theorem orRecover_apply (p : Parser α) (s : ParserState) :
    Parser.orRecover p s = match p s with
      | (some a, s) => (some (some a), s)
      | (none, s) => (some none, { s with tokens := Parser.afterStatement 0 s.tokens }) := by
  have hattempt : Parser.attempt p s = (some (p s).1, (p s).2) := rfl
  rw [Parser.orRecover, Parser.bind_apply, hattempt]
  generalize p s = outcome
  obtain ⟨result, s'⟩ := outcome
  cases result <;> rfl

theorem Returned.of_orRecover {a : α} {s' : RoutineState} (h : Returned (Parser.orRecover p) s (some a) s') :
    Returned p s a s' := by
  refine ⟨?_, h.suffix⟩
  have heq := h.eq
  rw [orRecover_apply] at heq
  generalize p s.toParserState = outcome at heq
  obtain ⟨result, s₁⟩ := outcome
  cases result with
  | none => exact absurd heq (by simp)
  | some b =>
    obtain ⟨hb, rfl⟩ := Prod.mk.inj heq
    rw [Option.some.inj hb]

/-- Where a statement could not be read, something has been skipped, unless a block or the input ends here. -/
theorem EndsAt.length_recovered {s' : RoutineState} (h : EndsAt s t p Q) (hs : s.Within depth calls)
    (hret : Returned (Parser.orRecover p) s none s') (hclose : s.next.kind ≠ .closeBrace)
    (hend : s.next.kind ≠ .endOfInput) : s'.tokens.length < s.tokens.length := by
  obtain ⟨s₁, _, hstate, hsuffix, _⟩ := h
  have htokens : s'.tokens = Parser.afterStatement 0 s₁.tokens := by
    have heq := hret.eq
    rw [orRecover_apply] at heq
    rw [hstate]
    generalize p s.toParserState = outcome at heq
    obtain ⟨result, s₂⟩ := outcome
    cases result with
    | some b => exact absurd heq (by simp)
    | none =>
      obtain ⟨_, hs₂⟩ := Prod.mk.inj heq
      rw [← hs₂]
  have hskipped := (Parser.afterStatement_suffix 0 s₁.tokens).length_le
  rw [htokens]
  rcases Nat.lt_or_ge s₁.tokens.length s.tokens.length with hlt | hge
  · omega
  · -- Nothing was read before the parser failed, so recovery begins with the next token.
    rw [hsuffix.eq_of_length (Nat.le_antisymm hsuffix.length_le hge),
      Parser.tokens_eq_cons hs.sound.endToken hend]
    exact Parser.length_afterStatement_lt hclose

/-- Whether a part is read or is skipped because it could not be, something has been read when what follows it
begins, unless a block or the input ends here. -/
theorem endsAt_recovering (h : EndsAt s t p (Within depth calls)) (hs : s.Within depth calls)
    (hreads : Parser.Reads p fun _ n => 0 < n) (hclose : s.next.kind ≠ .closeBrace)
    (hend : s.next.kind ≠ .endOfInput) {f : Nat → Option α → Run β} {g : Option α → Parser β}
    (hf : ∀ result s', s'.Within depth calls → s'.tokens.length < s.tokens.length →
      EndsAt s' (f · result) (g result) Q) :
    EndsAt s (fun bound => Run.orRecover (t bound) >>= f bound) (Parser.orRecover p >>= g) Q := by
  refine h.orRecover.after (Parser.succeeds_orRecover _) fun result s₁ hret hs₁ => hf result s₁ hs₁ ?_
  cases result with
  | some a => exact hret.of_orRecover.length_lt hs hreads fun _ hn => hn
  | none => exact h.length_recovered hs hret hclose hend

/-- A token of a kind, behind all that is returned. -/
theorem endsAt_closed {kind : TokenKind} {a : α} (hs : s.Within depth calls) :
    EndsAt s (fun _ => do let _ ← lift (Parser.expect kind); return a) (do let _ ← Parser.expect kind; return a)
      (Within depth calls) :=
  (endsAt_lift (Parser.drops_expect kind) hs).bind fun _ _ _ hs' => endsAt_pure hs'

/-- Something that may be skipped before the rest is read. -/
theorem endsAt_skip_bind {c : Prop} [Decidable c] {skip : Parser Unit} (hskip : Parser.Drops skip)
    (hs : s.Within depth calls) {f : Nat → Unit → Run β} {g : Unit → Parser β}
    (h : ∀ s' : RoutineState, s'.Within depth calls → EndsAt s' (f · ()) (g ()) Q)
    (hQ : ∀ s' : RoutineState, s'.Within depth calls → Q s') :
    EndsAt s (fun bound => if c then lift skip >>= f bound else f bound ()) (if c then skip >>= g else g ()) Q := by
  split
  · exact (endsAt_lift hskip hs).andThen (fun _ s' _ hs' => h s' hs') fun _ => hQ
  · exact h s hs

/-- One of two runs. -/
theorem endsAt_ite {c : Prop} [Decidable c] {t t' : Nat → Run α} {p p' : Parser α} (h : c → EndsAt s t p Q)
    (h' : ¬c → EndsAt s t' p' Q) : EndsAt s (fun bound => if c then t bound else t' bound) (if c then p else p') Q := by
  split
  · next hc => exact h hc
  · next hc => exact h' hc

/-! ## Levels -/

/-- Where levels that were taken are given back, it does not matter how many they were. -/
theorem EndsAt.guarded (hs : s.Within depth calls) (h : EndsAt s t p fun s' => ∃ depth', s'.Within depth' calls) :
    EndsAt s (fun bound => guarded (t bound)) p (Within depth calls) := by
  obtain ⟨s', ⟨least, hleast⟩, hstate, hsuffix, depth', hs'⟩ := h
  refine ⟨{ s' with depth := s.depth }, ⟨least, fun bound hbound => ?_⟩, hstate, hsuffix, ?_⟩
  · show (t bound s).map _ = _
    rw [hleast bound hbound]
    rfl
  · exact { hs' with depth_eq := hs.depth_eq }

/-- A level that is left is taken. -/
theorem endsAt_enter_bind {f : Nat → Unit → Run β} {p : Parser β} (hs : s.Within depth calls)
    (hdepth : depth < maxNesting) (h : EndsAt s.deeper (f · ()) p Q) :
    EndsAt s (fun bound => enter >>= f bound) p Q := by
  have henter : enter s = some (some (), s.deeper) := by
    rw [enter, hs.depth_eq, if_pos hdepth]
  obtain ⟨s', ⟨least, hleast⟩, hs'⟩ := h
  refine ⟨s', ⟨least, fun bound hbound => ?_⟩, hs'⟩
  show (enter >>= f bound) s = _
  rw [bind_apply, henter]
  exact hleast bound hbound

/-- Where no level is left, none is taken. -/
theorem endsAt_enter_tooDeep {f : Nat → Unit → Run β} (hs : s.Within depth calls) (hdepth : depth = maxNesting) :
    EndsAt s (fun bound => enter >>= f bound) Parser.failTooDeep (Within depth calls) := by
  have henter : enter s = lift Parser.failTooDeep s := by
    rw [enter, hs.depth_eq, if_neg (by omega)]
  have hdrops : Parser.Drops (Parser.failTooDeep : Parser β) := Parser.drops_failTooDeep
  refine ⟨{ s with toParserState := ((Parser.failTooDeep : Parser β) s.toParserState).2 },
    ⟨0, fun bound _ => ?_⟩, rfl, (hdrops _).1, hs.read (hdrops _).1 (hdrops _).2⟩
  show (enter >>= f bound) s = _
  rw [bind_apply, henter]
  rfl

theorem endsAt_nested (hs : s.Within depth calls) (hdepth : depth < maxNesting)
    (h : EndsAt s.deeper t p (Within (depth + 1) calls)) :
    EndsAt s (fun bound => nested (t bound)) p (Within depth calls) :=
  .guarded hs (endsAt_enter_bind hs hdepth (h.mono fun _ _ hs' => ⟨depth + 1, hs'⟩))

theorem endsAt_nested_tooDeep (hs : s.Within depth calls) (hdepth : depth = maxNesting) :
    EndsAt s (fun bound => nested (t bound)) Parser.failTooDeep (Within depth calls) :=
  .guarded hs ((endsAt_enter_tooDeep hs hdepth).mono fun _ _ hs' => ⟨depth, hs'⟩)

/-! ## Calls and loops -/

theorem endsAt_called {R : List Token → Prop} (hs : s.Within depth calls)
    (h : EndsAt s.inCall t p fun s' => s'.Within depth (calls + 1) ∧ R s'.tokens) :
    EndsAt s (fun bound => called (t bound)) p fun s' => s'.Within depth calls ∧ R s'.tokens := by
  obtain ⟨s', ⟨least, hleast⟩, hstate, hsuffix, hs', hR⟩ := h
  have heven : (s'.uneven || s'.depth != s.depth) = false := by
    rw [hs'.uneven_eq, hs'.depth_eq, hs.depth_eq, bne_self_eq_false, Bool.or_false]
  refine ⟨{ s' with calls := s'.calls - 1, uneven := s'.uneven || s'.depth != s.depth },
    ⟨least, fun bound hbound => ?_⟩, hstate, hsuffix, ?_, hR⟩
  · show (t bound s.inCall).map _ = _
    rw [hleast bound hbound]
    rfl
  · exact { hs' with calls_eq := congrArg (· - 1) hs'.calls_eq, uneven_eq := heven }

/-- The next turn of a loop, if the last one has read something. -/
theorem EndsAt.next {before : Nat} (hbefore : s.tokens.length < before) (h : EndsAt s t p Q) :
    EndsAt s (fun bound => again before (t bound)) p Q := by
  have hagain : ∀ t : Run α, again before t s = t s := by
    intro t
    have hidle : { s with idle := s.idle || decide (before ≤ s.tokens.length) } = s := by
      rw [decide_eq_false (by omega), Bool.or_false]
    rw [again, hidle]
  obtain ⟨s', ⟨least, hleast⟩, hs'⟩ := h
  exact ⟨s', ⟨least, fun bound hbound => (hagain (t bound)).trans (hleast bound hbound)⟩, hs'⟩

end Run

namespace Routine

open Run

variable {α : Type}

/-- How many calls may be inside each other from a routine on, with some levels left.  From one complete expression or
one statement to the next inside it, there are at most eleven. -/
def height : {α : Type} → Routine α → Nat → Nat
  | _, path, _ => 1
  | _, importDecl, _ => 2
  | _, moreSegments _, _ | _, moreParams _, _ => 0
  | _, expr, levels | _, stmt, levels | _, moreArgs _, levels | _, statements _, levels => 11 * levels + 1
  | _, args, levels | _, block, levels => 11 * levels + 2
  | _, primary, levels | _, branch, levels | _, function, levels | _, functions _, levels => 11 * levels + 3
  | _, unary, levels | _, statement, levels | _, plugin, levels | _, units _, levels => 11 * levels + 4
  | _, unit, levels => 11 * levels + 5
  | _, tier k, levels | _, operators k _, levels => 11 * levels + k + 5

/-- With some levels left and room for its calls, a routine does what a parser does, and it gives back the levels that
it took. -/
def Tracks (r : Routine α) (levels : Nat) (p : Parser α) : Prop :=
  ∀ (s : RoutineState) ⦃depth calls : Nat⦄, depth + levels = maxNesting → calls + r.height levels ≤ maxCalls →
    s.Within depth calls → EndsAt s (fun bound => perform bound r) p (Within depth calls)

theorem endsAt_perform {s : RoutineState} {r : Routine α} {p : Parser α} {Q : RoutineState → Prop}
    (h : EndsAt s (fun bound => if r.isLoop then r.body (perform bound) else called (r.body (perform bound))) p Q) :
    EndsAt s (fun bound => perform bound r) p Q := by
  obtain ⟨s', ⟨least, hleast⟩, hs'⟩ := h
  refine ⟨s', ⟨least + 1, fun bound hbound => ?_⟩, hs'⟩
  cases bound with
  | zero => exact absurd hbound (by simp)
  | succ bound => exact hleast bound (Nat.le_of_succ_le_succ hbound)

/-- A turn of a loop does what its body does. -/
theorem endsAt_turn {s : RoutineState} {r : Routine α} (hr : r.isLoop = true) {p : Parser α} {Q : RoutineState → Prop}
    (h : EndsAt s (fun bound => r.body (perform bound)) p Q) : EndsAt s (fun bound => perform bound r) p Q := by
  refine endsAt_perform ?_
  simp only [hr, if_true]
  exact h

/-- The invariant of a loop.  A turn that is followed by another one has read something, so the bound that the parser of
the loop is given lasts until the loop is left. -/
theorem endsAt_loop {β : Type} {r : β → Routine α} {p : Nat → β → Parser α} {Q : RoutineState → Prop}
    {depth calls : Nat} (hr : ∀ read, (r read).isLoop = true)
    (hturn : ∀ (bound : Nat) (read : β) (s : RoutineState), s.Within depth calls →
      (∀ (read' : β) (s' : RoutineState), s'.Within depth calls → s'.tokens.length < s.tokens.length →
        EndsAt s' (fun bound => again s.tokens.length (perform bound (r read'))) (p bound read') Q) →
      EndsAt s (fun bound => (r read).body (perform bound)) (p (bound + 1) read) Q)
    (bound : Nat) (read : β) (s : RoutineState) (hs : s.Within depth calls) (hbound : s.tokens.length < bound) :
    EndsAt s (fun bound => perform bound (r read)) (p bound read) Q := by
  induction bound generalizing read s with
  | zero => omega
  | succ bound ih =>
    refine endsAt_turn (hr read) (hturn bound read s hs fun read' s' hs' hlength => .next hlength ?_)
    exact ih read' s' hs' (by omega)

/-- A call of a routine does what its body does, as one of the calls that have not returned. -/
theorem endsAt_call {s : RoutineState} {r : Routine α} (hr : r.isLoop = false) {p : Parser α} {depth calls : Nat}
    {R : List Token → Prop} (hs : s.Within depth calls)
    (h : EndsAt s.inCall (fun bound => r.body (perform bound)) p fun s' => s'.Within depth (calls + 1) ∧ R s'.tokens) :
    EndsAt s (fun bound => perform bound r) p fun s' => s'.Within depth calls ∧ R s'.tokens := by
  refine endsAt_perform ?_
  simp only [hr, Bool.false_eq_true, if_false]
  exact endsAt_called hs h

/-- A call that reads a token before it does anything else. -/
theorem endsAt_call_advance {s : RoutineState} {r : Routine α} (hr : r.isLoop = false) {f : Nat → Token → Run α}
    {g : Token → Parser α} {depth calls : Nat}
    (hbody : ∀ bound, r.body (perform bound) = lift Parser.advance >>= f bound)
    (hs : s.Within depth calls) (hcalls : calls < maxCalls)
    (h : ∀ t s', s'.Within depth (calls + 1) → EndsAt s' (f · t) (g t) (Within depth (calls + 1))) :
    EndsAt s (fun bound => perform bound r) (Parser.advance >>= g) fun s' => s'.Within depth calls ∧
      (s.next.kind ≠ .endOfInput → s'.tokens.length < s.tokens.length) := by
  let R : List Token → Prop := fun tokens => s.next.kind ≠ .endOfInput → tokens.length < s.tokens.length
  refine endsAt_call (R := R) hr hs ?_
  simp only [hbody]
  refine endsAt_advance_bind (hs.inCall hcalls) fun s₁ hs₁ _ hread => ?_
  exact (h _ s₁ hs₁).mono fun s' hsuffix hs' =>
    ⟨hs', fun hnext => Nat.lt_of_le_of_lt hsuffix.length_le (hread hnext)⟩

theorem height_pos {r : Routine α} (hr : r.isLoop = false) (levels : Nat) : 0 < r.height levels := by
  cases r <;> simp_all [isLoop, height]

theorem tracks_of_body {r : Routine α} (hr : r.isLoop = false) {levels : Nat} {p : Parser α}
    (h : ∀ (s : RoutineState) (depth calls : Nat), depth + levels = maxNesting →
      calls + r.height levels ≤ maxCalls + 1 → s.Within depth calls →
        EndsAt s (fun bound => r.body (perform bound)) p (Within depth calls)) :
    Tracks r levels p := by
  intro s depth calls hdepth hcalls hs
  have hpos := height_pos hr levels
  have hbody := h s.inCall depth (calls + 1) hdepth (by omega) (hs.inCall (by omega))
  have hcall := endsAt_call (R := fun _ => True) hr hs (hbody.mono fun _ _ hs' => ⟨hs', trivial⟩)
  exact hcall.mono fun _ _ hs' => hs'.1

/-- A routine that is run one level deeper. -/
theorem Tracks.nested {r : Routine α} {levels : Nat} {p : Parser α} (h : Tracks r levels p) {s : RoutineState}
    {depth calls : Nat} (hdepth : depth + (levels + 1) = maxNesting) (hcalls : calls + r.height levels ≤ maxCalls)
    (hs : s.Within depth calls) :
    EndsAt s (fun bound => Run.nested (perform bound r)) p (Within depth calls) := by
  have hdeeper : depth < maxNesting := by omega
  exact endsAt_nested hs hdeeper (h s.deeper (by omega) hcalls (hs.deeper hdeeper))

end Routine
end PluginSandbox
