import PluginSandbox.Language.Parser.Unit
import PluginSandbox.Proofs.Language.Reading

/-!
# Parsers that do not fail

What a block, a function, a plugin or a unit cannot read it records as an error, and goes on.  So none of their
parsers fails, whatever it is given.
-/

namespace PluginSandbox.Parser

variable {α β : Type}

/-- A parser does not fail. -/
def Succeeds (p : Parser α) : Prop :=
  ∀ s, (p s).1 ≠ none

theorem succeeds_pure (a : α) : Succeeds (pure a : Parser α) :=
  fun _ => Option.some_ne_none a

theorem Succeeds.bind {p : Parser α} {f : α → Parser β} (hp : Succeeds p) (hf : ∀ a, Succeeds (f a)) :
    Succeeds (p >>= f) := by
  intro s
  have hs := hp s
  rw [bind_apply]
  generalize p s = outcome at hs
  obtain ⟨result, s'⟩ := outcome
  cases result with
  | none => exact absurd rfl hs
  | some a => exact hf a s'

theorem succeeds_peek : Succeeds peek :=
  fun _ => Option.some_ne_none _

theorem succeeds_remaining : Succeeds remaining :=
  fun _ => Option.some_ne_none _

theorem succeeds_check (kind : TokenKind) : Succeeds (check kind) :=
  fun _ => Option.some_ne_none _

theorem succeeds_advance : Succeeds advance :=
  fun _ => Option.some_ne_none _

theorem succeeds_report (problem : SyntaxProblem) (position : Position) : Succeeds (report problem position) :=
  fun _ => Option.some_ne_none _

theorem succeeds_reportExpected (expected : String) : Succeeds (reportExpected expected) :=
  fun _ => Option.some_ne_none _

theorem succeeds_skipTo (test : TokenKind → Bool) : Succeeds (skipTo test) :=
  fun _ => Option.some_ne_none _

theorem succeeds_attempt (p : Parser α) : Succeeds (attempt p) :=
  fun _ => Option.some_ne_none _

theorem succeeds_orRecover (p : Parser α) : Succeeds (orRecover p) := by
  refine (succeeds_attempt p).bind fun result => ?_
  cases result with
  | some a => exact succeeds_pure _
  | none => exact fun _ => Option.some_ne_none _

/-- A block never fails. -/
theorem succeeds_block (statement : Parser Stmt) : Succeeds (block statement) := by
  have hstatements : ∀ bound read, Succeeds (statements statement bound read) := by
    intro bound
    induction bound with
    | zero => exact fun read => succeeds_pure _
    | succ bound ih =>
      refine fun read => succeeds_peek.bind fun t => ?_
      split
      · exact succeeds_pure _
      · exact succeeds_pure _
      · refine (succeeds_orRecover statement).bind fun result => ?_
        cases result with
        | some x => exact ih _
        | none => exact ih _
  refine (succeeds_attempt _).bind fun result => ?_
  cases result with
  | none => exact succeeds_pure _
  | some _ =>
    refine succeeds_remaining.bind fun bound => (hstatements _ _).bind fun body => ?_
    exact (succeeds_attempt _).bind fun _ => succeeds_pure _

theorem succeeds_skip {c : Prop} [Decidable c] {p : Parser Unit} (hp : Succeeds p) {f : Unit → Parser β}
    (hf : Succeeds (f ())) : Succeeds (if c then p >>= f else f ()) := by
  split
  · exact hp.bind fun _ => hf
  · exact hf

/-- A function never fails. -/
theorem succeeds_function : Succeeds function := by
  refine succeeds_advance.bind fun _ => (succeeds_attempt _).bind fun header => ?_
  refine succeeds_skip (succeeds_skipTo _) ((succeeds_check _).bind fun opens => ?_)
  split
  · exact (succeeds_block _).bind fun body => succeeds_pure _
  · exact succeeds_skip (succeeds_reportExpected _) ((succeeds_pure _).bind fun body => succeeds_pure _)

/-- A plugin never fails. -/
theorem succeeds_plugin : Succeeds plugin := by
  have hfunctions : ∀ bound read, Succeeds (functions bound read) := by
    intro bound
    induction bound with
    | zero => exact fun read => succeeds_pure _
    | succ bound ih =>
      refine fun read => succeeds_peek.bind fun t => ?_
      split
      · exact succeeds_pure _
      · exact succeeds_pure _
      · refine succeeds_function.bind fun result => ?_
        cases result with
        | some f => exact ih _
        | none => exact ih _
      · refine (succeeds_reportExpected _).bind fun _ => succeeds_advance.bind fun _ => ?_
        exact (succeeds_skipTo _).bind fun _ => ih _
  refine succeeds_advance.bind fun _ => (succeeds_attempt _).bind fun header => ?_
  refine succeeds_skip (succeeds_skipTo _) ((succeeds_attempt _).bind fun result => ?_)
  cases result with
  | none => exact succeeds_pure _
  | some _ =>
    refine succeeds_remaining.bind fun bound => (hfunctions _ _).bind fun fs => ?_
    exact (succeeds_attempt _).bind fun _ => succeeds_pure _

/-- A unit is read in any case. -/
theorem succeeds_unit (bound : Nat) (read : ParsedUnit) : Succeeds (unit bound read) := by
  induction bound generalizing read with
  | zero => exact succeeds_pure _
  | succ bound ih =>
    refine succeeds_peek.bind fun t => ?_
    split
    · exact succeeds_pure _
    · refine (succeeds_orRecover _).bind fun result => ?_
      cases result with
      | some i => exact ih _
      | none => exact ih _
    · refine succeeds_plugin.bind fun p => ?_
      split
      · exact (succeeds_report _ _).bind fun _ => ih _
      · exact ih _
    · refine (succeeds_reportExpected _).bind fun _ => succeeds_advance.bind fun _ => ?_
      exact (succeeds_skipTo _).bind fun _ => ih _

end PluginSandbox.Parser
