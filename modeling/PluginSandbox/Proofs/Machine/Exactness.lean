import PluginSandbox.Proofs.Arithmetic
import PluginSandbox.Proofs.Loader.Alone
import PluginSandbox.Proofs.Machine.Confinement
import PluginSandbox.Proofs.Native

/-!
# The machine computes exactly

What operations and platform functions give on integers, said on the integers themselves: the exact result where
that has 64 bits (`Exactly`), and a fault elsewhere.  A division by zero is a fault of its own, and a quotient and the
remainder beside it are missing for the same operands (`Division`).

A machine hands over what an operation gives or ends in its fault (`Machine.Exact`).
-/

namespace PluginSandbox

open Arithmetic (InRange Divides)

/-- An outcome is an exact integer, or a failure where that does not fit. -/
def Exactly {ε : Type} (n : Int) (overflow : ε) (outcome : Except ε Value) : Prop :=
  (∃ v : Int64, v.toInt = n ∧ outcome = .ok (.int v)) ∨ ¬ InRange n ∧ outcome = .error overflow

theorem Exactly.mapError {ε ε' : Type} {n : Int} {overflow : ε} {outcome : Except ε Value}
    (h : Exactly n overflow outcome) (f : ε → ε') : Exactly n (f overflow) (outcome.mapError f) := by
  obtain ⟨v, hv, rfl⟩ | ⟨hrange, rfl⟩ := h
  · exact .inl ⟨v, hv, rfl⟩
  · exact .inr ⟨hrange, rfl⟩

/-- The outcomes of a division: of the quotient, and of the remainder. -/
inductive Division (l r : Int) : Except Fault Value → Except Fault Value → Prop
  | byZero : r = 0 → Division l r (.error .divisionByZero) (.error .divisionByZero)
  | overflow : l = -(1 <<< 63) → r = -1 → Division l r (.error .integerOverflow) (.error .integerOverflow)
  | exact {q m : Int64} : r ≠ 0 → ¬ (l = -(1 <<< 63) ∧ r = -1) → Divides l r q.toInt m.toInt →
      Division l r (.ok (.int q)) (.ok (.int m))

/-- The outcome of an operation on two integers. -/
def BinaryOp.Computes (l r : Int) (outcome : Except Fault Value) : BinaryOp → Prop
  | .add => Exactly (l + r) .integerOverflow outcome
  | .sub => Exactly (l - r) .integerOverflow outcome
  | .mul => Exactly (l * r) .integerOverflow outcome
  | .div => ∃ remainder, Division l r outcome remainder
  | .rem => ∃ quotient, Division l r quotient outcome
  | .eq => outcome = .ok (.bool (decide (l = r)))
  | .ne => outcome = .ok (.bool (decide (l ≠ r)))
  | .lt => outcome = .ok (.bool (decide (l < r)))
  | .le => outcome = .ok (.bool (decide (l ≤ r)))
  | .gt => outcome = .ok (.bool (decide (l > r)))
  | .ge => outcome = .ok (.bool (decide (l ≥ r)))

/-- The outcome of a power: an exponent must be a natural number of 32 bits. -/
def PowerOf (base exponent : Int64) (outcome : Except PluginFailure Value) : Prop :=
  if 0 ≤ exponent.toInt ∧ exponent.toInt < 1 <<< 32 then
    Exactly (base.toInt.pow exponent.toInt.toNat) (.fault (.native (.functionOverflow "pow"))) outcome
  else outcome = .error (.fault (.native (.invalidExponent exponent)))

/-! ## Operations -/

theorem exactly_fittingInt {n : Int} {result : Option Int64} (h : Arithmetic.Exact n result) :
    Exactly n .integerOverflow (fittingInt result) := by
  obtain ⟨v, hv, rfl⟩ | ⟨hrange, rfl⟩ := h
  · exact .inl ⟨v, hv, rfl⟩
  · exact .inr ⟨hrange, rfl⟩

theorem Native.exactly_fitting {n : Int} {result : Option Int64} (h : Arithmetic.Exact n result)
    (function : String) : Exactly n (.fault (.functionOverflow function)) (fitting function result) := by
  obtain ⟨v, hv, rfl⟩ | ⟨hrange, rfl⟩ := h
  · exact .inl ⟨v, hv, rfl⟩
  · exact .inr ⟨hrange, rfl⟩

theorem UnaryOp.exactly_neg (n : Int64) : Exactly (-n.toInt) .integerOverflow (UnaryOp.neg.apply (.int n)) :=
  exactly_fittingInt (Arithmetic.exact_fit? _)

theorem BinaryOp.division_apply (l r : Int64) :
    Division l.toInt r.toInt (BinaryOp.div.apply (.int l) (.int r)) (BinaryOp.rem.apply (.int l) (.int r)) := by
  show Division _ _ (BinaryOp.applyInts l r .div) (BinaryOp.applyInts l r .rem)
  rw [applyInts, applyInts]
  by_cases hzero : r = 0
  · rw [if_pos hzero, if_pos hzero]
    exact .byZero (by rw [hzero]; rfl)
  have hne : r.toInt ≠ 0 := fun h => hzero (Int64.toInt_inj.1 h)
  rw [if_neg hzero, if_neg hzero]
  obtain ⟨hl, hr, hq, hm⟩ | ⟨hfits, q, m, hq, hm, hquotient, hremainder⟩ := Arithmetic.div?_rem? l r
  · rw [hq, hm]
    exact .overflow hl hr
  · rw [hq, hm]
    refine .exact hne hfits ?_
    rw [hquotient, hremainder]
    exact Arithmetic.divides_tdiv hne

theorem BinaryOp.computes_apply (op : BinaryOp) (l r : Int64) :
    op.Computes l.toInt r.toInt (op.apply (.int l) (.int r)) := by
  cases op with
  | add | sub | mul => exact exactly_fittingInt (Arithmetic.exact_fit? _)
  | div => exact ⟨_, division_apply l r⟩
  | rem => exact ⟨_, division_apply l r⟩
  | eq =>
    have hsame : l.toInt = r.toInt ↔ l = r := Int64.toInt_inj
    simp [Computes, apply, applyInts, hsame]
  | ne =>
    have hsame : l.toInt = r.toInt ↔ l = r := Int64.toInt_inj
    simp [Computes, apply, applyInts, hsame]
  | lt | le | gt | ge => rfl

/-! ## Platform functions -/

theorem Native.exists_abs (host : Host) (n : Int64) (rest : List Value) (c : PluginContext) :
    ∃ outcome, Exactly n.toInt.natAbs (.fault (.native (.functionOverflow "abs"))) outcome ∧
      Native.abs.run host (.int n :: rest) c = (outcome, c) := by
  have harg : intArg "abs" (.int n :: rest) 0 = .ok n := rfl
  -- Said of any continuation, so that nothing computes with the bounds of 64 bits.
  have hbind : ∀ next : Int64 → Except NativeFailure Value, (Except.ok n >>= next) = next n := fun _ => rfl
  refine ⟨_, (exactly_fitting (Arithmetic.exact_abs? n) "abs").mapError PluginFailure.ofNative, ?_⟩
  rw [abs, run_ofArgs, harg, hbind]

theorem Native.exists_pow (host : Host) (base exponent : Int64) (rest : List Value) (c : PluginContext) :
    ∃ outcome, PowerOf base exponent outcome ∧
      Native.pow.run host (.int base :: .int exponent :: rest) c = (outcome, c) := by
  refine ⟨_, ?_, run_ofArgs _ _ _ _⟩
  show PowerOf base exponent (Except.mapError _ (if 0 ≤ exponent.toInt ∧ exponent.toInt < 1 <<< 32 then
    fitting "pow" (Arithmetic.pow? base exponent.toInt.toNat)
    else .error (.fault (.invalidExponent exponent))))
  rw [PowerOf]
  split
  · exact (exactly_fitting (Arithmetic.exact_pow? base _) "pow").mapError PluginFailure.ofNative
  · rfl

/-! ## Steps of the machine -/

namespace Machine

variable {setting : MachineSetting}

/-- The values that a machine holds: its operands, and the local slots of all frames. -/
def values (m : Machine) : List Value :=
  m.stack.toList ++ (m.frame :: m.callers.toList).flatMap fun frame => frame.locals.toList

/-- A machine behind an operation that has popped its operands. -/
def popped (m : Machine) (below : Counted Value) : Machine :=
  { m.advanced with stack := below }

/-- Every integer that a machine holds has 64 bits, and its next step computes exactly: it hands over an exact result,
or ends the run in the fault that says why there is none. -/
structure Exact (setting : MachineSetting) (m : Machine) : Prop where
  inRange : ∀ n : Int64, .int n ∈ m.values → InRange n.toInt
  neg : ∀ n below, m.op? = some (.unary .neg) → m.stack = below.push (.int n) →
    ∃ outcome, Exactly (-n.toInt) .integerOverflow outcome ∧
      m.step setting = (m.popped below).pushResult outcome
  binary : ∀ op l r below, m.op? = some (.binary op) → m.stack = (below.push (.int l)).push (.int r) →
    ∃ outcome, op.Computes l.toInt r.toInt outcome ∧ m.step setting = (m.popped below).pushResult outcome
  abs : ∀ call n rest, m.nativeCall? = some call → call.function.implementation = .abs →
    call.args = .int n :: rest →
    ∃ outcome, Exactly n.toInt.natAbs (.fault (.native (.functionOverflow "abs"))) outcome ∧
      m.step setting = m.resume call (outcome, m.context)
  pow : ∀ call base exponent rest, m.nativeCall? = some call → call.function.implementation = .pow →
    call.args = .int base :: .int exponent :: rest →
    ∃ outcome, PowerOf base exponent outcome ∧ m.step setting = m.resume call (outcome, m.context)

theorem step_of_unary {m : Machine} {op : UnaryOp} {v : Value} {below : Counted Value}
    (hop : m.op? = some (.unary op)) (hstack : m.stack = below.push v) :
    m.step setting = (m.popped below).pushResult (op.apply v) := by
  have hpop : m.advanced.stack.pop? = some (v, below) := Counted.pop?_eq_some.2 hstack
  rw [step_of_op hop, perform, withOperand, hpop]
  rfl

theorem step_of_binary {m : Machine} {op : BinaryOp} {l r : Value} {below : Counted Value}
    (hop : m.op? = some (.binary op)) (hstack : m.stack = (below.push l).push r) :
    m.step setting = (m.popped below).pushResult (op.apply l r) := by
  have hpop : m.advanced.stack.pop? = some (r, below.push l) := Counted.pop?_eq_some.2 hstack
  rw [step_of_op hop, perform, withOperand, hpop]
  show withOperand { m.advanced with stack := below.push l } _ = _
  rw [withOperand]
  have hpop' : (below.push l).pop? = some (l, below) := Counted.pop?_push _ _
  dsimp only
  rw [hpop']
  rfl

theorem exact (setting : MachineSetting) (m : Machine) : m.Exact setting where
  inRange n _ := Arithmetic.inRange_toInt n
  neg n _ hop hstack := ⟨_, UnaryOp.exactly_neg n, step_of_unary hop hstack⟩
  binary op l r _ hop hstack := ⟨_, op.computes_apply l r, step_of_binary hop hstack⟩
  abs call n rest hcall hfunction hargs := by
    obtain ⟨outcome, hexact, hrun⟩ := Native.exists_abs setting.host n rest m.context
    exact ⟨outcome, hexact, by rw [step_of_nativeCall? hcall, hfunction, hargs, hrun]⟩
  pow call base exponent rest hcall hfunction hargs := by
    obtain ⟨outcome, hpower, hrun⟩ := Native.exists_pow setting.host base exponent rest m.context
    exact ⟨outcome, hpower, by rw [step_of_nativeCall? hcall, hfunction, hargs, hrun]⟩

end Machine

/-- What operations and platform functions give on all integers. -/
structure ExactOperations : Prop where
  binary : ∀ (op : BinaryOp) (l r : Int64), op.Computes l.toInt r.toInt (op.apply (.int l) (.int r))
  division : ∀ l r : Int64,
    Division l.toInt r.toInt (BinaryOp.div.apply (.int l) (.int r)) (BinaryOp.rem.apply (.int l) (.int r))
  neg : ∀ n : Int64, Exactly (-n.toInt) .integerOverflow (UnaryOp.neg.apply (.int n))
  abs : ∀ (host : Host) (n : Int64) (rest : List Value) (c : PluginContext),
    ∃ outcome, Exactly n.toInt.natAbs (.fault (.native (.functionOverflow "abs"))) outcome ∧
      Native.abs.run host (.int n :: rest) c = (outcome, c)
  pow : ∀ (host : Host) (base exponent : Int64) (rest : List Value) (c : PluginContext),
    ∃ outcome, PowerOf base exponent outcome ∧
      Native.pow.run host (.int base :: .int exponent :: rest) c = (outcome, c)

/-- **Integer arithmetic is exact or faults.** Whatever the operands are, an operation on integers gives the exact
integer where that has 64 bits and the overflow fault elsewhere.  A quotient and a remainder are both there, and are
those of the integers, or are both missing for the same reason: the divisor is zero, or the quotient does not fit.
Comparisons are those of the integers, and powers are exact for every exponent of 32 bits.

So wherever a plugin has come to, whatever it was made of: the next step computes exactly, and every integer among the
operands and in the slots has 64 bits. -/
theorem arithmetic_exact_or_faults :
    ExactOperations ∧ ∀ (setting : MachineSetting) (m : Machine), m.Exact setting :=
  ⟨⟨BinaryOp.computes_apply, BinaryOp.division_apply, UnaryOp.exactly_neg, Native.exists_abs, Native.exists_pow⟩,
    Machine.exact⟩

/-- A module, written by hand, that doubles the least integer's half twice: the first sum is the least integer, and
the second one does not fit. -/
def doubling : Module where
  formatVersion := Module.currentVersion
  name := "contract.Doubling"
  contract := defaultContract.qualifiedName
  functions :=
    #[{ name := ContractType.entryOperation, arity := 0, locals := 1
        code :=
          #[.const (.int (Int64.ofInt (-(1 <<< 62)))), .store 0, .load 0, .load 0, .binary .add, .store 0, .load 0,
            .load 0, .binary .add, .ret] }]

/-- The module that doubles, in front of the sum that does not fit. -/
theorem arithmetic_exact_doubling :
    ∃ (module : LoadedModule) (plugin : Plugin) (m : Machine),
      (((LoadSource.alone doubling).afterLoading []).load doubling.name).1 = .ok module ∧
        Plugin.instantiate module 8 = .ok plugin ∧
        (Machine.start ((LoadSource.alone doubling).afterLoading ([] ++ doubling.name :: [])) plugin.context
          plugin.module plugin.entry).runWithin
            { host := .empty, maxCallDepth := plugin.maxCallDepth } (.steps 8) = .next m ∧
        m.op? = some (.binary .add) ∧ m.stack.toList = [.int Int64.minValue, .int Int64.minValue] ∧
        m.Exact { host := .empty, maxCallDepth := plugin.maxCallDepth } := by
  have hfits : doubling.Fits := ⟨by decide, by simp [doubling, Function.fits_iff, Op.Fits]⟩
  have hload := LoadSource.load_alone_unlinked hfits (by decide +kernel) (by decide +kernel) []
  exact ⟨_, _, _, hload, rfl, rfl, rfl, rfl, arithmetic_exact_or_faults.2 _ _⟩

end PluginSandbox
