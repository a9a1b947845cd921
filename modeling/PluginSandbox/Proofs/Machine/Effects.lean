import PluginSandbox.Proofs.Loader.Memory
import PluginSandbox.Proofs.Machine.Step

/-!
# What a step leaves behind

Besides its frames and its operands a machine has a loader, and there is what the plugin has left behind.
Operations that call neither a platform function nor another unit change nothing of the two
(`Machine.perform_effects`).

A call of another unit asks the loader for that unit, so the loader behind a run is the loader before it after
some attempts to load names (`Machine.run_loader`), which are read off the machines of the run
(`Machine.loads`).
-/

namespace PluginSandbox

/-- The unit that an operation calls a function of. -/
def Op.unitReference? : Op → Option String
  | .callUnit unit _ _ => some unit
  | _ => none

/-- The loader of a machine, and what the plugin has left behind. -/
def Machine.effects (m : Machine) : Loader × PluginContext :=
  (m.loader, m.context)

/-- The loader behind a step, and what the plugin has left behind. -/
def Step.effects : Step → Loader × PluginContext
  | .next m => m.effects
  | .done e => (e.loader, e.context)

namespace Machine

variable {setting : MachineSetting}

/-! ## The pieces of a step -/

theorem withOperand_effects {m : Machine} {next : Value → Machine → Step}
    (h : ∀ v stack, (next v { m with stack }).effects = m.effects) :
    (m.withOperand next).effects = m.effects := by
  rw [withOperand]
  split
  · exact h _ _
  · rfl

theorem withArgs_effects {m : Machine} {argc : Nat} {next : List Value → Machine → Step}
    (h : ∀ args stack, (next args { m with stack }).effects = m.effects) :
    (m.withArgs argc next).effects = m.effects := by
  rw [withArgs]
  split
  · exact h _ _
  · rfl

theorem pushResult_effects (m : Machine) (r : Except Fault Value) :
    (m.pushResult r).effects = m.effects := by
  cases r <;> rfl

theorem enter_effects (m : Machine) (callee : LoadedModule) (f : Option Function)
    (args : List Value) : (m.enter setting callee f args).effects = m.effects := by
  unfold enter
  split
  · rfl
  · split
    · rfl
    · split
      · rfl
      · split <;> rfl

theorem ret_effects (m : Machine) (v : Value) : (m.ret v).effects = m.effects := by
  rw [ret]
  split <;> rfl

/-- A call of another unit asks the loader for it, whatever becomes of the call. -/
theorem callUnit_effects (m : Machine) (unit function : String) (args : List Value) :
    (m.callUnit setting unit function args).effects = ((m.loader.load unit).2, m.context) := by
  rw [callUnit]
  dsimp only
  split
  · rfl
  · split
    · rfl
    · exact enter_effects _ _ _ _

/-- A call of a platform function leaves the loader alone. -/
theorem callNative_loader (m : Machine) (location : Location) (symbol : String) (args : List Value) :
    (m.callNative setting location symbol args).effects.1 = m.loader := by
  rw [callNative]
  split
  · rfl
  · dsimp only
    split <;> rfl

/-! ## Operations -/

/-- Operations that call neither a platform function nor another unit change neither the loader nor what the
plugin has left behind. -/
theorem perform_effects {m : Machine} {op : Op} (hnative : Module.nativeReference? op = none)
    (hunit : op.unitReference? = none) : (m.perform setting op).effects = m.effects := by
  cases op with
  | const v => rfl
  | load slot =>
    rw [perform]
    split <;> rfl
  | store slot =>
    rw [perform]
    refine withOperand_effects fun v stack => ?_
    split <;> rfl
  | unary op =>
    rw [perform]
    exact withOperand_effects fun v stack => pushResult_effects _ _
  | binary op =>
    rw [perform]
    refine withOperand_effects fun right stack => ?_
    exact withOperand_effects fun left stack' => pushResult_effects _ _
  | jump target => rfl
  | jumpIfFalse target =>
    rw [perform]
    refine withOperand_effects fun v stack => ?_
    split <;> rfl
  | call function argc =>
    rw [perform]
    exact withArgs_effects fun args stack => enter_effects _ _ _ _
  | callNative location symbol argc => exact absurd hnative (by simp [Module.nativeReference?])
  | callUnit unit function argc => exact absurd hunit (by simp [Op.unitReference?])
  | pop =>
    rw [perform]
    exact withOperand_effects fun v stack => rfl
  | ret =>
    rw [perform]
    exact withOperand_effects fun v stack => ret_effects _ _

/-- A call of another unit asks the loader for it, if there are as many operands as it takes. -/
theorem perform_callUnit_effects (m : Machine) (unit function : String) (argc : Nat) :
    (m.perform setting (.callUnit unit function argc)).effects =
      (if (m.stack.popMany? argc).isSome then (m.loader.load unit).2 else m.loader, m.context) := by
  rw [perform, withArgs]
  split
  · next args stack hargs =>
    rw [hargs]
    exact callUnit_effects _ _ _ _
  · next hargs =>
    rw [hargs]
    rfl

theorem perform_callNative_loader (m : Machine) (location : Location) (symbol : String) (argc : Nat) :
    (m.perform setting (.callNative location symbol argc)).effects.1 = m.loader := by
  rw [perform, withArgs]
  split
  · exact callNative_loader _ _ _ _
  · rfl

/-! ## Loading -/

/-- The name that the next step of a machine asks the loader for, if it asks for one. -/
def loadCall? (m : Machine) : Option String :=
  match m.op? with
  | some (.callUnit unit _ argc) => if (m.stack.popMany? argc).isSome then some unit else none
  | _ => none

/-- A step only asks the loader for what it calls. -/
theorem step_loader (setting : MachineSetting) (m : Machine) :
    (m.step setting).effects.1 = m.loader.afterLoading m.loadCall?.toList := by
  cases hop : m.op? with
  | none =>
    have hnone : m.loadCall? = none := by rw [loadCall?, hop]
    rw [op?] at hop
    simp only [step, hop, hnone]
    rfl
  | some op =>
    rw [step_of_op hop]
    cases op with
    | callUnit unit function argc =>
      have hcall : m.loadCall? = if (m.stack.popMany? argc).isSome then some unit else none := by
        rw [loadCall?, hop]
      rw [perform_callUnit_effects, hcall]
      show (if (m.stack.popMany? argc).isSome = true then _ else _) = _
      split <;> rfl
    | callNative location symbol argc =>
      have hnone : m.loadCall? = none := by rw [loadCall?, hop]
      rw [perform_callNative_loader, hnone]
      rfl
    | _ =>
      have hnone : m.loadCall? = none := by rw [loadCall?, hop]
      rw [perform_effects rfl rfl, hnone]
      rfl

/-- The names that a run of at most some number of steps asks the loader for, in order. -/
def loads (setting : MachineSetting) : Nat → Machine → List String
  | 0, _ => []
  | steps + 1, m =>
    m.loadCall?.toList ++
      match m.step setting with
      | .next m => loads setting steps m
      | .done _ => []

/-- A run leaves the loader that is left by the attempts to load what it asks for. -/
theorem run_loader (setting : MachineSetting) (steps : Nat) (m : Machine) :
    (m.run setting steps).effects.1 = m.loader.afterLoading (m.loads setting steps) := by
  induction steps generalizing m with
  | zero => rfl
  | succ steps ih =>
    have hstep := step_loader setting m
    have happend : ∀ names, m.loader.afterLoading (m.loadCall?.toList ++ names) =
        (m.loader.afterLoading m.loadCall?.toList).afterLoading names := fun _ => List.foldl_append
    rw [run_succ, loads]
    cases hs : m.step setting with
    | next m' =>
      rw [hs] at hstep
      rw [happend, ← hstep]
      exact ih m'
    | done e =>
      rw [hs] at hstep
      rw [happend, ← hstep]
      rfl

end Machine
end PluginSandbox
