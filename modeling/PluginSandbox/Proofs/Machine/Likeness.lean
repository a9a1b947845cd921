import PluginSandbox.Proofs.Machine.Calls

/-!
# Machines that are alike

A machine learns of its loader only what it loads, and of what has been left behind only what functions of the platform
make of it.  So machines that differ in these two only go through the same steps, as long as the loaders answer the same
and so do the functions that are called (`Machine.run_like`).

What that means is a `Likeness`: a relation of loaders that is kept by loading, and one of what has been left behind that
is kept by the functions that it admits.
-/

namespace PluginSandbox

/-- When loaders are alike, and what has been left behind.  Loaders that are alike answer the same, and so do functions
that are admitted where what has been left behind is alike; and all remains alike whatever is loaded and called. -/
structure Likeness where
  Loaders : Loader → Loader → Prop
  Contexts : PluginContext → PluginContext → Prop
  Admits : Native → Prop
  answers : ∀ {l l' : Loader}, Loaders l l' → ∀ name, (l'.load name).1 = (l.load name).1
  load : ∀ {l l' : Loader}, Loaders l l' → ∀ name, Loaders (l.load name).2 (l'.load name).2
  run : ∀ {c c' : PluginContext}, Contexts c c' → ∀ {f : Native}, Admits f → ∀ (host : Host) (args : List Value),
    (f.run host args c').1 = (f.run host args c).1 ∧ Contexts (f.run host args c).2 (f.run host args c').2

/-- The machine with another loader, and with something else left behind. -/
def Machine.beside (m : Machine) (loader : Loader) (context : PluginContext) : Machine :=
  { m with loader, context }

/-- Two outcomes are the same but for loaders and contexts, which are alike. -/
inductive Step.Like (k : Likeness) : Step → Step → Prop
  | next {m : Machine} {l : Loader} {c : PluginContext} : k.Loaders m.loader l → k.Contexts m.context c →
      Like k (.next m) (.next (m.beside l c))
  | done {r : Except PluginFailure Value} {l l' : Loader} {c c' : PluginContext} : k.Loaders l l' →
      k.Contexts c c' → Like k (.done ⟨r, l, c⟩) (.done ⟨r, l', c'⟩)

namespace Machine

variable {setting : MachineSetting} {k : Likeness} {m : Machine} {l : Loader} {c : PluginContext}

/-! ## The pieces of a step -/

theorem failed_like (hl : k.Loaders m.loader l) (hc : k.Contexts m.context c) (failure : PluginFailure) :
    Step.Like k (m.failed failure) ((m.beside l c).failed failure) :=
  .done hl hc

theorem withOperand_like {next : Value → Machine → Step} (hl : k.Loaders m.loader l) (hc : k.Contexts m.context c)
    (hnext : ∀ v stack, Step.Like k (next v { m with stack }) (next v (beside { m with stack } l c))) :
    Step.Like k (m.withOperand next) ((m.beside l c).withOperand next) := by
  have hstack : (m.beside l c).stack = m.stack := rfl
  rw [withOperand, withOperand, hstack]
  cases m.stack.pop? with
  | none => exact failed_like hl hc _
  | some top => exact hnext top.1 top.2

theorem withArgs_like {argc : Nat} {next : List Value → Machine → Step} (hl : k.Loaders m.loader l)
    (hc : k.Contexts m.context c)
    (hnext : ∀ args stack, Step.Like k (next args { m with stack }) (next args (beside { m with stack } l c))) :
    Step.Like k (m.withArgs argc next) ((m.beside l c).withArgs argc next) := by
  have hstack : (m.beside l c).stack = m.stack := rfl
  rw [withArgs, withArgs, hstack]
  cases m.stack.popMany? argc with
  | none => exact failed_like hl hc _
  | some top => exact hnext top.1 top.2

theorem pushResult_like (hl : k.Loaders m.loader l) (hc : k.Contexts m.context c) (r : Except Fault Value) :
    Step.Like k (m.pushResult r) ((m.beside l c).pushResult r) := by
  cases r with
  | ok v => exact .next (m := m.push v) hl hc
  | error cause => exact failed_like hl hc _

theorem enter_like (hl : k.Loaders m.loader l) (hc : k.Contexts m.context c) (callee : LoadedModule)
    (f : Option Function) (args : List Value) :
    Step.Like k (m.enter setting callee f args) ((m.beside l c).enter setting callee f args) := by
  have hdepth : (m.beside l c).depth = m.depth := rfl
  unfold enter
  rw [hdepth]
  by_cases hfull : setting.maxCallDepth ≤ m.depth
  · rw [if_pos hfull, if_pos hfull]
    exact failed_like hl hc _
  rw [if_neg hfull, if_neg hfull]
  cases f with
  | none => exact failed_like hl hc _
  | some f =>
    dsimp only
    by_cases harity : f.arity ≠ args.length
    · rw [if_pos harity, if_pos harity]
      exact failed_like hl hc _
    rw [if_neg harity, if_neg harity]
    by_cases hover : Frame.Overflows f
    · rw [if_pos hover, if_pos hover]
      exact failed_like hl hc _
    · rw [if_neg hover, if_neg hover]
      exact .next hl hc

theorem callNative_like (hl : k.Loaders m.loader l) (hc : k.Contexts m.context c)
    (hm : m.frame.module.Calls k.Admits) (location : Location) (symbol : String) (args : List Value) :
    Step.Like k (m.callNative setting location symbol args)
      ((m.beside l c).callNative setting location symbol args) := by
  have hframe : (m.beside l c).frame = m.frame := rfl
  have hcontext : (m.beside l c).context = c := rfl
  rw [callNative, callNative, hframe, hcontext]
  cases hf : m.frame.module.native? location symbol with
  | none => exact failed_like hl hc _
  | some f =>
    obtain ⟨hsame, hleft⟩ := k.run hc (hm location symbol f hf) setting.host args
    dsimp only
    rw [hsame]
    cases (f.implementation.run setting.host args m.context).1 with
    | ok v => exact .next (m := push { m with context := (f.implementation.run setting.host args m.context).2 } v) hl hleft
    | error failure => exact .done hl hleft

theorem callUnit_like (hl : k.Loaders m.loader l) (hc : k.Contexts m.context c) (unit function : String)
    (args : List Value) :
    Step.Like k (m.callUnit setting unit function args) ((m.beside l c).callUnit setting unit function args) := by
  have hanswer : ((m.beside l c).loader.load unit).1 = (m.loader.load unit).1 := k.answers hl unit
  have hloaded : k.Loaders (m.loader.load unit).2 ((m.beside l c).loader.load unit).2 := k.load hl unit
  rw [callUnit, callUnit]
  dsimp only
  rw [hanswer]
  cases (m.loader.load unit).1 with
  | error cause => exact .done hloaded hc
  | ok callee =>
    dsimp only
    cases callee.module.function? function with
    | none => exact .done hloaded hc
    | some f => exact enter_like (m := { m with loader := (m.loader.load unit).2 }) hloaded hc callee (some f) args

theorem ret_like (hl : k.Loaders m.loader l) (hc : k.Contexts m.context c) (v : Value) :
    Step.Like k (m.ret v) ((m.beside l c).ret v) := by
  have hcallers : (m.beside l c).callers = m.callers := rfl
  rw [ret, ret, hcallers]
  cases m.callers.pop? with
  | none => exact .done hl hc
  | some top => exact .next hl hc

/-! ## Steps and runs -/

/-- An operation does the same to machines that are alike. -/
theorem perform_like (hl : k.Loaders m.loader l) (hc : k.Contexts m.context c)
    (hm : m.frame.module.Calls k.Admits) (op : Op) :
    Step.Like k (m.perform setting op) ((m.beside l c).perform setting op) := by
  cases op with
  | const v => exact .next (m := m.push v) hl hc
  | load slot =>
    have hframe : (m.beside l c).frame = m.frame := rfl
    rw [perform, perform, hframe]
    cases m.frame.locals[slot]? with
    | none => exact failed_like hl hc _
    | some v => exact .next (m := m.push v) hl hc
  | store slot =>
    rw [perform, perform]
    refine withOperand_like hl hc fun v stack => ?_
    by_cases hslot : slot < m.frame.locals.size
    · rw [if_pos hslot, if_pos (show slot < (beside { m with stack } l c).frame.locals.size from hslot)]
      exact .next (m := { m with stack, frame := { m.frame with locals := m.frame.locals.setIfInBounds slot v } }) hl hc
    · rw [if_neg hslot, if_neg (show ¬ slot < (beside { m with stack } l c).frame.locals.size from hslot)]
      exact failed_like (m := { m with stack }) hl hc _
  | unary op =>
    rw [perform, perform]
    exact withOperand_like hl hc fun v stack => pushResult_like (m := { m with stack }) hl hc _
  | binary op =>
    rw [perform, perform]
    refine withOperand_like hl hc fun right stack => withOperand_like (m := { m with stack }) hl hc fun left stack => ?_
    exact pushResult_like (m := { m with stack }) hl hc _
  | jump target => exact .next (m := m.jump target) hl hc
  | jumpIfFalse target =>
    rw [perform, perform]
    refine withOperand_like hl hc fun v stack => ?_
    cases v with
    | bool b =>
      cases b with
      | true => exact .next (m := { m with stack }) hl hc
      | false => exact .next (m := jump { m with stack } target) hl hc
    | _ => exact failed_like (m := { m with stack }) hl hc _
  | call function argc =>
    rw [perform, perform]
    exact withArgs_like hl hc fun args stack => enter_like (m := { m with stack }) hl hc _ _ _
  | callNative location symbol argc =>
    rw [perform, perform]
    exact withArgs_like hl hc fun args stack => callNative_like (m := { m with stack }) hl hc hm _ _ _
  | callUnit unit function argc =>
    rw [perform, perform]
    exact withArgs_like hl hc fun args stack => callUnit_like (m := { m with stack }) hl hc _ _ _
  | pop =>
    rw [perform, perform]
    exact withOperand_like hl hc fun v stack => .next (m := { m with stack }) hl hc
  | ret =>
    rw [perform, perform]
    exact withOperand_like hl hc fun v stack => ret_like (m := { m with stack }) hl hc _

/-- Machines that are alike make the same step. -/
theorem step_like (hl : k.Loaders m.loader l) (hc : k.Contexts m.context c) (hm : m.frame.module.Calls k.Admits) :
    Step.Like k (m.step setting) ((m.beside l c).step setting) := by
  cases hop : m.op? with
  | none =>
    rw [op?] at hop
    have hop' : (m.beside l c).frame.function.code[(m.beside l c).frame.pc]? = none := hop
    simp only [step, hop, hop']
    exact failed_like hl hc _
  | some op =>
    have hop' : (m.beside l c).op? = some op := hop
    rw [step_of_op hop, step_of_op hop']
    exact perform_like (m := m.advanced) hl hc hm op

/-- Machines that are alike go the same way. -/
theorem run_like (hl : k.Loaders m.loader l) (hc : k.Contexts m.context c) (hm : m.Calls k.Admits) (n : Nat) :
    Step.Like k (m.run setting n) ((m.beside l c).run setting n) := by
  induction n generalizing m l c with
  | zero => exact .next hl hc
  | succ n ih =>
    have hstep : Step.Like k (m.step setting) ((m.beside l c).step setting) := step_like hl hc hm.frame
    have hnext : ∀ m', m.step setting = .next m' → m'.Calls k.Admits := fun _ => hm.step
    rw [run_succ, run_succ]
    generalize m.step setting = s at hstep hnext ⊢
    generalize (m.beside l c).step setting = s' at hstep ⊢
    cases hstep with
    | next hl hc => exact ih hl hc (hnext _ rfl)
    | done hl hc => exact .done hl hc

end Machine
end PluginSandbox
