import PluginSandbox.Machine.Timed

/-!
# The steps of the machine

`Machine.Moves` says, operation by operation, from which machine a step leads to which other one, with
everything that the operation checks.  The machine that it starts from is already at the operation behind.
`step_eq_next_iff` ties it to the machine's step, so an invariant of runs is one case per operation.
-/

namespace PluginSandbox

/-- The slots of a function that is entered. -/
theorem Frame.size_initialLocals (f : Function) (args : List Value) :
    slotCount f ≤ (initialLocals f args).size := by
  rw [initialLocals, Array.size_append, Array.size_replicate, List.size_toArray]
  omega

namespace Machine

variable {setting : MachineSetting}

/-- What an operation does to a machine that goes on. -/
inductive Moves (setting : MachineSetting) (m : Machine) : Op → Machine → Prop
  | const (v : Value) : Moves setting m (.const v) (m.push v)
  | load {slot : Nat} {v : Value} : m.frame.locals[slot]? = some v →
      Moves setting m (.load slot) (m.push v)
  | store {slot : Nat} {v : Value} {stack : Counted Value} : m.stack.pop? = some (v, stack) →
      slot < m.frame.locals.size →
      Moves setting m (.store slot)
        { m with stack, frame := { m.frame with locals := m.frame.locals.setIfInBounds slot v } }
  | unary {op : UnaryOp} {v r : Value} {stack : Counted Value} : m.stack.pop? = some (v, stack) →
      op.apply v = .ok r → Moves setting m (.unary op) (push { m with stack } r)
  | binary {op : BinaryOp} {left right r : Value} {stack stack' : Counted Value} :
      m.stack.pop? = some (right, stack) → stack.pop? = some (left, stack') →
      op.apply left right = .ok r → Moves setting m (.binary op) (push { m with stack := stack' } r)
  | jump (target : Nat) : Moves setting m (.jump target) (m.jump target)
  | goOn {target : Nat} {stack : Counted Value} : m.stack.pop? = some (.bool true, stack) →
      Moves setting m (.jumpIfFalse target) { m with stack }
  | goElsewhere {target : Nat} {stack : Counted Value} : m.stack.pop? = some (.bool false, stack) →
      Moves setting m (.jumpIfFalse target) (jump { m with stack } target)
  | call {function argc : Nat} {args : List Value} {stack : Counted Value} {f : Function} :
      m.stack.popMany? argc = some (args, stack) → m.depth < setting.maxCallDepth →
      m.frame.module.module.functions[function]? = some f → f.arity = args.length →
      ¬ Frame.Overflows f →
      Moves setting m (.call function argc)
        { m with
          stack, frame := Frame.enter m.frame.module f args stack.size
          callers := m.callers.push m.frame }
  | callNative {location : Location} {symbol : String} {argc : Nat} {args : List Value}
      {stack : Counted Value} {f : NativeFunction} {v : Value} {context : PluginContext} :
      m.stack.popMany? argc = some (args, stack) →
      m.frame.module.native? location symbol = some f →
      f.implementation.run setting.host args m.context = (.ok v, context) →
      Moves setting m (.callNative location symbol argc) (push { m with stack, context } v)
  | callUnit {unit function : String} {argc : Nat} {args : List Value} {stack : Counted Value}
      {callee : LoadedModule} {f : Function} :
      m.stack.popMany? argc = some (args, stack) → (m.loader.load unit).1 = .ok callee →
      callee.module.function? function = some f → m.depth < setting.maxCallDepth →
      f.arity = args.length → ¬ Frame.Overflows f →
      Moves setting m (.callUnit unit function argc)
        { m with
          stack, loader := (m.loader.load unit).2
          frame := Frame.enter callee f args stack.size, callers := m.callers.push m.frame }
  | pop {v : Value} {stack : Counted Value} : m.stack.pop? = some (v, stack) →
      Moves setting m .pop { m with stack }
  | ret {v : Value} {stack : Counted Value} {frame : Frame} {callers : Counted Frame} :
      m.stack.pop? = some (v, stack) → m.callers.pop? = some (frame, callers) →
      Moves setting m .ret
        { m with frame, callers, stack := (stack.truncate m.frame.base).push v }

/-! ## Inversion of the pieces of a step -/

@[simp] theorem failed_ne_next {m m' : Machine} {e : PluginFailure} : m.failed e ≠ .next m' := by
  simp [failed]

@[simp] theorem faulted_ne_next {m m' : Machine} {e : Fault} : m.faulted e ≠ .next m' := by
  simp [faulted]

theorem withOperand_eq_next {m m' : Machine} {next : Value → Machine → Step} :
    m.withOperand next = .next m' ↔
      ∃ v stack, m.stack.pop? = some (v, stack) ∧ next v { m with stack } = .next m' := by
  rw [withOperand]
  cases hpop : m.stack.pop? with
  | none => simp
  | some top =>
    constructor
    · intro h
      exact ⟨top.1, top.2, rfl, h⟩
    · rintro ⟨v, stack, htop, h⟩
      obtain rfl := Option.some.inj htop
      exact h

theorem withArgs_eq_next {m m' : Machine} {argc : Nat} {next : List Value → Machine → Step} :
    m.withArgs argc next = .next m' ↔
      ∃ args stack, m.stack.popMany? argc = some (args, stack) ∧
        next args { m with stack } = .next m' := by
  rw [withArgs]
  cases hpop : m.stack.popMany? argc with
  | none => simp
  | some top =>
    constructor
    · intro h
      exact ⟨top.1, top.2, rfl, h⟩
    · rintro ⟨args, stack, htop, h⟩
      obtain rfl := Option.some.inj htop
      exact h

theorem pushResult_eq_next {m m' : Machine} {r : Except Fault Value} :
    m.pushResult r = .next m' ↔ ∃ v, r = .ok v ∧ m.push v = m' := by
  cases r <;> simp [pushResult]

theorem enter_eq_next {m m' : Machine} {callee : LoadedModule} {f : Option Function}
    {args : List Value} :
    m.enter setting callee f args = .next m' ↔
      ∃ g, f = some g ∧ m.depth < setting.maxCallDepth ∧ g.arity = args.length ∧
        ¬ Frame.Overflows g ∧
        { m with
          frame := Frame.enter callee g args m.stack.size
          callers := m.callers.push m.frame } = m' := by
  unfold enter
  by_cases hdepth : setting.maxCallDepth ≤ m.depth
  · simp [hdepth, Nat.not_lt.2 hdepth]
  · cases f with
    | none => simp [hdepth]
    | some g =>
      by_cases harity : g.arity = args.length
      · by_cases hover : Frame.Overflows g
        · simp [hdepth, harity, hover]
        · simp [hdepth, harity, hover, Nat.lt_of_not_le hdepth]
      · simp [hdepth, harity]

theorem callNative_eq_next {m m' : Machine} {location : Location} {symbol : String}
    {args : List Value} :
    m.callNative setting location symbol args = .next m' ↔
      ∃ f v context, m.frame.module.native? location symbol = some f ∧
        f.implementation.run setting.host args m.context = (.ok v, context) ∧
        push { m with context } v = m' := by
  rw [callNative]
  cases hf : m.frame.module.native? location symbol with
  | none => simp
  | some f =>
    rcases hrun : f.implementation.run setting.host args m.context with ⟨result, context⟩
    cases result <;> simp [hrun, and_assoc]

theorem callUnit_eq_next {m m' : Machine} {unit function : String} {args : List Value} :
    m.callUnit setting unit function args = .next m' ↔
      ∃ callee f, (m.loader.load unit).1 = .ok callee ∧
        callee.module.function? function = some f ∧
        enter setting callee (some f) args { m with loader := (m.loader.load unit).2 } =
          .next m' := by
  rw [callUnit]
  dsimp only
  cases hl : (m.loader.load unit).1 with
  | error e => simp
  | ok callee =>
    cases hf : callee.module.function? function with
    | none => simp [hf]
    | some f => simp [hf]

theorem ret_eq_next {m m' : Machine} {v : Value} :
    m.ret v = .next m' ↔
      ∃ frame callers, m.callers.pop? = some (frame, callers) ∧
        { m with frame, callers, stack := (m.stack.truncate m.frame.base).push v } = m' := by
  rw [ret]
  cases hpop : m.callers.pop? with
  | none => simp
  | some top =>
    constructor
    · intro h
      exact ⟨top.1, top.2, rfl, Step.next.inj h⟩
    · rintro ⟨frame, callers, htop, rfl⟩
      obtain rfl := Option.some.inj htop
      rfl

/-! ## Operations -/

/-- An operation that goes on moves. -/
theorem moves_of_perform {m m' : Machine} {op : Op} (h : m.perform setting op = .next m') :
    Moves setting m op m' := by
  cases op with
  | const v =>
    obtain rfl := Step.next.inj h
    exact .const v
  | load slot =>
    rw [perform] at h
    split at h
    · next v hv =>
      obtain rfl := Step.next.inj h
      exact .load hv
    · exact absurd h faulted_ne_next
  | store slot =>
    rw [perform] at h
    obtain ⟨v, stack, hpop, h⟩ := withOperand_eq_next.1 h
    split at h
    · next hslot =>
      obtain rfl := Step.next.inj h
      exact .store hpop hslot
    · exact absurd h faulted_ne_next
  | unary op =>
    rw [perform] at h
    obtain ⟨v, stack, hpop, h⟩ := withOperand_eq_next.1 h
    obtain ⟨r, hr, rfl⟩ := pushResult_eq_next.1 h
    exact .unary hpop hr
  | binary op =>
    rw [perform] at h
    obtain ⟨right, stack, hright, h⟩ := withOperand_eq_next.1 h
    obtain ⟨left, stack', hleft, h⟩ := withOperand_eq_next.1 h
    obtain ⟨r, hr, rfl⟩ := pushResult_eq_next.1 h
    exact .binary hright hleft hr
  | jump target =>
    obtain rfl := Step.next.inj h
    exact .jump target
  | jumpIfFalse target =>
    rw [perform] at h
    obtain ⟨v, stack, hpop, h⟩ := withOperand_eq_next.1 h
    split at h
    · obtain rfl := Step.next.inj h
      exact .goOn hpop
    · obtain rfl := Step.next.inj h
      exact .goElsewhere hpop
    · exact absurd h faulted_ne_next
  | call function argc =>
    rw [perform] at h
    obtain ⟨args, stack, hargs, h⟩ := withArgs_eq_next.1 h
    obtain ⟨f, hf, hdepth, harity, hfits, rfl⟩ := enter_eq_next.1 h
    exact .call hargs hdepth hf harity hfits
  | callNative location symbol argc =>
    rw [perform] at h
    obtain ⟨args, stack, hargs, h⟩ := withArgs_eq_next.1 h
    obtain ⟨f, v, context, hf, hrun, rfl⟩ := callNative_eq_next.1 h
    exact .callNative hargs hf hrun
  | callUnit unit function argc =>
    rw [perform] at h
    obtain ⟨args, stack, hargs, h⟩ := withArgs_eq_next.1 h
    obtain ⟨callee, f, hload, hf, h⟩ := callUnit_eq_next.1 h
    obtain ⟨g, hg, hdepth, harity, hfits, rfl⟩ := enter_eq_next.1 h
    obtain rfl := Option.some.inj hg
    exact .callUnit hargs hload hf hdepth harity hfits
  | pop =>
    rw [perform] at h
    obtain ⟨v, stack, hpop, h⟩ := withOperand_eq_next.1 h
    obtain rfl := Step.next.inj h
    exact .pop hpop
  | ret =>
    rw [perform] at h
    obtain ⟨v, stack, hpop, h⟩ := withOperand_eq_next.1 h
    obtain ⟨frame, callers, hcallers, rfl⟩ := ret_eq_next.1 h
    exact .ret hpop hcallers

/-- An operation goes on as it moves. -/
theorem perform_of_moves {m m' : Machine} {op : Op} (h : Moves setting m op m') :
    m.perform setting op = .next m' := by
  cases h with
  | const v => rfl
  | load hv => simp only [perform, hv]
  | store hpop hslot =>
    rw [perform]
    exact withOperand_eq_next.2 ⟨_, _, hpop, if_pos hslot⟩
  | unary hpop hr =>
    rw [perform]
    exact withOperand_eq_next.2 ⟨_, _, hpop, pushResult_eq_next.2 ⟨_, hr, rfl⟩⟩
  | binary hright hleft hr =>
    rw [perform]
    exact withOperand_eq_next.2 ⟨_, _, hright,
      withOperand_eq_next.2 ⟨_, _, hleft, pushResult_eq_next.2 ⟨_, hr, rfl⟩⟩⟩
  | jump target => rfl
  | goOn hpop =>
    rw [perform]
    exact withOperand_eq_next.2 ⟨_, _, hpop, rfl⟩
  | goElsewhere hpop =>
    rw [perform]
    exact withOperand_eq_next.2 ⟨_, _, hpop, rfl⟩
  | call hargs hdepth hf harity hfits =>
    rw [perform]
    exact withArgs_eq_next.2 ⟨_, _, hargs, enter_eq_next.2 ⟨_, hf, hdepth, harity, hfits, rfl⟩⟩
  | callNative hargs hf hrun =>
    rw [perform]
    exact withArgs_eq_next.2 ⟨_, _, hargs, callNative_eq_next.2 ⟨_, _, _, hf, hrun, rfl⟩⟩
  | callUnit hargs hload hf hdepth harity hfits =>
    rw [perform]
    exact withArgs_eq_next.2 ⟨_, _, hargs, callUnit_eq_next.2 ⟨_, _, hload, hf,
      enter_eq_next.2 ⟨_, rfl, hdepth, harity, hfits, rfl⟩⟩⟩
  | pop hpop =>
    rw [perform]
    exact withOperand_eq_next.2 ⟨_, _, hpop, rfl⟩
  | ret hpop hcallers =>
    rw [perform]
    exact withOperand_eq_next.2 ⟨_, _, hpop, ret_eq_next.2 ⟨_, _, hcallers, rfl⟩⟩

/-- Carrying out an operation goes on exactly as the operation moves. -/
theorem perform_eq_next_iff {m m' : Machine} {op : Op} :
    m.perform setting op = .next m' ↔ Moves setting m op m' :=
  ⟨moves_of_perform, perform_of_moves⟩

/-! ## Calls that only the limit on frames can refuse -/

/-- Entering a function with as many arguments as it takes, and with slots that memory can hold. -/
theorem enter_of_arity {m : Machine} {callee : LoadedModule} {f : Function} {args : List Value}
    (harity : f.arity = args.length) (hfits : ¬ Frame.Overflows f) :
    m.enter setting callee (some f) args =
      if setting.maxCallDepth ≤ m.depth then m.faulted (.depthExceeded setting.maxCallDepth)
      else
        .next
          { m with
            frame := Frame.enter callee f args m.stack.size
            callers := m.callers.push m.frame } := by
  unfold enter
  split
  · rfl
  · dsimp only
    rw [if_neg (fun hne => hne harity), if_neg hfits]

/-- Calling a function of a unit that can be loaded. -/
theorem callUnit_of_load {m : Machine} {unit function : String} {args : List Value}
    {callee : LoadedModule} {f : Function} (hload : (m.loader.load unit).1 = .ok callee)
    (hf : callee.module.function? function = some f) :
    m.callUnit setting unit function args =
      enter setting callee (some f) args { m with loader := (m.loader.load unit).2 } := by
  rw [callUnit]
  dsimp only
  rw [hload]
  dsimp only
  rw [hf]

/-! ## Single steps -/

/-- The operation that a machine is at. -/
def op? (m : Machine) : Option Op :=
  m.frame.function.code[m.frame.pc]?

/-- The machine at the operation behind. -/
def advanced (m : Machine) : Machine :=
  m.jump (m.frame.pc + 1)

theorem step_of_op {m : Machine} {op : Op} (h : m.op? = some op) :
    m.step setting = m.advanced.perform setting op := by
  rw [op?] at h
  simp only [step, h]
  rfl

/-- A step goes on exactly as the operation moves that the machine is at. -/
theorem step_eq_next_iff {m m' : Machine} :
    m.step setting = .next m' ↔ ∃ op, m.op? = some op ∧ Moves setting m.advanced op m' := by
  constructor
  · intro h
    cases hop : m.op? with
    | none =>
      rw [op?] at hop
      simp only [step, hop] at h
      exact absurd h faulted_ne_next
    | some op =>
      rw [step_of_op hop] at h
      exact ⟨op, rfl, perform_eq_next_iff.1 h⟩
  · rintro ⟨op, hop, h⟩
    rw [step_of_op hop]
    exact perform_eq_next_iff.2 h

/-! ## Runs -/

theorem run_succ (n : Nat) (m : Machine) :
    m.run setting (n + 1) = match m.step setting with
      | .next m => m.run setting n
      | .done e => .done e := rfl

/-- A property that every step keeps holds throughout a run. -/
theorem run_invariant {P : Machine → Prop}
    (hstep : ∀ m m', P m → m.step setting = .next m' → P m') :
    ∀ (n : Nat) {m m' : Machine}, P m → m.run setting n = .next m' → P m'
  | 0, m, m', hm, h => by
    obtain rfl := Step.next.inj h
    exact hm
  | n + 1, m, m', hm, h => by
    rw [run_succ] at h
    cases hs : m.step setting with
    | next m₁ =>
      rw [hs] at h
      exact run_invariant hstep n (hstep m m₁ hm hs) h
    | done e =>
      rw [hs] at h
      exact absurd h (by simp)

/-- A run against the clock is a run of some number of steps. -/
theorem exists_run_of_runTimed (time : Nat) :
    ∀ (wait : Nat) (m : Machine), ∃ n, m.runTimed setting time wait = m.run setting n := by
  induction time with
  | zero => exact fun _ _ => ⟨0, rfl⟩
  | succ time ih =>
    rintro (_ | wait) m
    · cases hs : m.step setting with
      | next after =>
        obtain ⟨n, hn⟩ := ih m.delay after
        refine ⟨n + 1, ?_⟩
        rw [run_succ, runTimed, hs]
        exact hn
      | done e =>
        refine ⟨1, ?_⟩
        rw [run_succ, runTimed, hs]
    · exact ih wait m

/-- A run within a limit is a run of some number of steps. -/
theorem exists_run_of_runWithin (setting : MachineSetting) (limit : Limit) (m : Machine) :
    ∃ n, m.runWithin setting limit = m.run setting n := by
  cases limit with
  | steps n => exact ⟨n, rfl⟩
  | time units => exact exists_run_of_runTimed units 0 m

end Machine
end PluginSandbox
