import PluginSandbox.Proofs.Machine.Step

/-!
# How operations end a run

`Machine.Stops` says, operation by operation, with which result a step ends the run, as `Machine.Moves` says
where a step leads that goes on.  Most of these results are faults, and each comes with what the machine has
found.  So a property of the ends of runs is one case per way to end (`stops_of_perform`).

The faults of operations on values (`Fault.OfValues`) are faults of their own, and so are those of functions of the
platform (`Native.fault_of_run`): none of them is about the code.
-/

namespace PluginSandbox

/-! ## Operations on values -/

/-- A fault of an operation on values. -/
inductive Fault.OfValues : Fault → Prop
  | integerOverflow : OfValues .integerOverflow
  | divisionByZero : OfValues .divisionByZero
  | notApplicable (op : UnaryOp) (operand : ValueType) : OfValues (.notApplicable op operand)
  | notApplicable₂ (op : BinaryOp) (left right : ValueType) : OfValues (.notApplicable₂ op left right)

theorem ofValues_of_fittingInt {n : Option Int64} {cause : Fault} (h : fittingInt n = .error cause) :
    cause.OfValues := by
  cases n with
  | some n => exact absurd h (by simp [fittingInt])
  | none =>
    obtain rfl := Except.error.inj h
    exact .integerOverflow

theorem UnaryOp.ofValues_of_apply {op : UnaryOp} {v : Value} {cause : Fault}
    (h : op.apply v = .error cause) : cause.OfValues := by
  rw [UnaryOp.apply.eq_def] at h
  split at h
  · exact ofValues_of_fittingInt h
  · exact absurd h (by simp)
  · obtain rfl := Except.error.inj h
    exact .notApplicable _ _

theorem BinaryOp.ofValues_of_applyInts {op : BinaryOp} {l r : Int64} {cause : Fault}
    (h : op.applyInts l r = .error cause) : cause.OfValues := by
  cases op with
  | add | sub | mul => exact ofValues_of_fittingInt h
  | div | rem =>
    rw [applyInts] at h
    split at h
    · obtain rfl := Except.error.inj h
      exact .divisionByZero
    · exact ofValues_of_fittingInt h
  | eq | ne | lt | le | gt | ge => exact absurd h (by simp [applyInts])

theorem BinaryOp.ofValues_of_applyStrings {op : BinaryOp} {l r : String} {cause : Fault}
    (h : op.applyStrings l r = .error cause) : cause.OfValues := by
  cases op with
  | sub | mul | div | rem =>
    obtain rfl := Except.error.inj h
    exact .notApplicable₂ _ _ _
  | add | eq | ne | lt | le | gt | ge => exact absurd h (by simp [applyStrings])

theorem BinaryOp.ofValues_of_apply {op : BinaryOp} {l r : Value} {cause : Fault}
    (h : op.apply l r = .error cause) : cause.OfValues := by
  rw [BinaryOp.apply.eq_def] at h
  split at h
  · exact ofValues_of_applyInts h
  · exact ofValues_of_applyStrings h
  · split at h
    · exact absurd h (by simp)
    · exact absurd h (by simp)
    · obtain rfl := Except.error.inj h
      exact .notApplicable₂ _ _ _

/-! ## Functions of the platform -/

namespace Native

variable {f : Native} {host : Host} {args : List Value} {c : PluginContext}

/-- What a call fails with is what the function says. -/
theorem failure_of_run {failure : PluginFailure} (h : (f.run host args c).1 = .error failure) :
    ∃ said, (f.reply host args c.toNativeContext).result = .error said ∧ failure = .ofNative said := by
  have hresult : (f.reply host args c.toNativeContext).result.mapError PluginFailure.ofNative = .error failure := h
  cases hreply : (f.reply host args c.toNativeContext).result with
  | ok v =>
    rw [hreply] at hresult
    exact nomatch hresult
  | error said =>
    rw [hreply] at hresult
    exact ⟨said, rfl, (Except.error.inj hresult).symm⟩

/-- A function of the platform has faults of its own. -/
theorem fault_of_run {cause : Fault} (h : (f.run host args c).1 = .error (.fault cause)) :
    ∃ said, cause = .native said := by
  obtain ⟨said, _, hsaid⟩ := failure_of_run h
  cases said with
  | fault said => exact ⟨said, PluginFailure.fault.inj hsaid⟩
  | signaled | instantiation | panicked => exact absurd hsaid nofun

/-- A call that blames an entry point is one of a function that does so. -/
theorem instantiation_of_run {flaw : EntryFlaw} (h : (f.run host args c).1 = .error (.instantiation flaw)) :
    ∃ text, (f.reply host args c.toNativeContext).result = .error (.instantiation text) ∧ flaw = .reported text := by
  obtain ⟨said, hreply, hsaid⟩ := failure_of_run h
  cases said with
  | instantiation text => exact ⟨text, hreply, PluginFailure.instantiation.inj hsaid⟩
  | signaled | fault | panicked => exact absurd hsaid nofun

end Native

/-! ## Operations -/

/-- The number of operands that an operation pops. -/
def Op.operands : Op → Nat
  | .const _ | .load _ | .jump _ => 0
  | .store _ | .unary _ | .jumpIfFalse _ | .pop | .ret => 1
  | .binary _ => 2
  | .call _ argc | .callNative _ _ argc | .callUnit _ _ argc => argc

namespace Machine

variable {setting : MachineSetting}

/-- Why a machine with some number of frames does not enter a function with some arguments. -/
inductive Refuses (setting : MachineSetting) (depth : Nat) :
    Option Function → List Value → PluginFailure → Prop
  | depth {f : Option Function} {args : List Value} : setting.maxCallDepth ≤ depth →
      Refuses setting depth f args (.fault (.depthExceeded setting.maxCallDepth))
  | unknown {args : List Value} : depth < setting.maxCallDepth →
      Refuses setting depth none args (.fault .unknownFunction)
  | arity {f : Function} {args : List Value} : depth < setting.maxCallDepth → f.arity ≠ args.length →
      Refuses setting depth (some f) args (.fault (.wrongArity f.name f.arity args.length))
  | overflow {f : Function} {args : List Value} : depth < setting.maxCallDepth →
      f.arity = args.length → Frame.Overflows f →
      Refuses setting depth (some f) args (.crashed .capacityOverflow)

/-- With which result an operation ends a run. -/
inductive Stops (setting : MachineSetting) (m : Machine) : Op → Except PluginFailure Value → Prop
  | underflow {op : Op} : m.stack.size < op.operands →
      Stops setting m op (.error (.fault .operandUnderflow))
  | load {slot : Nat} : m.frame.locals.size ≤ slot →
      Stops setting m (.load slot) (.error (.fault .slotOutOfRange))
  | store {slot : Nat} : m.frame.locals.size ≤ slot →
      Stops setting m (.store slot) (.error (.fault .slotOutOfRange))
  | unary {op : UnaryOp} {v : Value} {stack : Counted Value} {cause : Fault} :
      m.stack.pop? = some (v, stack) → op.apply v = .error cause →
      Stops setting m (.unary op) (.error (.fault cause))
  | binary {op : BinaryOp} {left right : Value} {stack stack' : Counted Value} {cause : Fault} :
      m.stack.pop? = some (right, stack) → stack.pop? = some (left, stack') →
      op.apply left right = .error cause → Stops setting m (.binary op) (.error (.fault cause))
  | condition {target : Nat} {v : Value} {stack : Counted Value} : m.stack.pop? = some (v, stack) →
      (∀ b, v ≠ .bool b) →
      Stops setting m (.jumpIfFalse target) (.error (.fault (.conditionNotBool v.type)))
  | call {function argc : Nat} {args : List Value} {stack : Counted Value} {failure : PluginFailure} :
      m.stack.popMany? argc = some (args, stack) →
      Refuses setting m.depth m.frame.module.module.functions[function]? args failure →
      Stops setting m (.call function argc) (.error failure)
  | notLinked {location : Location} {symbol : String} {argc : Nat} :
      m.frame.module.native? location symbol = none →
      Stops setting m (.callNative location symbol argc) (.error (.fault (.notLinked symbol)))
  | callNative {location : Location} {symbol : String} {argc : Nat} {args : List Value}
      {stack : Counted Value} {f : NativeFunction} {failure : PluginFailure} :
      m.stack.popMany? argc = some (args, stack) →
      m.frame.module.native? location symbol = some f →
      (f.implementation.run setting.host args m.context).1 = .error failure →
      Stops setting m (.callNative location symbol argc) (.error failure)
  | notLoaded {unit function : String} {argc : Nat} {cause : SandboxError} :
      (m.loader.load unit).1 = .error cause →
      Stops setting m (.callUnit unit function argc) (.error (.fault (.notLoaded cause)))
  | noFunction {unit function : String} {argc : Nat} {callee : LoadedModule} :
      (m.loader.load unit).1 = .ok callee → callee.module.function? function = none →
      Stops setting m (.callUnit unit function argc) (.error (.fault (.noFunction unit function)))
  | callUnit {unit function : String} {argc : Nat} {args : List Value} {stack : Counted Value}
      {callee : LoadedModule} {f : Function} {failure : PluginFailure} :
      m.stack.popMany? argc = some (args, stack) → (m.loader.load unit).1 = .ok callee →
      callee.module.function? function = some f → Refuses setting m.depth (some f) args failure →
      Stops setting m (.callUnit unit function argc) (.error failure)
  | ret {v : Value} {stack : Counted Value} : m.stack.pop? = some (v, stack) →
      m.callers.pop? = none → Stops setting m .ret (.ok v)

/-! ## Inversion of the pieces of a step -/

theorem result_of_failed {m : Machine} {failure : PluginFailure} {e : MachineEnd}
    (h : m.failed failure = .done e) : e.result = .error failure := by
  obtain rfl := Step.done.inj h
  rfl

theorem result_of_faulted {m : Machine} {cause : Fault} {e : MachineEnd}
    (h : m.faulted cause = .done e) : e.result = .error (.fault cause) :=
  result_of_failed h

theorem size_of_pop?_eq_none {α : Type} {s : Counted α} (h : s.pop? = none) : s.size = 0 := by
  obtain ⟨items, size, hsize⟩ := s
  cases items with
  | nil => exact hsize
  | cons a items => exact absurd h (by simp [Counted.pop?])

theorem size_of_popMany?_eq_none {α : Type} {s : Counted α} {n : Nat} (h : s.popMany? n = none) :
    s.size < n := by
  rw [Counted.popMany?] at h
  split at h
  · next hsize => exact hsize
  · exact absurd h (by simp)

theorem withOperand_eq_done {m : Machine} {next : Value → Machine → Step} {e : MachineEnd}
    (h : m.withOperand next = .done e) :
    (m.stack.size = 0 ∧ e.result = .error (.fault .operandUnderflow)) ∨
      ∃ v stack, m.stack.pop? = some (v, stack) ∧ next v { m with stack } = .done e := by
  rw [withOperand] at h
  split at h
  · next v stack hpop => exact .inr ⟨v, stack, hpop, h⟩
  · next hpop => exact .inl ⟨size_of_pop?_eq_none hpop, result_of_faulted h⟩

theorem withArgs_eq_done {m : Machine} {argc : Nat} {next : List Value → Machine → Step}
    {e : MachineEnd} (h : m.withArgs argc next = .done e) :
    (m.stack.size < argc ∧ e.result = .error (.fault .operandUnderflow)) ∨
      ∃ args stack, m.stack.popMany? argc = some (args, stack) ∧ next args { m with stack } = .done e := by
  rw [withArgs] at h
  split at h
  · next args stack hpop => exact .inr ⟨args, stack, hpop, h⟩
  · next hpop => exact .inl ⟨size_of_popMany?_eq_none hpop, result_of_faulted h⟩

theorem pushResult_eq_done {m : Machine} {r : Except Fault Value} {e : MachineEnd}
    (h : m.pushResult r = .done e) : ∃ cause, r = .error cause ∧ e.result = .error (.fault cause) := by
  cases r with
  | ok v => exact absurd h (by simp [pushResult])
  | error cause => exact ⟨cause, rfl, result_of_faulted h⟩

theorem enter_eq_done {m : Machine} {callee : LoadedModule} {f : Option Function} {args : List Value}
    {e : MachineEnd} (h : m.enter setting callee f args = .done e) :
    ∃ failure, e.result = .error failure ∧ Refuses setting m.depth f args failure := by
  unfold enter at h
  split at h
  · next hdepth => exact ⟨_, result_of_faulted h, .depth hdepth⟩
  · next hdepth =>
    have hlt := Nat.lt_of_not_le hdepth
    cases f with
    | none => exact ⟨_, result_of_faulted h, .unknown hlt⟩
    | some f =>
      dsimp only at h
      split at h
      · next harity => exact ⟨_, result_of_faulted h, .arity hlt harity⟩
      · next harity =>
        split at h
        · next hover => exact ⟨_, result_of_failed h, .overflow hlt (Decidable.not_not.1 harity) hover⟩
        · exact absurd h (by simp)

theorem callNative_eq_done {m : Machine} {location : Location} {symbol : String} {args : List Value} {e : MachineEnd}
    (h : m.callNative setting location symbol args = .done e) :
    (m.frame.module.native? location symbol = none ∧ e.result = .error (.fault (.notLinked symbol))) ∨
      ∃ f failure, m.frame.module.native? location symbol = some f ∧
        (f.implementation.run setting.host args m.context).1 = .error failure ∧ e.result = .error failure := by
  rw [callNative] at h
  split at h
  · next hlink => exact .inl ⟨hlink, result_of_faulted h⟩
  · next f hlink =>
    rcases hrun : f.implementation.run setting.host args m.context with ⟨result, context⟩
    cases result with
    | ok v =>
      simp only [hrun] at h
      exact absurd h (by simp)
    | error failure =>
      simp only [hrun] at h
      exact .inr ⟨f, failure, hlink, by rw [hrun], result_of_failed h⟩

theorem callUnit_eq_done {m : Machine} {unit function : String} {args : List Value} {e : MachineEnd}
    (h : m.callUnit setting unit function args = .done e) :
    (∃ cause, (m.loader.load unit).1 = .error cause ∧ e.result = .error (.fault (.notLoaded cause))) ∨
      ∃ callee, (m.loader.load unit).1 = .ok callee ∧
        (callee.module.function? function = none ∧ e.result = .error (.fault (.noFunction unit function)) ∨
          ∃ f failure, callee.module.function? function = some f ∧ e.result = .error failure ∧
            Refuses setting m.depth (some f) args failure) := by
  rw [callUnit] at h
  dsimp only at h
  split at h
  · next cause hload => exact .inl ⟨cause, hload, result_of_faulted h⟩
  · next callee hload =>
    refine .inr ⟨callee, hload, ?_⟩
    split at h
    · next hf => exact .inl ⟨hf, result_of_faulted h⟩
    · next f hf =>
      obtain ⟨failure, hresult, hrefuses⟩ := enter_eq_done h
      exact .inr ⟨f, failure, hf, hresult, hrefuses⟩

/-- An operation that pops an operand stops if there is none; else it is up to what is done with the operand. -/
theorem stops_of_withOperand {m : Machine} {op : Op} {next : Value → Machine → Step} {e : MachineEnd}
    (h : m.withOperand next = .done e) (hop : 0 < op.operands)
    (hnext : ∀ v stack, m.stack.pop? = some (v, stack) → next v { m with stack } = .done e →
      Stops setting m op e.result) : Stops setting m op e.result := by
  obtain ⟨hsize, hresult⟩ | ⟨v, stack, hpop, h⟩ := withOperand_eq_done h
  · rw [hresult]
    exact .underflow (hsize ▸ hop)
  · exact hnext v stack hpop h

/-- A call stops if there are too few arguments; else it is up to what is done with them. -/
theorem stops_of_withArgs {m : Machine} {op : Op} {next : List Value → Machine → Step} {e : MachineEnd}
    (h : m.withArgs op.operands next = .done e)
    (hnext : ∀ args stack, m.stack.popMany? op.operands = some (args, stack) → next args { m with stack } = .done e →
      Stops setting m op e.result) : Stops setting m op e.result := by
  obtain ⟨hsize, hresult⟩ | ⟨args, stack, hargs, h⟩ := withArgs_eq_done h
  · rw [hresult]
    exact .underflow hsize
  · exact hnext args stack hargs h

/-- An operation that ends a run stops it. -/
theorem stops_of_perform {m : Machine} {op : Op} {e : MachineEnd}
    (h : m.perform setting op = .done e) : Stops setting m op e.result := by
  cases op with
  | const v | jump target => exact absurd h (by simp [perform])
  | load slot =>
    rw [perform] at h
    split at h
    · exact absurd h (by simp)
    · next hslot =>
      rw [result_of_faulted h]
      exact .load (Array.getElem?_eq_none_iff.1 hslot)
  | store slot =>
    rw [perform] at h
    refine stops_of_withOperand h Nat.one_pos fun v stack hpop h => ?_
    split at h
    · exact absurd h (by simp)
    · next hslot =>
      rw [result_of_faulted h]
      exact .store (Nat.le_of_not_lt hslot)
  | unary op =>
    rw [perform] at h
    refine stops_of_withOperand h Nat.one_pos fun v stack hpop h => ?_
    obtain ⟨cause, hcause, hresult⟩ := pushResult_eq_done h
    rw [hresult]
    exact .unary hpop hcause
  | binary op =>
    rw [perform] at h
    refine stops_of_withOperand h Nat.two_pos fun right stack hright h => ?_
    obtain ⟨hsize, hresult⟩ | ⟨left, stack', hleft, h⟩ := withOperand_eq_done h
    · have hpushed : m.stack.size = stack.size + 1 := by
        rw [Counted.pop?_eq_some.1 hright]
        rfl
      have hempty : stack.size = 0 := hsize
      rw [hresult]
      exact .underflow (show m.stack.size < 2 by omega)
    · obtain ⟨cause, hcause, hresult⟩ := pushResult_eq_done h
      rw [hresult]
      exact .binary hright hleft hcause
  | jumpIfFalse target =>
    rw [perform] at h
    refine stops_of_withOperand h Nat.one_pos fun v stack hpop h => ?_
    split at h
    · exact absurd h (by simp)
    · exact absurd h (by simp)
    · next htrue hfalse =>
      rw [result_of_faulted h]
      refine .condition hpop fun b hb => ?_
      cases b with
      | true => exact htrue hb
      | false => exact hfalse hb
  | call function argc =>
    rw [perform] at h
    refine stops_of_withArgs h fun args stack hargs h => ?_
    obtain ⟨failure, hresult, hrefuses⟩ := enter_eq_done h
    rw [hresult]
    exact .call hargs hrefuses
  | callNative location symbol argc =>
    rw [perform] at h
    refine stops_of_withArgs h fun args stack hargs h => ?_
    obtain ⟨hlink, hresult⟩ | ⟨f, failure, hlink, hrun, hresult⟩ := callNative_eq_done h
    · rw [hresult]
      exact .notLinked hlink
    · rw [hresult]
      exact .callNative hargs hlink hrun
  | callUnit unit function argc =>
    rw [perform] at h
    refine stops_of_withArgs h fun args stack hargs h => ?_
    obtain ⟨cause, hload, hresult⟩ | ⟨callee, hload, ⟨hf, hresult⟩ | ⟨f, failure, hf, hresult, hrefuses⟩⟩ :=
      callUnit_eq_done h
    · rw [hresult]
      exact .notLoaded hload
    · rw [hresult]
      exact .noFunction hload hf
    · rw [hresult]
      exact .callUnit hargs hload hf hrefuses
  | pop =>
    rw [perform] at h
    exact stops_of_withOperand h Nat.one_pos fun v stack hpop h => absurd h (by simp)
  | ret =>
    rw [perform] at h
    refine stops_of_withOperand h Nat.one_pos fun v stack hpop h => ?_
    rw [ret] at h
    split at h
    · next hcallers =>
      obtain rfl := Step.done.inj h
      exact .ret hpop hcallers
    · exact absurd h (by simp)

/-- A step that ends a run stops at the operation that the machine is at, or there is no operation. -/
theorem stops_of_step {m : Machine} {e : MachineEnd} (h : m.step setting = .done e) :
    (m.op? = none ∧ e.result = .error (.fault .ranPastEnd)) ∨
      ∃ op, m.op? = some op ∧ Stops setting m.advanced op e.result := by
  cases hop : m.op? with
  | none =>
    rw [op?] at hop
    simp only [step, hop] at h
    exact .inl ⟨rfl, result_of_faulted h⟩
  | some op =>
    rw [step_of_op hop] at h
    exact .inr ⟨op, rfl, stops_of_perform h⟩

end Machine
end PluginSandbox
