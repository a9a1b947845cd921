import PluginSandbox.Proofs.Loader.Memory
import PluginSandbox.Proofs.Machine.Follow

/-!
# Places in running code

Where a machine stands in the code of a function, and what its operands and its slots are
(`Machine.At`).  For each operation there is a lemma that takes a machine over it: to follow an evaluation from
in front of the operation it is enough to follow it from behind, or the operation itself follows an evaluation.
-/

namespace PluginSandbox

/-! ## Pieces of code -/

/-- Some operations stand in the code of a function, from some index on. -/
def Function.HasAt (f : Function) (start : Nat) (code : List Op) : Prop :=
  ∃ before behind, f.code.toList = before ++ code ++ behind ∧ before.length = start

namespace Function.HasAt

variable {f : Function} {start : Nat} {code more : List Op}

theorem left (h : f.HasAt start (code ++ more)) : f.HasAt start code := by
  obtain ⟨before, behind, hcode, hlength⟩ := h
  exact ⟨before, more ++ behind, by rw [hcode]; simp only [List.append_assoc], hlength⟩

theorem right (h : f.HasAt start (code ++ more)) {index : Nat} (hindex : index = start + code.length) :
    f.HasAt index more := by
  obtain ⟨before, behind, hcode, rfl⟩ := h
  refine ⟨before ++ code, behind, by rw [hcode]; simp only [List.append_assoc], ?_⟩
  rw [List.length_append, hindex]

theorem tail {op : Op} (h : f.HasAt start (op :: code)) : f.HasAt (start + 1) code :=
  right (show f.HasAt start ([op] ++ code) from h) rfl

/-- The first operation of a piece of code stands where the piece starts. -/
theorem op {op : Op} (h : f.HasAt start (op :: code)) : f.code[start]? = some op := by
  obtain ⟨before, behind, hcode, rfl⟩ := h
  rw [← Array.getElem?_toList, hcode, List.append_assoc, List.getElem?_append_right (Nat.le_refl _),
    Nat.sub_self]
  rfl

/-- The operation behind a piece of code. -/
theorem opBehind {op : Op} (h : f.HasAt start (code ++ op :: more)) {index : Nat}
    (hindex : index = start + code.length) : f.code[index]? = some op :=
  (h.right hindex).op

end Function.HasAt

/-! ## Operands -/

/-- A list with more items on top, pushed one after the other. -/
def Counted.pushAll {α : Type} (s : Counted α) (items : List α) : Counted α :=
  items.foldl Counted.push s

theorem Counted.toList_pushAll {α : Type} (s : Counted α) (items : List α) :
    (s.pushAll items).toList = items.reverse ++ s.toList := by
  induction items generalizing s with
  | nil => rfl
  | cons a items ih =>
    rw [pushAll, List.foldl_cons]
    refine (ih (s.push a)).trans ?_
    rw [toList_push, List.reverse_cons, List.append_assoc, List.singleton_append]

/-- What was pushed one after the other is popped together. -/
theorem Counted.popMany?_pushAll {α : Type} (s : Counted α) (items : List α) :
    (s.pushAll items).popMany? items.length = some (items, s) :=
  popMany?_eq_some.2 ⟨rfl, toList_pushAll s items⟩

/-! ## Places -/

namespace Machine

/-- The machine stands at an index of the code of a frame's function, with some callers, slots and operands, and
loads faithfully from a source. -/
structure At (m : Machine) (s : LoadSource) (fr : Frame) (callers : Counted Frame) (pc : Nat)
    (locals : Array Value) (stack : Counted Value) : Prop where
  frame : m.frame = { fr with pc, locals }
  callers : m.callers = callers
  stack : m.stack = stack
  source : m.loader.source = s
  faithful : m.loader.Faithful

variable {setting : MachineSetting} {m : Machine} {s : LoadSource} {fr : Frame} {callers : Counted Frame}
  {pc : Nat} {locals : Array Value} {stack : Counted Value}

theorem At.moveTo {pc' : Nat} (h : m.At s fr callers pc locals stack) (hpc : pc = pc') :
    m.At s fr callers pc' locals stack :=
  hpc ▸ h

theorem At.op? (h : m.At s fr callers pc locals stack) : m.op? = fr.function.code[pc]? := by
  rw [Machine.op?, h.frame]

theorem At.advanced (h : m.At s fr callers pc locals stack) :
    m.advanced.At s fr callers (pc + 1) locals stack := by
  refine ⟨?_, h.callers, h.stack, h.source, h.faithful⟩
  rw [Machine.advanced, jump, h.frame]

theorem At.push (h : m.At s fr callers pc locals stack) (v : Value) :
    (m.push v).At s fr callers pc locals (stack.push v) :=
  ⟨h.frame, h.callers, congrArg (Counted.push · v) h.stack, h.source, h.faithful⟩

theorem At.jump (h : m.At s fr callers pc locals stack) (target : Nat) :
    (m.jump target).At s fr callers target locals stack := by
  refine ⟨?_, h.callers, h.stack, h.source, h.faithful⟩
  rw [Machine.jump, h.frame]

theorem At.pop? {v : Value} (h : m.At s fr callers pc locals (stack.push v)) :
    m.stack.pop? = some (v, stack) := by
  rw [h.stack]
  exact Counted.pop?_push stack v

theorem At.popMany? {args : List Value} (h : m.At s fr callers pc locals (stack.pushAll args)) :
    m.stack.popMany? args.length = some (args, stack) := by
  rw [h.stack]
  exact Counted.popMany?_pushAll stack args

theorem At.withStack {stack' : Counted Value} (h : m.At s fr callers pc locals stack')
    (stack : Counted Value) : At { m with stack } s fr callers pc locals stack :=
  ⟨h.frame, h.callers, rfl, h.source, h.faithful⟩

/-! ## Operations that leave nothing behind -/

variable {α : Type} {least : Nat} {x : Evaluation α} {arrives : α → Machine → Prop}

/-- A machine may take the step of an operation that leaves nothing behind. -/
theorem At.follows_moves {op : Op} {m' : Machine} (h : m.At s fr callers pc locals stack)
    (hop : fr.function.code[pc]? = some op) (hmoves : Moves setting m.advanced op m')
    (hcontext : m'.context = m.context) (hnext : m'.Follows setting least x arrives) :
    m.Follows setting (least + 1) x arrives :=
  follows_step (step_eq_next_iff.2 ⟨op, h.op?.trans hop, hmoves⟩) hcontext hnext

theorem At.follows_const {v : Value} (h : m.At s fr callers pc locals stack)
    (hop : fr.function.code[pc]? = some (.const v))
    (hnext : ∀ m' : Machine, m'.At s fr callers (pc + 1) locals (stack.push v) →
      m'.Follows setting least x arrives) : m.Follows setting least x arrives :=
  (h.follows_moves hop (.const v) rfl (hnext _ (h.advanced.push v))).mono (Nat.le_succ _) fun _ _ => id

theorem At.follows_load {slot : Nat} {v : Value} (h : m.At s fr callers pc locals stack)
    (hop : fr.function.code[pc]? = some (.load slot)) (hv : locals[slot]? = some v)
    (hnext : ∀ m' : Machine, m'.At s fr callers (pc + 1) locals (stack.push v) →
      m'.Follows setting least x arrives) : m.Follows setting least x arrives := by
  have hslot : m.advanced.frame.locals[slot]? = some v := by
    rw [h.advanced.frame]
    exact hv
  exact (h.follows_moves hop (.load hslot) rfl (hnext _ (h.advanced.push v))).mono (Nat.le_succ _)
    fun _ _ => id

theorem At.follows_store {slot : Nat} {v : Value} (h : m.At s fr callers pc locals (stack.push v))
    (hop : fr.function.code[pc]? = some (.store slot)) (hslot : slot < locals.size)
    (hnext : ∀ m' : Machine, m'.At s fr callers (pc + 1) (locals.setIfInBounds slot v) stack →
      m'.Follows setting least x arrives) : m.Follows setting least x arrives := by
  have hlocals : m.advanced.frame.locals = locals := by rw [h.advanced.frame]
  refine (h.follows_moves hop (.store h.advanced.pop? (hlocals ▸ hslot)) rfl (hnext _ ?_)).mono
    (Nat.le_succ _) fun _ _ => id
  refine ⟨?_, h.callers, rfl, h.source, h.faithful⟩
  dsimp only
  rw [hlocals, h.advanced.frame]

theorem At.follows_pop {v : Value} (h : m.At s fr callers pc locals (stack.push v))
    (hop : fr.function.code[pc]? = some .pop)
    (hnext : ∀ m' : Machine, m'.At s fr callers (pc + 1) locals stack → m'.Follows setting least x arrives) :
    m.Follows setting least x arrives :=
  (h.follows_moves hop (.pop h.advanced.pop?) rfl (hnext _ (h.advanced.withStack _))).mono (Nat.le_succ _)
    fun _ _ => id

/-- A jump counts as one of the steps that a machine has to make. -/
theorem At.follows_jump {target : Nat} (h : m.At s fr callers pc locals stack)
    (hop : fr.function.code[pc]? = some (.jump target))
    (hnext : ∀ m' : Machine, m'.At s fr callers target locals stack → m'.Follows setting least x arrives) :
    m.Follows setting (least + 1) x arrives :=
  h.follows_moves hop (.jump target) rfl (hnext _ (h.advanced.jump target))

/-! ## Operations that follow an evaluation -/

theorem At.follows_unary {op : UnaryOp} {v : Value} (h : m.At s fr callers pc locals (stack.push v))
    (hop : fr.function.code[pc]? = some (.unary op)) :
    m.Follows setting least (Evaluation.ofExcept (op.apply v)) fun r m' =>
      m'.At s fr callers (pc + 1) locals (stack.push r) := by
  have hstep : m.step setting = pushResult { m.advanced with stack } (op.apply v) := by
    rw [step_of_op (h.op?.trans hop), perform, withOperand, h.advanced.pop?]
  exact follows_pushResult hstep rfl fun r => (h.advanced.withStack _).push r

theorem At.follows_binary {op : BinaryOp} {left right : Value}
    (h : m.At s fr callers pc locals ((stack.push left).push right))
    (hop : fr.function.code[pc]? = some (.binary op)) :
    m.Follows setting least (Evaluation.ofExcept (op.apply left right)) fun r m' =>
      m'.At s fr callers (pc + 1) locals (stack.push r) := by
  have hstep : m.step setting = pushResult { m.advanced with stack } (op.apply left right) := by
    rw [step_of_op (h.op?.trans hop), perform, withOperand, h.advanced.pop?]
    dsimp only
    rw [withOperand]
    dsimp only
    rw [Counted.pop?_push]
  exact follows_pushResult hstep rfl fun r => (h.advanced.withStack _).push r

/-- A conditional jump finds out whether an operand is true. -/
theorem At.follows_truth {target : Nat} {v : Value} (h : m.At s fr callers pc locals (stack.push v))
    (hop : fr.function.code[pc]? = some (.jumpIfFalse target)) :
    m.Follows setting least (Evaluation.truth v) fun b m' =>
      m'.At s fr callers (if b then pc + 1 else target) locals stack := by
  have hstep : m.step setting = m.advanced.perform setting (.jumpIfFalse target) :=
    step_of_op (h.op?.trans hop)
  rw [perform, withOperand, h.advanced.pop?] at hstep
  cases v with
  | bool b =>
    cases b with
    | true => exact ⟨1, _, (run_one m).trans hstep, rfl, h.advanced.withStack _⟩
    | false => exact ⟨1, _, (run_one m).trans hstep, rfl, (h.advanced.withStack _).jump target⟩
  | unit | int | str => exact follows_failed hstep rfl

end Machine
end PluginSandbox
