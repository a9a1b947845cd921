import PluginSandbox.Proofs.Loader.Alone
import PluginSandbox.Proofs.Machine.Confinement
import PluginSandbox.Proofs.Machine.Stops

/-!
# What a call leaves to its caller

All frames share one stack of operands, and an operation may pop as long as there is anything on it.  So what the
caller finds when a function returns depends on how far down the function has reached.

* `Machine.reach` is the height down to which the next operation takes operands.
* `Machine.Activation` is the time from a call, through any number of steps and inner calls, to the return of the
  function that was called.
* `Activation.resumes` says what the caller resumes with: its own place, slots and callers, the value that was
  returned, and below it at least those operands that no operation of the activation has reached.  If none has
  reached below the height at which the function was entered, that is the whole stack as it was.

## Where frames are not isolated

The structural checks say nothing about heights, and an operation compares its operands with the whole stack, not
with the part that belongs to its frame.  `exists_meddling_activation` is a module that is loaded and run although
the function that it calls takes an operand of its caller away and puts another one in its place.
-/

namespace PluginSandbox
namespace Machine

variable {setting : MachineSetting}

/-- The height down to which the next operation takes operands off the stack. -/
def reach (m : Machine) : Nat :=
  m.stack.size - (m.op?.map Op.operands).getD 0

/-- A call from `caller` enters a function at `entry`; the function, which is still there behind each of some
number of steps, is the running one at `last`, returns from it with a value, and the caller goes on at
`resumed`. -/
structure Activation (setting : MachineSetting) (caller entry last resumed : Machine) (steps : Nat) :
    Prop where
  call : caller.step setting = .next entry
  pushed : entry.callers.size = caller.callers.size + 1
  run : entry.run setting steps = .next last
  active : ∀ j ≤ steps, ∀ m, entry.run setting j = .next m → entry.callers.size ≤ m.callers.size
  running : last.callers.size = entry.callers.size
  op : last.op? = some .ret
  ret : last.step setting = .next resumed

/-! ## What is kept while a function is active -/

/-- While a function that was entered at some height is active, some callers wait below it, and some operands at
the bottom of the stack are kept. -/
structure Keeps (base : Nat) (waiting : List Frame) (kept : List Value) (m : Machine) : Prop where
  callers : waiting <:+ m.callers.toList
  bases : ∃ inner, (m.frame :: m.callers.toList).map Frame.base = inner ++ base :: waiting.map Frame.base ∧
    ∀ b ∈ inner, kept.length ≤ b
  stack : kept <:+ m.stack.toList

variable {base : Nat} {waiting : List Frame} {kept : List Value}

/-- Operands that are still there when others are popped. -/
theorem suffix_of_pop? {s rest : Counted Value} {v : Value} (h : kept <:+ s.toList)
    (hpop : s.pop? = some (v, rest)) (hsize : kept.length ≤ s.size - 1) : kept <:+ rest.toList := by
  obtain rfl := Counted.pop?_eq_some.1 hpop
  have hrest : rest.toList <:+ (rest.push v).toList := List.suffix_cons v rest.toList
  refine List.suffix_of_suffix_length_le h hrest ?_
  rwa [← rest.size_eq]

theorem suffix_of_popMany? {s rest : Counted Value} {args : List Value} {n : Nat} (h : kept <:+ s.toList)
    (hpop : s.popMany? n = some (args, rest)) (hsize : kept.length ≤ s.size - n) : kept <:+ rest.toList := by
  obtain ⟨hlength, hlist⟩ := Counted.popMany?_eq_some.1 hpop
  have hrest : rest.toList <:+ s.toList := hlist ▸ List.suffix_append _ _
  refine List.suffix_of_suffix_length_le h hrest ?_
  rw [s.size_eq, hlist, List.length_append, List.length_reverse] at hsize
  omega

/-- Operands that are still there when the stack is cut down to a height that they do not exceed. -/
theorem suffix_truncate {s : Counted Value} (h : kept <:+ s.toList) (hbase : kept.length ≤ base) :
    kept <:+ (s.truncate base).toList := by
  refine List.suffix_of_suffix_length_le h (List.drop_suffix _ _) ?_
  have hlength := h.length_le
  rw [Counted.truncate, Counted.toList_drop, List.length_drop, s.size_eq]
  omega

theorem size_truncate_le (s : Counted Value) (height : Nat) : (s.truncate height).size ≤ height := by
  show s.size - (s.size - height) ≤ height
  omega

/-- Operands that are kept lie below whatever the next operation takes. -/
theorem length_le_of_reach {m : Machine} {op : Op} (hop : m.op? = some op)
    (hreach : kept.length ≤ m.reach) : kept.length ≤ m.stack.size - op.operands := by
  rwa [reach, hop, Option.map_some, Option.getD_some] at hreach

theorem size_of_pop? {α : Type} {s rest : Counted α} {a : α} (h : s.pop? = some (a, rest)) :
    s.size = rest.size + 1 := by
  rw [Counted.pop?_eq_some.1 h]
  rfl

/-- A function that is called while another one is active. -/
theorem Keeps.enter {m : Machine} (h : m.Keeps base waiting kept) {stack : Counted Value}
    (hstack : kept <:+ stack.toList) (callee : LoadedModule) (f : Function) (args : List Value)
    (loader : Loader) :
    Keeps base waiting kept
      { m with
        stack, loader, frame := Frame.enter callee f args stack.size, callers := m.callers.push m.frame } := by
  obtain ⟨inner, hbases, hinner⟩ := h.bases
  refine ⟨h.callers.trans (List.suffix_cons _ _), ⟨stack.size :: inner, ?_, ?_⟩, hstack⟩
  · rw [List.map_cons, Counted.toList_push, hbases]
    rfl
  · exact List.forall_mem_cons.2 ⟨stack.size_eq ▸ hstack.length_le, hinner⟩

/-- A function that returns while another one is active, which waits for it directly or not. -/
theorem Keeps.ret {m : Machine} (h : m.Keeps base waiting kept) {frame : Frame} {callers : Counted Frame}
    (hcallers : m.callers.pop? = some (frame, callers)) (hactive : waiting.length ≤ callers.size)
    {stack : Counted Value} (hstack : kept <:+ stack.toList) (v : Value) :
    Keeps base waiting kept
      { m with frame, callers, stack := (stack.truncate m.frame.base).push v } := by
  have hpushed : m.callers.toList = frame :: callers.toList := by
    rw [Counted.pop?_eq_some.1 hcallers]
    rfl
  obtain ⟨inner, hbases, hinner⟩ := h.bases
  rw [callers.size_eq] at hactive
  cases inner with
  | nil =>
    -- then the frame that returns would be the one of the active function itself
    have hlength := congrArg List.length hbases
    rw [hpushed] at hlength
    simp only [List.map_cons, List.length_cons, List.length_map, List.nil_append] at hlength
    omega
  | cons b inner =>
    obtain ⟨hb, hinner⟩ := List.forall_mem_cons.1 hinner
    obtain ⟨hbase, hrest⟩ := List.cons.inj hbases
    rw [hpushed] at hrest
    refine ⟨?_, ⟨inner, hrest, hinner⟩, ?_⟩
    · have hsuffix : callers.toList <:+ m.callers.toList := hpushed ▸ List.suffix_cons _ _
      exact List.suffix_of_suffix_length_le h.callers hsuffix hactive
    · exact (suffix_truncate hstack (hbase ▸ hb)).trans (List.suffix_cons _ _)

/-- A step that does not reach the operands below, and does not return from the function, keeps them and the
callers. -/
theorem Keeps.step {m m' : Machine} (h : m.Keeps base waiting kept) (hreach : kept.length ≤ m.reach)
    (hm : m.step setting = .next m') (hactive : waiting.length ≤ m'.callers.size) :
    m'.Keeps base waiting kept := by
  obtain ⟨op, hop, hmoves⟩ := step_eq_next_iff.1 hm
  have hsize := length_le_of_reach hop hreach
  have hadvanced : m.advanced.Keeps base waiting kept := ⟨h.callers, h.bases, h.stack⟩
  cases hmoves with
  | const | load => exact ⟨h.callers, h.bases, h.stack.trans (List.suffix_cons _ _)⟩
  | jump target => exact ⟨h.callers, h.bases, h.stack⟩
  | store hpop | goOn hpop | goElsewhere hpop | pop hpop =>
    exact ⟨h.callers, h.bases, suffix_of_pop? h.stack hpop hsize⟩
  | unary hpop =>
    exact ⟨h.callers, h.bases, (suffix_of_pop? h.stack hpop hsize).trans (List.suffix_cons _ _)⟩
  | binary hright hleft =>
    have hsizeRight : m.stack.size = _ := size_of_pop? hright
    have hboth : kept.length ≤ m.stack.size - 2 := hsize
    have hkept := suffix_of_pop? h.stack hright (by omega)
    exact ⟨h.callers, h.bases, (suffix_of_pop? hkept hleft (by omega)).trans (List.suffix_cons _ _)⟩
  | callNative hargs =>
    exact ⟨h.callers, h.bases, (suffix_of_popMany? h.stack hargs hsize).trans (List.suffix_cons _ _)⟩
  | call hargs => exact hadvanced.enter (suffix_of_popMany? h.stack hargs hsize) _ _ _ _
  | callUnit hargs => exact hadvanced.enter (suffix_of_popMany? h.stack hargs hsize) _ _ _ _
  | ret hpop hcallers =>
    exact hadvanced.ret hcallers hactive (suffix_of_pop? h.stack hpop hsize) _

/-- A run in which no step reaches the operands below or returns from the function keeps them and the callers. -/
theorem Keeps.run {m m' : Machine} {steps : Nat} (h : m.Keeps base waiting kept)
    (hreach : ∀ j ≤ steps, ∀ m₁, m.run setting j = .next m₁ → kept.length ≤ m₁.reach)
    (hactive : ∀ j ≤ steps, ∀ m₁, m.run setting j = .next m₁ → waiting.length ≤ m₁.callers.size)
    (hrun : m.run setting steps = .next m') : m'.Keeps base waiting kept := by
  induction steps generalizing m with
  | zero =>
    obtain rfl := Step.next.inj hrun
    exact h
  | succ steps ih =>
    rw [run_succ] at hrun
    cases hstep : m.step setting with
    | done e =>
      rw [hstep] at hrun
      exact absurd hrun (by simp)
    | next m₁ =>
      rw [hstep] at hrun
      have hlater : ∀ j, m.run setting (j + 1) = m₁.run setting j := by
        intro j
        rw [run_succ, hstep]
      have hm₁ := h.step (hreach 0 (Nat.zero_le _) m rfl) hstep
        (hactive 1 (Nat.succ_le_succ (Nat.zero_le _)) m₁ (hlater 0))
      refine ih hm₁ (fun j hj m₂ hm₂ => ?_) (fun j hj m₂ hm₂ => ?_) hrun
      · exact hreach (j + 1) (Nat.succ_le_succ hj) m₂ ((hlater j).trans hm₂)
      · exact hactive (j + 1) (Nat.succ_le_succ hj) m₂ ((hlater j).trans hm₂)

/-! ## Calls and returns -/

/-- A step that pushes a frame is a call: it pops the arguments, enters the function at the height that is left, and
leaves the frame of the caller waiting. -/
theorem pushed_of_step {m m' : Machine} (hstep : m.step setting = .next m')
    (hpushed : m'.callers.size = m.callers.size + 1) :
    (∃ op args, m.op? = some op ∧ m.stack.popMany? op.operands = some (args, m'.stack)) ∧
      m'.callers = m.callers.push m.advanced.frame ∧ m'.frame.base = m'.stack.size := by
  obtain ⟨op, hop, hmoves⟩ := step_eq_next_iff.1 hstep
  cases hmoves with
  | call hargs | callUnit hargs => exact ⟨⟨_, _, hop, hargs⟩, rfl, rfl⟩
  | @ret _ _ _ callers _ hcallers =>
    have hsize : m.callers.size = callers.size + 1 := size_of_pop? hcallers
    have hpushed' : callers.size = m.callers.size + 1 := hpushed
    omega
  | _ =>
    have hsame : m.callers.size = m.callers.size + 1 := hpushed
    omega

namespace Activation

variable {caller entry last resumed : Machine} {steps : Nat}

/-- When the function returns, the frames below it are those that it was called from, and its own frame is the one
that was entered, with the operands that were kept. -/
theorem atReturn (h : Activation setting caller entry last resumed steps) {kept : List Value}
    (hkept : kept <:+ entry.stack.toList)
    (hreach : ∀ j ≤ steps, ∀ m, entry.run setting j = .next m → kept.length ≤ m.reach) :
    last.callers = entry.callers ∧ last.frame.base = entry.stack.size ∧ kept <:+ last.stack.toList := by
  obtain ⟨_, _, hbase⟩ := pushed_of_step h.call h.pushed
  have hentry : entry.Keeps entry.stack.size entry.callers.toList kept :=
    ⟨List.suffix_rfl, ⟨[], by rw [List.map_cons, hbase, List.nil_append], nofun⟩, hkept⟩
  have hactive : ∀ j ≤ steps, ∀ m, entry.run setting j = .next m →
      entry.callers.toList.length ≤ m.callers.size :=
    fun j hj m hm => entry.callers.size_eq ▸ h.active j hj m hm
  have hlast := hentry.run hreach hactive h.run
  have hlength : entry.callers.toList.length = last.callers.toList.length := by
    rw [← entry.callers.size_eq, ← last.callers.size_eq, h.running]
  have hcallers := hlast.callers.eq_of_length hlength
  obtain ⟨inner, hbases, _⟩ := hlast.bases
  have hinner : inner = [] := by
    have hlengths := congrArg List.length hbases
    rw [← hcallers] at hlengths
    simp only [List.map_cons, List.length_cons, List.length_append, List.length_map] at hlengths
    exact List.eq_nil_of_length_eq_zero (by omega)
  rw [hinner] at hbases
  exact ⟨Counted.ext_toList hcallers.symm, (List.cons.inj hbases).1, hlast.stack⟩

/-- **What a caller resumes with.** The caller goes on behind its call, with its slots and its own callers as they
were.  On top of the stack is the value that the function returned; below it are all operands that no operation of
the activation reached, and no more than were there below the arguments of the call.  So the stack is as it was if
none of them was reached. -/
theorem resumes (h : Activation setting caller entry last resumed steps) {kept : List Value}
    (hkept : kept <:+ entry.stack.toList)
    (hreach : ∀ j ≤ steps, ∀ m, entry.run setting j = .next m → kept.length ≤ m.reach) :
    resumed.frame = caller.advanced.frame ∧ resumed.callers = caller.callers ∧
      (∃ op args, caller.op? = some op ∧ caller.stack.popMany? op.operands = some (args, entry.stack)) ∧
      ∃ v rest above, last.stack.pop? = some (v, rest) ∧
        resumed.stack.toList = v :: (above ++ kept) ∧ (above ++ kept).length ≤ entry.stack.size ∧
        (kept = entry.stack.toList → resumed.stack = entry.stack.push v) := by
  obtain ⟨hargs, hcallers, _⟩ := pushed_of_step h.call h.pushed
  obtain ⟨hwaiting, hbase, hstack⟩ := h.atReturn hkept hreach
  obtain ⟨op, hop, hmoves⟩ := step_eq_next_iff.1 h.ret
  obtain rfl := Option.some.inj (hop.symm.trans h.op)
  cases hmoves with
  | @ret v rest frame callers hpop hresumed =>
    have hsame : last.callers.pop? = some (caller.advanced.frame, caller.callers) := by
      rw [hwaiting, hcallers, Counted.pop?_push]
    obtain ⟨rfl, rfl⟩ := Prod.mk.inj (Option.some.inj (hsame.symm.trans hresumed))
    have hheight : kept.length ≤ entry.stack.size := entry.stack.size_eq ▸ hkept.length_le
    have hadvanced : last.advanced.frame.base = entry.stack.size := hbase
    have hbelow := suffix_of_pop? hstack hpop (length_le_of_reach h.op (hreach steps (Nat.le_refl _) _ h.run))
    obtain ⟨above, habove⟩ := suffix_truncate hbelow hheight
    have hresult : ((rest.truncate last.advanced.frame.base).push v).toList = v :: (above ++ kept) := by
      rw [Counted.toList_push, hadvanced, habove]
    have hlength : (above ++ kept).length ≤ entry.stack.size := by
      rw [habove, ← Counted.size_eq]
      exact size_truncate_le _ _
    refine ⟨rfl, rfl, hargs, v, rest, above, hpop, hresult, hlength, fun hall => ?_⟩
    have habove' : above = [] := by
      rw [List.length_append, hall, ← entry.stack.size_eq] at hlength
      exact List.eq_nil_of_length_eq_zero (by omega)
    exact Counted.ext_toList (by rw [hresult, habove', hall, Counted.toList_push, List.nil_append])

/-- A module, written by hand, that puts an operand on the stack and then calls a function, which leaves it alone. -/
def keeping : Module where
  formatVersion := Module.currentVersion
  name := "contract.Keeping"
  contract := defaultContract.qualifiedName
  functions :=
    #[{ name := ContractType.entryOperation, arity := 0, locals := 0
        code := #[.const (.str "mine"), .const (.bool true), .call 1 1, .pop, .ret] },
      { name := "opposite", arity := 1, locals := 1, code := #[.load 0, .unary .not, .ret] }]

/-- The operand is there, below the result, when the caller goes on. -/
theorem resumes_keeping :
    ∃ (module : LoadedModule) (plugin : Plugin) (caller entry last resumed : Machine),
      (((LoadSource.alone keeping).afterLoading []).load keeping.name).1 = .ok module ∧
        Plugin.instantiate module 8 = .ok plugin ∧
        (Machine.start ((LoadSource.alone keeping).afterLoading [keeping.name]) plugin.context plugin.module
          plugin.entry).run { host := .empty, maxCallDepth := plugin.maxCallDepth } 2 = .next caller ∧
        Activation { host := .empty, maxCallDepth := plugin.maxCallDepth } caller entry last resumed 2 ∧
        entry.stack.toList = [.str "mine"] ∧ ∃ v, resumed.stack = entry.stack.push v := by
  have hfits : keeping.Fits := ⟨by decide, by simp [keeping, Function.fits_iff, Op.Fits]⟩
  have hload := LoadSource.load_alone_unlinked hfits (by decide +kernel) (by decide +kernel) []
  let loaded : LoadedModule :=
    { module := keeping, digest := keeping.artifact.digest, size := keeping.encode.size, links := [] }
  have hrun : ∃ caller entry last resumed : Machine,
      (Machine.start ((LoadSource.alone keeping).afterLoading [keeping.name]) { plugin := keeping.name } loaded
        keeping.functions[0]).run { host := .empty, maxCallDepth := 8 } 2 = .next caller ∧
      Activation { host := .empty, maxCallDepth := 8 } caller entry last resumed 2 ∧
      entry.stack.toList = [.str "mine"] ∧
      ∀ j ≤ 2, ∀ m, entry.run { host := .empty, maxCallDepth := 8 } j = .next m →
        entry.stack.toList.length ≤ m.reach := by
    refine ⟨_, _, _, _, rfl, ⟨rfl, rfl, rfl, ?active, rfl, rfl, rfl⟩, rfl, ?reach⟩
    all_goals
      intro j hj m hm
      obtain rfl | rfl | rfl : j = 0 ∨ j = 1 ∨ j = 2 := by omega
      all_goals
        obtain rfl := Step.next.inj hm
        exact Nat.le_refl _
  obtain ⟨caller, entry, last, resumed, hcaller, hactivation, hentry, hreach⟩ := hrun
  obtain ⟨_, _, _, v, _, _, _, _, _, hkept⟩ := hactivation.resumes List.suffix_rfl hreach
  exact ⟨_, _, caller, entry, last, resumed, hload, rfl, hcaller, hactivation, hentry, v, hkept rfl⟩

/-! ## A function that meddles -/

/-- A module, written by hand, that puts the operand of a call on the stack and then calls a function without
arguments, which takes that operand away and leaves another one. -/
def meddling : Module where
  formatVersion := Module.currentVersion
  name := "contract.Meddling"
  contract := defaultContract.qualifiedName
  functions :=
    #[{ name := ContractType.entryOperation, arity := 0, locals := 0
        code :=
          #[.const (.str "mine"), .call 1 0, .pop, .callNative (.systemModule baseModule) "io.print" 1, .ret] },
      { name := "meddle", arity := 0, locals := 0
        code := #[.pop, .const (.str "theirs"), .const .unit, .ret] }]

/-- **Frames are not isolated.** A module that passes the checks of the loader can have a function that is called
and returns, and the stack that its caller resumes with is not the one from before the call with the result on top. -/
theorem exists_meddling_activation :
    ∃ (module : LoadedModule) (plugin : Plugin) (caller entry last resumed : Machine),
      (((LoadSource.alone meddling).afterLoading []).load meddling.name).1 = .ok module ∧
        Plugin.instantiate module 8 = .ok plugin ∧
        (Machine.start ((LoadSource.alone meddling).afterLoading [meddling.name]) plugin.context plugin.module
          plugin.entry).run { host := .empty, maxCallDepth := plugin.maxCallDepth } 1 = .next caller ∧
        Activation { host := .empty, maxCallDepth := plugin.maxCallDepth } caller entry last resumed 3 ∧
        ∀ v, resumed.stack ≠ entry.stack.push v := by
  have hfits : meddling.Fits := ⟨by decide, by simp [meddling, Function.fits_iff, Op.Fits]⟩
  have hload := LoadSource.load_alone_printing hfits (by decide +kernel) (by decide +kernel) []
  refine ⟨_, _, _, _, _, _, hload, rfl, rfl, ⟨rfl, rfl, rfl, ?active, rfl, rfl, rfl⟩, ?stack⟩
  case active =>
    intro j hj m hm
    obtain rfl | rfl | rfl | rfl : j = 0 ∨ j = 1 ∨ j = 2 ∨ j = 3 := by omega
    all_goals
      obtain rfl := Step.next.inj hm
      exact Nat.le_refl _
  case stack =>
    intro v h
    have hlist : [Value.unit, .str "theirs"] = [v, .str "mine"] := congrArg Counted.toList h
    exact absurd hlist (by simp)

end Activation

end Machine
end PluginSandbox
