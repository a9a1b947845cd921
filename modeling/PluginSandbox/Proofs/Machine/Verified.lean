import PluginSandbox.Proofs.Bytecode.Verify
import PluginSandbox.Proofs.Loader.Alone
import PluginSandbox.Proofs.Machine.Confinement
import PluginSandbox.Proofs.Machine.Ending

/-!
# Verified code does not leave its bounds

The loader looks at the code of a module once, operation by operation, before any of it runs.  That is enough for
every state that the machine reaches, in whatever module it is and however it got there.

* `Frame.InRange` says that a frame stands at an operation of its function and has all slots of it.
* `Machine.Verified` is the invariant of runs: the machine is confined, and all its frames are in range.
* `Fault.Dangling` are the faults of code that refers to what is not there.
* `runs_in_range` puts this together for all runs of all plugins.

## Why one pass is enough

An operation that goes on has another one behind it, because only a return or a jump may be the last one.  A call
is no such operation, so the place to which its callee returns is in range when the frame is left.  Slots, jumps
and calls inside the module were compared when it was loaded, and the link table was made from the very operations
that look things up in it.
-/

namespace PluginSandbox

/-- A fault of code that refers to something its function or its module does not have. -/
inductive Fault.Dangling : Fault → Prop
  | slotOutOfRange : Dangling .slotOutOfRange
  | ranPastEnd : Dangling .ranPastEnd
  | unknownFunction : Dangling .unknownFunction
  | notLinked (symbol : String) : Dangling (.notLinked symbol)

/-- A fault of a call with another number of arguments than the function takes. -/
inductive Fault.Miscounted : Fault → Prop
  | wrongArity (function : String) (expected actual : Nat) :
      Miscounted (.wrongArity function expected actual)

/-- Operations on values have faults of their own. -/
theorem Fault.OfValues.not_dangling {cause : Fault} (h : cause.OfValues) : ¬ cause.Dangling := by
  rintro ⟨⟩ <;> cases h

/-! ## Frames -/

/-- A frame stands at an operation of its function, and has at least the slots that the function declares. -/
structure Frame.InRange (frame : Frame) : Prop where
  pc : frame.pc < frame.function.code.size
  locals : frame.function.locals ≤ frame.locals.size

namespace Frame

variable {s : LoadSource} {frame : Frame}

/-- The function of a frame passes the structural checks. -/
theorem Of.firstFlaw?_eq_none (h : frame.Of s) : frame.function.firstFlaw? frame.module.module = none := by
  obtain ⟨⟨name, hname⟩, hfunction⟩ := h
  exact Module.firstFlaw?_eq_none.1 (LoadSource.firstFlaw?_of_materialize hname) _ hfunction

/-- A function that passes the structural checks is entered in range. -/
theorem inRange_enter {m : LoadedModule} {f : Function} (hf : f.firstFlaw? m.module = none)
    (args : List Value) (base : Nat) : (enter m f args base).InRange := by
  obtain ⟨_, hend, _⟩ := Function.firstFlaw?_eq_none.1 hf
  refine ⟨?_, Nat.le_trans (Nat.le_max_left _ _) (size_initialLocals f args)⟩
  show 0 < f.code.size
  refine Nat.pos_of_ne_zero fun hzero => ?_
  rw [Array.eq_empty_of_size_eq_zero hzero] at hend
  exact absurd hend (by simp)

/-- Behind an operation that goes on a frame is still in range. -/
theorem InRange.goOn (h : frame.InRange) (hof : frame.Of s) {op : Op}
    (hop : frame.function.code[frame.pc]? = some op) (hgoesOn : op.endsCode = false) :
    InRange { frame with pc := frame.pc + 1 } :=
  ⟨Function.lt_size_of_goesOn hof.firstFlaw?_eq_none hop hgoesOn, h.locals⟩

/-- Nor does a jump leave the function. -/
theorem InRange.jump (h : frame.InRange) {target : Nat} (htarget : target < frame.function.code.size) :
    InRange { frame with pc := target } :=
  ⟨htarget, h.locals⟩

end Frame

namespace Machine

variable {setting : MachineSetting} {s : LoadSource}

/-! ## The invariant -/

/-- A machine that reaches only what its source allows, and whose frames are all in range. -/
structure Verified (s : LoadSource) (m : Machine) : Prop where
  confined : m.Confined s
  frame : m.frame.InRange
  callers : ∀ frame ∈ m.callers.toList, frame.InRange

/-- What the operation of a machine refers to is there. -/
theorem Verified.misplaced? {m : Machine} (h : m.Verified s) {op : Op} (hop : m.op? = some op) :
    op.misplaced? m.frame.module.module m.frame.function = none :=
  Function.misplaced?_of_getElem? h.confined.frame.firstFlaw?_eq_none hop

/-- Every step keeps the frames in range. -/
theorem Verified.step {m m' : Machine} (h : m.Verified s) (hm : m.step setting = .next m') :
    m'.Verified s := by
  obtain ⟨op, hop, hmoves⟩ := step_eq_next_iff.1 hm
  have hconfined := h.confined.step hm
  have hplaced := h.misplaced? hop
  -- only a return and a jump may be the last operation, so all others have one behind them
  have hgoOn : op.endsCode = false → m.advanced.frame.InRange :=
    fun hgoesOn => h.frame.goOn h.confined.frame hop hgoesOn
  cases hmoves with
  | const | load | unary | binary | callNative | pop | goOn =>
    exact ⟨hconfined, hgoOn rfl, h.callers⟩
  | store =>
    refine ⟨hconfined, ⟨(hgoOn rfl).pc, ?_⟩, h.callers⟩
    exact Nat.le_trans h.frame.locals (Nat.le_of_eq Array.size_setIfInBounds.symm)
  | jump target | @goElsewhere target =>
    rw [Op.misplaced?] at hplaced
    refine ⟨hconfined, h.frame.jump (Decidable.by_contra fun htarget => ?_), h.callers⟩
    rw [if_neg htarget] at hplaced
    exact absurd hplaced (by simp)
  | call | callUnit =>
    refine ⟨hconfined, Frame.inRange_enter hconfined.frame.firstFlaw?_eq_none _ _, ?_⟩
    exact List.forall_mem_cons.2 ⟨hgoOn rfl, h.callers⟩
  | ret _ hcallers =>
    have hframes : ∀ frame ∈ m.advanced.callers.toList, frame.InRange := h.callers
    rw [Counted.pop?_eq_some.1 hcallers] at hframes
    obtain ⟨hframe, hrest⟩ := List.forall_mem_cons.1 hframes
    exact ⟨hconfined, hframe, hrest⟩

/-- A machine is verified when a plugin of a module that its source gives is started. -/
theorem verified_start {l : Loader} (hsource : l.source = s) (hl : l.Faithful) {module : LoadedModule}
    (hm : s.Gives module) {maxCallDepth : Nat} {plugin : Plugin}
    (hplugin : Plugin.instantiate module maxCallDepth = .ok plugin) (context : PluginContext) :
    (start l context plugin.module plugin.entry).Verified s := by
  have hconfined := confined_start hsource hl hm hplugin context
  exact ⟨hconfined, Frame.inRange_enter hconfined.frame.firstFlaw?_eq_none _ _,
    fun _ h => absurd h (by simp [start])⟩

/-! ## The faults that are left -/

/-- What a call inside a module refers to is a function that takes as many arguments as it gives. -/
theorem exists_of_call {m : LoadedModule} {f : Function} {index argc : Nat}
    (h : Op.misplaced? m.module f (.call index argc) = none) :
    ∃ callee, m.module.functions[index]? = some callee ∧ callee.arity = argc := by
  rw [Op.misplaced?] at h
  split at h
  · next callee hcallee =>
    refine ⟨callee, hcallee, Decidable.by_contra fun harity => ?_⟩
    rw [if_neg harity] at h
    exact absurd h (by simp)
  · exact absurd h (by simp)

/-- A verified machine ends in no dangling fault, and at a call inside a module in no fault about the number of
arguments either. -/
theorem Verified.not_dangling {m : Machine} (h : m.Verified s) {e : MachineEnd}
    (hstep : m.step setting = .done e) {cause : Fault} (hcause : e.result = .error (.fault cause)) :
    ¬ cause.Dangling ∧
      ∀ function argc, m.op? = some (.call function argc) → ¬ cause.Miscounted := by
  obtain ⟨hnone, _⟩ | ⟨op, hop, hstops⟩ := stops_of_step hstep
  · have hpc := h.frame.pc
    have hend := Array.getElem?_eq_none_iff.1 hnone
    omega
  have hplaced := h.misplaced? hop
  have hslots := h.frame.locals
  rw [hcause] at hstops
  rw [hop]
  cases hstops with
  | underflow => exact ⟨nofun, fun _ _ _ => nofun⟩
  | condition | notLoaded | noFunction => exact ⟨nofun, fun _ _ => nofun⟩
  | load hslot | store hslot =>
    -- the slot was compared with the number that the function declares
    have hlocals : m.frame.locals.size ≤ _ := hslot
    rw [Op.misplaced?, if_neg (by omega)] at hplaced
    exact absurd hplaced (by simp)
  | unary _ hvalue => exact ⟨(UnaryOp.ofValues_of_apply hvalue).not_dangling, fun _ _ => nofun⟩
  | binary _ _ hvalue => exact ⟨(BinaryOp.ofValues_of_apply hvalue).not_dangling, fun _ _ => nofun⟩
  | call hargs hrefuses =>
    obtain ⟨callee, hcallee, harity⟩ := exists_of_call hplaced
    have hlength := (Counted.popMany?_eq_some.1 hargs).1
    have hfunction : m.advanced.frame.module.module.functions[_]? = some callee := hcallee
    rw [hfunction] at hrefuses
    cases hrefuses with
    | depth => exact ⟨nofun, fun _ _ _ => nofun⟩
    | arity _ hne => exact absurd (harity.trans hlength.symm) hne
  | notLinked hlink =>
    -- the link table has everything that the operations of the module refer to
    obtain ⟨⟨name, hname⟩, hfunction⟩ := h.confined.frame
    exact absurd hlink (LoadSource.native?_ne_none hname hfunction (Array.mem_of_getElem? hop))
  | callNative _ _ hfailure =>
    obtain ⟨said, rfl⟩ := Native.fault_of_run hfailure
    exact ⟨nofun, fun _ _ => nofun⟩
  | callUnit _ _ _ hrefuses =>
    cases hrefuses with
    | depth | arity => exact ⟨nofun, fun _ _ => nofun⟩

end Machine

/-! ## All runs of all plugins -/

/-- **Verification is sound.** Whatever the artifacts, the policy and the catalogue are, whatever was loaded before
and between, and however far a plugin has run: every frame stands at an operation of a function of its module, and
has at least the slots that the function declares.  A step that ends the run from there does not end it because
code refers to a slot, an operation, a function or a link that is not there, and a call inside a module does not end
it for the number of its arguments. -/
theorem runs_in_range (s : LoadSource) (earlier later : List String) (unit : String)
    (maxCallDepth : Nat) (context : PluginContext) (host : Host) (limit : Limit)
    {module : LoadedModule} {plugin : Plugin}
    (hload : ((s.afterLoading earlier).load unit).1 = .ok module)
    (hplugin : Plugin.instantiate module maxCallDepth = .ok plugin) :
    let setting : MachineSetting := { host, maxCallDepth := plugin.maxCallDepth }
    let start := Machine.start (s.afterLoading (earlier ++ unit :: later)) context plugin.module plugin.entry
    (∀ m : Machine, start.runWithin setting limit = .next m →
      (∀ frame ∈ m.frame :: m.callers.toList,
        (∃ index : Nat, frame.module.module.functions[index]? = some frame.function) ∧
          frame.pc < frame.function.code.size ∧ frame.function.locals ≤ frame.locals.size) ∧
      ∀ e cause, m.step setting = .done e → e.result = .error (.fault cause) →
        ¬ cause.Dangling ∧
          ∀ function argc, m.op? = some (.call function argc) → ¬ cause.Miscounted) ∧
    ∀ e cause, start.runWithin setting limit = .done e → e.result = .error (.fault cause) →
      ¬ cause.Dangling := by
  intro setting start
  obtain ⟨hsource, hfaithful⟩ := s.afterLoading_faithful earlier
  rw [Loader.load_fst hfaithful, hsource] at hload
  obtain ⟨hsource', hfaithful'⟩ := s.afterLoading_faithful (earlier ++ unit :: later)
  have hstart : start.Verified s :=
    Machine.verified_start hsource' hfaithful' ⟨unit, hload⟩ hplugin context
  have hreached : ∀ (n : Nat) (m : Machine), start.run setting n = .next m → m.Verified s :=
    fun n m => Machine.run_invariant (fun _ _ => Machine.Verified.step) n hstart
  obtain ⟨n, hn⟩ := Machine.exists_run_of_runWithin setting limit start
  rw [hn]
  constructor
  · intro m hrun
    have hm := hreached n m hrun
    refine ⟨?_, fun e cause hend hcause => hm.not_dangling hend hcause⟩
    refine List.forall_mem_cons.2 ⟨?_, fun frame hframe => ?_⟩
    · exact ⟨Array.getElem?_of_mem hm.confined.frame.2, hm.frame.pc, hm.frame.locals⟩
    · have hrange := hm.callers frame hframe
      exact ⟨Array.getElem?_of_mem (hm.confined.callers frame hframe).2, hrange.pc, hrange.locals⟩
  · intro e cause hrun hcause
    obtain ⟨k, last, hlast, hend⟩ := Machine.exists_of_run_eq_done n hrun
    exact ((hreached k last hlast).not_dangling hend hcause).1

/-- A module, written by hand, that counts down from two: the entry operation calls the other function to see
whether to go on, jumps back if it is not to stop, and stores what is left. -/
def counting : Module where
  formatVersion := Module.currentVersion
  name := "contract.Counting"
  contract := defaultContract.qualifiedName
  functions :=
    #[{ name := ContractType.entryOperation, arity := 0, locals := 1
        code :=
          #[.const (.int 2), .store 0, .load 0, .call 1 1, .jumpIfFalse 9, .load 0, .const (.int 1),
            .binary .sub, .jump 1, .const .unit, .ret] },
      { name := "positive", arity := 1, locals := 1
        code := #[.load 0, .const (.int 0), .binary .gt, .ret] }]

/-- The module that counts down, inside the function that its entry operation calls. -/
theorem runs_in_range_counting :
    ∃ (module : LoadedModule) (plugin : Plugin) (m : Machine),
      (((LoadSource.alone counting).afterLoading []).load counting.name).1 = .ok module ∧
        Plugin.instantiate module 8 = .ok plugin ∧
        (Machine.start ((LoadSource.alone counting).afterLoading ([] ++ counting.name :: [])) plugin.context
          plugin.module plugin.entry).runWithin
            { host := .empty, maxCallDepth := plugin.maxCallDepth } (.steps 5) = .next m ∧
        m.callers.size = 1 ∧ m.frame.function.name = "positive" ∧
        ∀ frame ∈ m.frame :: m.callers.toList,
          (∃ index : Nat, frame.module.module.functions[index]? = some frame.function) ∧
            frame.pc < frame.function.code.size ∧ frame.function.locals ≤ frame.locals.size := by
  have hfits : counting.Fits := ⟨by decide, by simp [counting, Function.fits_iff, Op.Fits]⟩
  have hload := LoadSource.load_alone_unlinked hfits (by decide +kernel) (by decide +kernel) []
  have hrange := (runs_in_range (LoadSource.alone counting) [] [] counting.name 8
    { plugin := counting.name } .empty (.steps 5) hload rfl).1 _ rfl
  exact ⟨_, _, _, hload, rfl, rfl, rfl, rfl, hrange.1⟩

end PluginSandbox
