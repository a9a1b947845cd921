import PluginSandbox.Proofs.Machine.Activation

/-!
# Heights of the operand stack

The structural checks of the loader say nothing about how many operands the code of a function leaves on the
stack.  Code is *balanced* if each of its places has a height of its own, however the control flow comes to it.

* `Op.KeepsHeights` says that an operation pops no more than there is, that all the places behind it agree with
  what it leaves, and that a return and a jump back stand where they should.
* `Function.Balanced` says that of every place that the control flow reaches; the heights of such places are
  determined (`Function.Balanced.unique`).
* `Machine.Level` is the invariant of runs whose functions are all balanced: the running function has exactly as
  many operands on the stack as the height of its place says, and a function that waits for a call has one less than
  it will have then.

So the heights of its code bound what a function ever has on the stack (`Machine.Level.shares`), and no operation
finds too few operands (`Machine.Level.no_underflow`).
-/

namespace PluginSandbox

/-! ## Operations -/

namespace Op

/-- The number of operands that an operation pushes, a call when its function has returned. -/
def results : Op → Nat
  | .const _ | .load _ | .unary _ | .binary _ | .call _ _ | .callNative _ _ _ | .callUnit _ _ _ => 1
  | .store _ | .jump _ | .jumpIfFalse _ | .pop | .ret => 0

/-- The places at which a function may go on behind an operation at some place. -/
def successors (pc : Nat) : Op → List Nat
  | .jump target => [target]
  | .jumpIfFalse target => [pc + 1, target]
  | .ret => []
  | _ => [pc + 1]

/-- An operation at some place agrees with the heights of the stack at all places. -/
structure KeepsHeights (height : Nat → Nat) (pc : Nat) (op : Op) : Prop where
  /-- There is as much on the stack as it pops. -/
  operands : op.operands ≤ height pc
  /-- Each place behind it has the height that it leaves. -/
  edges : ∀ next ∈ op.successors pc, height next + op.operands = height pc + op.results
  /-- A function returns what is then its only operand. -/
  ret : op = .ret → height pc = 1
  /-- A loop starts without operands. -/
  loop : ∀ target, op = .jump target → target ≤ pc → height target = 0

end Op

/-! ## Functions -/

namespace Function

/-- The places that the control flow of a function may come to. -/
inductive Reaches (f : Function) : Nat → Prop
  | start : f.Reaches 0
  | next {pc next : Nat} {op : Op} : f.Reaches pc → f.code[pc]? = some op → next ∈ op.successors pc →
      f.Reaches next

/-- Every place that the control flow comes to is one of the code and has a height, on which all ways to come there
agree. -/
structure Balanced (f : Function) (height : Nat → Nat) : Prop where
  start : height 0 = 0
  inside : ∀ pc, f.Reaches pc → ∃ op, f.code[pc]? = some op ∧ op.KeepsHeights height pc

/-- The heights of the places that the control flow comes to are determined. -/
theorem Balanced.unique {f : Function} {height height' : Nat → Nat} (h : f.Balanced height)
    (h' : f.Balanced height') {pc : Nat} (hpc : f.Reaches pc) : height pc = height' pc := by
  induction hpc with
  | start => rw [h.start, h'.start]
  | @next pc next op hpc hop hnext ih =>
    obtain ⟨op', hop', hkeeps⟩ := h.inside pc hpc
    obtain rfl := Option.some.inj (hop.symm.trans hop')
    obtain ⟨op', hop', hkeeps'⟩ := h'.inside pc hpc
    obtain rfl := Option.some.inj (hop.symm.trans hop')
    have hedge := hkeeps.edges next hnext
    have hedge' := hkeeps'.edges next hnext
    omega

end Function

/-! ## Frames -/

namespace Frame

/-- The number of operands that a frame has on the stack when it runs, by the heights of its code. -/
def AtHeight (frame : Frame) (n : Nat) : Prop :=
  frame.function.Reaches frame.pc ∧ ∃ height, frame.function.Balanced height ∧ height frame.pc = n

/-- The frames that wait for one that was entered at some height: the result that each of them waits for is the one
operand that it misses. -/
def Waiting : Nat → List Frame → Prop
  | base, [] => base = 0
  | base, frame :: below => ∃ n, frame.AtHeight (n + 1) ∧ base = frame.base + n ∧ Waiting frame.base below

/-- What frames have on the stack, the running one first: each has what lies above the height at which it was entered
and below the height of the next one. -/
def shares : Nat → List Frame → List (Frame × Nat)
  | _, [] => []
  | top, frame :: below => (frame, top - frame.base) :: shares frame.base below

/-- How much of the stack some frames have together. -/
def total : List (Frame × Nat) → Nat
  | [] => 0
  | share :: shares => share.2 + total shares

variable {frame : Frame} {n : Nat}

/-- Behind an operation that goes on a frame is at the height that the operation leaves. -/
theorem AtHeight.goOn (h : frame.AtHeight n) {op : Op} (hop : frame.function.code[frame.pc]? = some op)
    {pc : Nat} (hpc : pc ∈ op.successors frame.pc) :
    ∃ k, AtHeight { frame with pc } k ∧ k + op.operands = n + op.results := by
  obtain ⟨hreaches, height, hbalanced, rfl⟩ := h
  obtain ⟨op', hop', hkeeps⟩ := hbalanced.inside _ hreaches
  obtain rfl := Option.some.inj (hop.symm.trans hop')
  exact ⟨height pc, ⟨hreaches.next hop hpc, height, hbalanced, rfl⟩, hkeeps.edges pc hpc⟩

/-- A frame has as many operands as its operation pops. -/
theorem AtHeight.operands_le (h : frame.AtHeight n) {op : Op}
    (hop : frame.function.code[frame.pc]? = some op) : op.operands ≤ n := by
  obtain ⟨hreaches, height, hbalanced, rfl⟩ := h
  obtain ⟨op', hop', hkeeps⟩ := hbalanced.inside _ hreaches
  obtain rfl := Option.some.inj (hop.symm.trans hop')
  exact hkeeps.operands

/-- A function that is entered has no operands. -/
theorem atHeight_enter {f : Function} (h : ∃ height, f.Balanced height) (m : LoadedModule) (args : List Value)
    (base : Nat) : (enter m f args base).AtHeight 0 := by
  obtain ⟨height, hbalanced⟩ := h
  exact ⟨.start, height, hbalanced, hbalanced.start⟩

/-- The height of a frame is the one of its place, in whichever way heights are given to the places. -/
theorem AtHeight.eq (h : frame.AtHeight n) {height : Nat → Nat} (hbalanced : frame.function.Balanced height) :
    n = height frame.pc := by
  obtain ⟨hreaches, height', hbalanced', rfl⟩ := h
  exact hbalanced'.unique hbalanced hreaches

/-- Each frame that waits misses one operand to the height of its place, and together they have everything up to
the height at which the running one was entered. -/
theorem Waiting.shares {base : Nat} {frames : List Frame} (h : Waiting base frames) :
    (Frame.shares base frames).map Prod.fst = frames ∧ Frame.total (Frame.shares base frames) = base ∧
      ∀ share ∈ Frame.shares base frames, share.1.AtHeight (share.2 + 1) := by
  induction frames generalizing base with
  | nil => exact ⟨rfl, h.symm, nofun⟩
  | cons frame below ih =>
    obtain ⟨n, hheight, hbase, hbelow⟩ := h
    obtain ⟨hframes, hsum, hshares⟩ := ih hbelow
    have hn : base - frame.base = n := by omega
    refine ⟨?_, ?_, List.forall_mem_cons.2 ⟨?_, hshares⟩⟩
    · rw [Frame.shares, List.map_cons, hframes]
    · rw [Frame.shares, Frame.total, hsum]
      omega
    · rw [hn]
      exact hheight

end Frame

/-! ## Machines -/

/-- The functions of every module that a source gives are balanced. -/
def LoadSource.Balanced (s : LoadSource) : Prop :=
  ∀ m, s.Gives m → ∀ f ∈ m.module.functions, ∃ height, f.Balanced height

namespace Machine

variable {setting : MachineSetting} {s : LoadSource} {m m' : Machine}

/-- What the frames of a machine have on the stack, the running one first. -/
def shares (m : Machine) : List (Frame × Nat) :=
  Frame.shares m.stack.size (m.frame :: m.callers.toList)

/-- The running function has on the stack what the height of its place says, and what the functions that wait for it
have fits as well. -/
structure Level (s : LoadSource) (m : Machine) : Prop where
  confined : m.Confined s
  running : ∃ n, m.frame.AtHeight n ∧ m.stack.size = m.frame.base + n
  waiting : Frame.Waiting m.frame.base m.callers.toList

/-- A machine whose functions are balanced is level when a plugin is started. -/
theorem level_start (hs : s.Balanced) {l : Loader} (hsource : l.source = s) (hl : l.Faithful)
    {module : LoadedModule} (hm : s.Gives module) {maxCallDepth : Nat} {plugin : Plugin}
    (hplugin : Plugin.instantiate module maxCallDepth = .ok plugin) (context : PluginContext) :
    (start l context plugin.module plugin.entry).Level s := by
  have hconfined := confined_start hsource hl hm hplugin context
  exact ⟨hconfined, ⟨0, Frame.atHeight_enter (hs _ hconfined.frame.1 _ hconfined.frame.2) _ _ _, rfl⟩, rfl⟩

theorem size_of_popMany? {stack rest : Counted Value} {args : List Value} {argc : Nat}
    (h : stack.popMany? argc = some (args, rest)) : stack.size = rest.size + argc := by
  obtain ⟨hlength, hlist⟩ := Counted.popMany?_eq_some.1 h
  rw [stack.size_eq, rest.size_eq, hlist, List.length_append, List.length_reverse, hlength, Nat.add_comm]

/-- A machine stays level that goes on in the running function and leaves on the stack what its operation leaves. -/
theorem Level.goOn (h : m.Level s) (hconfined : m'.Confined s) {op : Op} (hop : m.op? = some op)
    (hfunction : m'.frame.function = m.frame.function) (hbase : m'.frame.base = m.frame.base)
    (hpc : m'.frame.pc ∈ op.successors m.frame.pc) (hcallers : m'.callers = m.callers)
    (hsize : m'.stack.size + op.operands = m.stack.size + op.results) : m'.Level s := by
  obtain ⟨n, hheight, hstack⟩ := h.running
  obtain ⟨k, hnext, hk⟩ := hheight.goOn hop hpc
  refine ⟨hconfined, ⟨k, ?_, ?_⟩, ?_⟩
  · rw [Frame.AtHeight, hfunction]
    exact hnext
  · omega
  · rw [hbase, hcallers]
    exact h.waiting

/-- A machine stays level that calls a function: the caller misses the arguments and waits for the result. -/
theorem Level.enter (hs : s.Balanced) (h : m.Level s) (hconfined : m'.Confined s) {op : Op} (hop : m.op? = some op)
    (hsuccessors : op.successors m.frame.pc = [m.frame.pc + 1]) (hresults : op.results = 1)
    {callee : LoadedModule} {f : Function} {args : List Value}
    (hframe : m'.frame = Frame.enter callee f args m'.stack.size)
    (hcallers : m'.callers = m.callers.push m.advanced.frame)
    (hsize : m.stack.size = m'.stack.size + op.operands) : m'.Level s := by
  obtain ⟨n, hheight, hstack⟩ := h.running
  have hoperands := hheight.operands_le hop
  have hpc : m.frame.pc + 1 ∈ op.successors m.frame.pc := by simp [hsuccessors]
  obtain ⟨k, hnext, hk⟩ := hheight.goOn hop hpc
  -- the result is the last one of the operands that are there when the function has returned
  obtain ⟨j, rfl⟩ : ∃ j, k = j + 1 := ⟨k - 1, by omega⟩
  have hbalanced := hs _ hconfined.frame.1 _ hconfined.frame.2
  rw [hframe] at hbalanced
  have hbase : m'.frame.base = m'.stack.size := by
    rw [hframe]
    rfl
  refine ⟨hconfined, ⟨0, ?_, hbase.symm⟩, ?_⟩
  · rw [hframe]
    exact Frame.atHeight_enter hbalanced _ _ _
  · rw [hcallers, hbase]
    have hadvanced : m.advanced.frame.base = m.frame.base := rfl
    exact ⟨j, hnext, by omega, h.waiting⟩

/-- Every step keeps a machine level. -/
theorem Level.step (hs : s.Balanced) (h : m.Level s) (hm : m.step setting = .next m') : m'.Level s := by
  obtain ⟨op, hop, hmoves⟩ := step_eq_next_iff.1 hm
  have hconfined := h.confined.step hm
  cases hmoves with
  | const | load => exact h.goOn hconfined hop rfl rfl (List.mem_singleton_self _) rfl rfl
  | jump target => exact h.goOn hconfined hop rfl rfl (List.mem_singleton_self _) rfl rfl
  | store hpop | pop hpop =>
    exact h.goOn hconfined hop rfl rfl (List.mem_singleton_self _) rfl (size_of_pop? hpop).symm
  | goOn hpop => exact h.goOn hconfined hop rfl rfl List.mem_cons_self rfl (size_of_pop? hpop).symm
  | goElsewhere hpop =>
    exact h.goOn hconfined hop rfl rfl (List.mem_cons_of_mem _ List.mem_cons_self) rfl (size_of_pop? hpop).symm
  | unary hpop =>
    have hsize := size_of_pop? hpop
    exact h.goOn hconfined hop rfl rfl (List.mem_singleton_self _) rfl (congrArg (· + 1) hsize).symm
  | binary hright hleft =>
    have hsize : m.stack.size = _ := size_of_pop? hright
    rw [size_of_pop? hleft] at hsize
    exact h.goOn hconfined hop rfl rfl (List.mem_singleton_self _) rfl (congrArg (· + 1) hsize).symm
  | callNative hargs =>
    have hsize : m.stack.size = _ := size_of_popMany? hargs
    refine h.goOn hconfined hop rfl rfl (List.mem_singleton_self _) rfl ?_
    rw [hsize]
    exact Nat.add_right_comm _ _ _
  | call hargs => exact h.enter hs hconfined hop rfl rfl rfl rfl (size_of_popMany? hargs)
  | callUnit hargs => exact h.enter hs hconfined hop rfl rfl rfl rfl (size_of_popMany? hargs)
  | @ret v stack frame callers hpop hcallers =>
    obtain ⟨n, ⟨hreaches, height, hbalanced, rfl⟩, hstack⟩ := h.running
    obtain ⟨op', hop', hkeeps⟩ := hbalanced.inside _ hreaches
    obtain rfl := Option.some.inj (hop.symm.trans hop')
    have hone := hkeeps.ret rfl
    have hsize : m.stack.size = stack.size + 1 := size_of_pop? hpop
    have hwaiting := h.waiting
    have hpushed : m.callers = callers.push frame := Counted.pop?_eq_some.1 hcallers
    rw [hpushed] at hwaiting
    obtain ⟨k, hframe, hk, hbelow⟩ := hwaiting
    refine ⟨hconfined, ⟨k + 1, hframe, ?_⟩, hbelow⟩
    -- exactly the value was above the height at which the function was entered
    have htruncate : (stack.truncate m.frame.base).size = m.frame.base := by
      show stack.size - (stack.size - m.frame.base) = m.frame.base
      omega
    show (stack.truncate m.frame.base).size + 1 = frame.base + (k + 1)
    rw [htruncate, hk]
    rfl

theorem Refuses.ne_underflow {depth : Nat} {f : Option Function} {args : List Value} {failure : PluginFailure}
    (h : Refuses setting depth f args failure) : failure ≠ .fault .operandUnderflow := by
  cases h <;> simp

/-- A level machine finds as many operands as its operation pops. -/
theorem Level.no_underflow (h : m.Level s) {e : MachineEnd} (hstep : m.step setting = .done e) :
    e.result ≠ .error (.fault .operandUnderflow) := by
  intro hresult
  obtain ⟨n, hheight, hstack⟩ := h.running
  obtain ⟨_, hend⟩ | ⟨op, hop, hstops⟩ := stops_of_step hstep
  · rw [hend] at hresult
    exact absurd hresult (by simp)
  have hoperands := hheight.operands_le hop
  rw [hresult] at hstops
  cases hstops with
  | underflow hless =>
    have hless' : m.stack.size < op.operands := hless
    omega
  | unary _ hvalue => cases UnaryOp.ofValues_of_apply hvalue
  | binary _ _ hvalue => cases BinaryOp.ofValues_of_apply hvalue
  | call _ hrefuses => exact hrefuses.ne_underflow rfl
  | callNative _ _ hfailure => exact nomatch Native.fault_of_run hfailure
  | callUnit _ _ _ hrefuses => exact hrefuses.ne_underflow rfl

/-- Each frame of a level machine has on the stack at most the greatest of the heights of its code, and together
they have all of it. -/
theorem Level.shares (h : m.Level s) :
    m.shares.map Prod.fst = m.frame :: m.callers.toList ∧ Frame.total m.shares = m.stack.size ∧
      ∀ share ∈ m.shares, ∀ height most, share.1.function.Balanced height →
        (∀ pc, share.1.function.Reaches pc → height pc ≤ most) → share.2 ≤ most := by
  obtain ⟨n, hheight, hstack⟩ := h.running
  obtain ⟨hframes, hsum, hwaiting⟩ := h.waiting.shares
  have hrunning : m.stack.size - m.frame.base = n := by omega
  refine ⟨congrArg _ hframes, ?_, List.forall_mem_cons.2 ⟨?_, ?_⟩⟩
  · rw [Machine.shares, Frame.shares, Frame.total, hsum]
    omega
  · intro height most hbalanced hmost
    rw [hrunning, hheight.eq hbalanced]
    exact hmost _ hheight.1
  · intro share hshare height most hbalanced hmost
    have hshareHeight := hwaiting share hshare
    have hle := hmost _ hshareHeight.1
    rw [← hshareHeight.eq hbalanced] at hle
    omega

end Machine
end PluginSandbox
