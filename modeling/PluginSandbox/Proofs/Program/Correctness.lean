import PluginSandbox.Proofs.Program.Simulation
import PluginSandbox.Proofs.Session.Modules

/-!
# Compiled programs do what programs mean

A machine whose source implements a program follows the evaluation of every function of the program
(`LoadSource.Implements.follows_enter`).  The induction is on the bound of the evaluation: entering a function
takes one from it, and takes the machine one step.

A call is carried out in three parts.  The operation enters the function, the machine follows the evaluation of
the function to a return, and the return cuts the operands down and puts the value on top
(`follows_called`).
-/

namespace PluginSandbox

open Machine

/-- What calls do in a unit, when it is known what calling something does. -/
def Program.callsIn (p : Program) (owner : Member)
    (call : Option Callee → List Value → Evaluation Value) : Calls where
  function name := call (p.callee? owner name)
  member target method := call (p.memberCallee? owner target method)

theorem Program.enter_succ (p : Program) (host : Host) (limit bound depth : Nat) (owner : Member)
    (decl : FunctionDecl) (args : List Value) :
    p.enter host limit (bound + 1) depth owner decl args =
      (do
        let flow ← Evaluation.body
          (p.callsIn owner (invoke host limit depth (p.enter host limit bound (depth + 1)))) (bound + 1)
          ((decl.params.map Prod.fst).zip args).reverse decl.body
        return flow.result) := rfl

/-! ## Returning -/

namespace Machine

variable {setting : MachineSetting} {m : Machine} {s : LoadSource} {fr : Frame} {callers : Counted Frame}
  {pc : Nat} {locals : Array Value} {stack : Counted Value} {v : Value}

theorem At.depth (h : m.At s fr callers pc locals stack) : m.depth = callers.size + 1 := by
  rw [Machine.depth, h.callers]


/-- A return hands its value over to the frame that waits for it. -/
theorem At.step_ret {caller : Frame} (h : m.At s fr (callers.push caller) pc locals (stack.push v))
    (hop : fr.function.code[pc]? = some .ret) (hbase : fr.base = stack.size) :
    ∃ m', m.step setting = .next m' ∧ m'.context = m.context ∧
      m'.At s caller callers caller.pc caller.locals (stack.push v) := by
  have hcallers : m.advanced.callers.pop? = some (caller, callers) := by
    rw [h.advanced.callers]
    exact Counted.pop?_push callers caller
  have hkept : stack.truncate m.advanced.frame.base = stack := by
    rw [h.advanced.frame, hbase, Counted.truncate, Nat.sub_self]
    exact Counted.ext_toList rfl
  refine ⟨_, step_eq_next_iff.2 ⟨_, h.op?.trans hop, .ret h.advanced.pop? hcallers⟩, rfl, ?_⟩
  exact ⟨rfl, rfl, congrArg (Counted.push · v) hkept, h.source, h.faithful⟩

/-- A return of the last frame ends the run with its value. -/
theorem At.step_ret_last (h : m.At s fr .empty pc locals (stack.push v)) (setting : MachineSetting)
    (hop : fr.function.code[pc]? = some .ret) :
    m.step setting = .done { result := .ok v, loader := m.loader, context := m.context } := by
  have hcallers : m.advanced.callers.pop? = none := by
    rw [h.advanced.callers]
    rfl
  rw [step_of_op (h.op?.trans hop), perform, withOperand, h.advanced.pop?]
  dsimp only
  rw [ret]
  dsimp only
  rw [hcallers]
  rfl

end Machine

/-! ## Calling -/

/-- Where a machine stands when a function that was entered with some operands returns a value. -/
def Returns (s : LoadSource) (fr : Frame) (callers : Counted Frame) (stack : Counted Value) (v : Value)
    (m : Machine) : Prop :=
  ∃ pc locals, fr.function.code[pc]? = some .ret ∧ m.At s fr callers pc locals (stack.push v)

section
variable {setting : MachineSetting} {m entering : Machine} {s : LoadSource} {fr : Frame}
  {callers : Counted Frame} {pc least : Nat} {locals : Array Value} {stack : Counted Value}

/-- A call of a function that can be entered is carried out if entering it is followed. -/
theorem follows_called {callee : LoadedModule} {f : Function} {args : List Value} {x : Evaluation Value}
    (hm : entering.At s fr callers (pc + 1) locals stack) (hcontext : entering.context = m.context)
    (hstep : m.step setting = entering.enter setting callee (some f) args)
    (harity : f.arity = args.length) (hfits : ¬ Frame.Overflows f)
    (hfollows : ∀ {caller : Frame} {m' : Machine},
      m'.At s (Frame.enter callee f args stack.size) (callers.push caller) 0 (Frame.initialLocals f args)
        stack →
      m'.Follows setting least x
        (Returns s (Frame.enter callee f args stack.size) (callers.push caller) stack)) :
    m.Follows setting (least + 1)
      (if setting.maxCallDepth ≤ callers.size + 1 then
        .fail (.fault (.depthExceeded setting.maxCallDepth))
      else x) fun v m' => m'.At s fr callers (pc + 1) locals (stack.push v) := by
  rw [enter_of_arity harity hfits, hm.depth] at hstep
  split at hstep
  · next hdepth =>
    rw [if_pos hdepth]
    exact follows_failed hstep hcontext
  · next hdepth =>
    rw [if_neg hdepth]
    refine follows_step hstep hcontext ?_
    have hentered : At
        { entering with
          frame := Frame.enter callee f args entering.stack.size
          callers := entering.callers.push entering.frame } s (Frame.enter callee f args stack.size)
        (callers.push { fr with pc := pc + 1, locals }) 0 (Frame.initialLocals f args) stack := by
      refine ⟨?_, ?_, hm.stack, hm.source, hm.faithful⟩
      · dsimp only
        rw [hm.stack]
        rfl
      · dsimp only
        rw [hm.callers, hm.frame]
    refine (hfollows hentered).andThen fun v m' hreturns => ?_
    obtain ⟨pc', locals', hop, hm'⟩ := hreturns
    obtain ⟨m'', hstep', hcontext', hm''⟩ := hm'.step_ret hop rfl
    exact (follows_step hstep' hcontext' (follows_pure ⟨hm''.frame, hm''.callers, hm''.stack, hm''.source,
      hm''.faithful⟩)).mono (Nat.le_succ _) fun _ _ => id

/-- A call of a function of the platform is the function itself. -/
theorem follows_native {f : NativeFunction} {location : Location} {symbol : String} {args : List Value}
    (hm : m.At s fr callers pc locals (stack.pushAll args))
    (hop : fr.function.code[pc]? = some (.callNative location symbol args.length))
    (hlinked : fr.module.native? location symbol = some f) :
    m.Follows setting least (Evaluation.native setting.host f args) fun v m' =>
      m'.At s fr callers (pc + 1) locals (stack.push v) := by
  have hstep : m.step setting = callNative setting location symbol args { m.advanced with stack } := by
    rw [step_of_op (hm.op?.trans hop), perform, withArgs, hm.advanced.popMany?]
  have hlinked' : m.advanced.frame.module.native? location symbol = some f := by
    rw [hm.advanced.frame]
    exact hlinked
  rw [callNative] at hstep
  dsimp only at hstep
  rw [hlinked'] at hstep
  have hcontext : m.advanced.context = m.context := rfl
  rw [Follows, Evaluation.native]
  dsimp only at hstep ⊢
  rw [hcontext] at hstep
  rcases hresult : f.implementation.run setting.host args m.context with ⟨failure | v, c⟩
  · rw [hresult] at hstep
    exact ⟨1, { result := .error failure, loader := m.advanced.loader, context := c },
      (run_one m).trans hstep, rfl, rfl⟩
  · rw [hresult] at hstep
    have hat := hm.advanced.withStack stack
    exact ⟨1, _, (run_one m).trans hstep, rfl, At.push (m := { m.advanced with stack, context := c })
      ⟨hat.frame, hat.callers, hat.stack, hat.source, hat.faithful⟩ v⟩

end

/-! ## Entering functions -/

/-- The first slots of a function that is entered hold its arguments. -/
theorem Frame.getElem?_initialLocals (f : Function) {args : List Value} {i : Nat} {v : Value}
    (h : args[i]? = some v) : (initialLocals f args)[i]? = some v := by
  obtain ⟨hlt, _⟩ := List.getElem?_eq_some_iff.1 h
  rw [initialLocals, Array.getElem?_append_left (by simpa using hlt), List.getElem?_toArray]
  exact h

/-- The variables of a function that is entered are its parameters. -/
theorem Scope.holds_initialLocals (f : Function) (params : List (String × Position)) {args : List Value}
    (hlength : args.length = params.length) :
    (Scope.empty.declareAll params).Holds (Frame.initialLocals f args)
      ((params.map Prod.fst).zip args).reverse := by
  have hempty : Scope.empty.Holds (Frame.initialLocals f args) [] := .nil
  have hholds := hempty.declareAll params hlength fun i v hv => by
    have hslots : Scope.empty.slots + i = i := Nat.zero_add i
    rw [hslots]
    exact Frame.getElem?_initialLocals f hv
  rwa [List.append_nil] at hholds

namespace LoadSource.Implements

variable {s : LoadSource} {p : Program} {setting : MachineSetting}

/-- The frame of a function of a unit: it belongs to the module that the source gives for the unit, and to the
compiled form of the function. -/
structure FrameOf (s : LoadSource) (p : Program) (owner : Member) (decl : FunctionDecl)
    (fr : Frame) : Prop where
  member : owner ∈ p.members
  given : s.materialize owner.unit.qualifiedName = .ok fr.module
  function : fr.function ∈ fr.module.module.functions
  code : FunctionCode p owner decl fr.function

/-- Entering any function of a program with some arguments is followed, for some bound. -/
def EntersWithin (s : LoadSource) (p : Program) (setting : MachineSetting) (bound : Nat) : Prop :=
  ∀ {owner : Member} {decl : FunctionDecl} {callee : LoadedModule} {f : Function} {args : List Value}
    {stack : Counted Value} {callers : Counted Frame} {m : Machine},
    FrameOf s p owner decl (Frame.enter callee f args stack.size) → args.length = decl.params.length →
    m.At s (Frame.enter callee f args stack.size) callers 0 (Frame.initialLocals f args) stack →
    m.Follows setting bound
      (p.enter setting.host setting.maxCallDepth bound (callers.size + 1) owner decl args)
      (Returns s (Frame.enter callee f args stack.size) callers stack)

variable {owner : Member} {decl : FunctionDecl} {fr : Frame} {callers : Counted Frame} {pc bound : Nat}
  {locals : Array Value} {stack : Counted Value} {m : Machine}

/-- An operation that calls what a name means carries the call out. -/
theorem follows_invoke (h : s.Implements p) (henters : EntersWithin s p setting bound)
    (hframe : FrameOf s p owner decl fr) {callee : Option Callee} {argc : Nat} {op : Op}
    {args : List Value} (hcalls : CallsTo p owner callee argc op) (hop : fr.function.code[pc]? = some op)
    (hargs : args.length = argc) (hm : m.At s fr callers pc locals (stack.pushAll args)) :
    m.Follows setting (bound + 1)
      (Program.invoke setting.host setting.maxCallDepth (callers.size + 1)
        (p.enter setting.host setting.maxCallDepth bound (callers.size + 1 + 1)) callee args)
      fun v m' => m'.At s fr callers (pc + 1) locals (stack.push v) := by
  obtain ⟨module, contract, hmodule, hcode⟩ := h.gives owner hframe.member
  obtain rfl : module = fr.module := Except.ok.inj (hmodule.symm.trans hframe.given)
  have hpopped := hm.advanced.popMany?
  have hat := hm.advanced.withStack stack
  cases hcalls with
  | @own index callee hdecl =>
    obtain ⟨g, hg, hgcode⟩ := hcode.getElem? hdecl
    have hmem := List.mem_of_getElem? hdecl
    have hstep : m.step setting = enter setting fr.module (some g) args { m.advanced with stack } := by
      rw [step_of_op (hm.op?.trans hop), perform, withArgs, ← hargs, hpopped]
      dsimp only
      rw [hm.advanced.frame, hg]
    exact follows_called hat rfl hstep (hgcode.arity.trans hargs.symm)
      (hgcode.not_overflows ((h.small owner hframe.member).size_le.2 _ hmem))
      fun hm' => henters ⟨hframe.member, hframe.given, Array.mem_of_getElem? hg, hgcode⟩ hargs hm'
  | @other unit method other callee hunit hdecl =>
    obtain ⟨hother, rfl⟩ := Program.mem_of_member? hunit
    obtain ⟨module, _, hmodule, hcode'⟩ := h.gives other hother
    obtain ⟨g, hg, hgcode⟩ := hcode'.function? hdecl
    have hmem := List.mem_of_find?_eq_some hdecl
    have hload : (m.advanced.loader.load other.unit.qualifiedName).1 = .ok module := by
      rw [Loader.load_fst hat.faithful, hat.source, hmodule]
    have hstep : m.step setting = enter setting module (some g) args
        { m.advanced with
          stack, loader := (m.advanced.loader.load other.unit.qualifiedName).2 } := by
      rw [step_of_op (hm.op?.trans hop), perform, withArgs, ← hargs, hpopped]
      exact callUnit_of_load hload hg
    have hat' : At
        { m.advanced with
          stack, loader := (m.advanced.loader.load other.unit.qualifiedName).2 }
        s fr callers (pc + 1) locals stack :=
      ⟨hat.frame, hat.callers, rfl, (Loader.load_source _ _).trans hat.source, hat.faithful.load _⟩
    exact follows_called hat' rfl hstep (hgcode.arity.trans hargs.symm)
      (hgcode.not_overflows ((h.small other hother).size_le.2 _ hmem))
      fun hm' => henters ⟨hother, hmodule, Array.mem_of_find?_eq_some hg, hgcode⟩ hargs hm'
  | @native name location symbol hname hfound =>
    obtain ⟨f, hf, hlinkable⟩ := h.native owner name location symbol hname hfound
    have hlinked : fr.module.native? location symbol.qualifiedName = some f := by
      rw [LoadSource.native?_of_materialize hframe.given, if_pos, hlinkable]
      exact Module.mem_nativeImports.2 ⟨_, hframe.function, _, Array.mem_of_getElem? hop⟩
    rw [← hargs] at hop
    rw [hf]
    exact follows_native hm hop hlinked

/-- **Entering.** A machine that has entered a function of a program follows its evaluation to a return. -/
theorem follows_enter (h : s.Implements p) (setting : MachineSetting) (bound : Nat) :
    EntersWithin s p setting bound := by
  induction bound with
  | zero =>
    intro owner decl callee f args stack callers m _ _ _
    exact ⟨0, m, Nat.le_refl 0, rfl, rfl⟩
  | succ bound ih =>
    intro owner decl callee f args stack callers m hframe hargs hm
    have hcalls : (p.callsIn owner (Program.invoke setting.host setting.maxCallDepth (callers.size + 1)
        (p.enter setting.host setting.maxCallDepth bound (callers.size + 1 + 1)))).CarriedOut p owner
          setting s (Frame.enter callee f args stack.size) callers (bound + 1) :=
      ⟨h.follows_invoke ih hframe, h.follows_invoke ih hframe⟩
    obtain ⟨code, after, hbody, hcode, hlocals⟩ := hframe.code.exists_body
    have hplaced : f.HasAt 0 (code ++ [Op.const .unit, Op.ret]) :=
      ⟨[], [], by rw [List.append_nil]; exact hcode, rfl⟩
    have hslots : after.slots ≤ (Frame.initialLocals f args).size :=
      hlocals ▸ Nat.le_trans (Nat.le_max_left _ _) (Frame.size_initialLocals f args)
    have hfollows := hbody.follows hcalls hplaced.left (Scope.ordered_empty.declareAll decl.params)
      (Scope.holds_initialLocals f decl.params hargs) hslots hm
    rw [Program.enter_succ]
    refine hfollows.bind fun flow m' hflow => ?_
    cases flow with
    | next vars =>
      obtain ⟨locals, _, _, hm'⟩ := hflow
      refine hm'.follows_const (hplaced.opBehind rfl) fun m'' hm'' => follows_pure ?_
      exact ⟨_, locals, (hplaced.right rfl).tail.op, hm''⟩
    | returned v => exact follows_pure hflow

end LoadSource.Implements

end PluginSandbox
