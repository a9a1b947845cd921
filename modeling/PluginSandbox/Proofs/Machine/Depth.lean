import PluginSandbox.Proofs.Loader.Alone
import PluginSandbox.Proofs.Machine.Ending
import PluginSandbox.Proofs.Machine.Output

/-!
# The limit on the number of frames

A run never has more frames than are allowed (`Machine.depth_le_of_run`).  Two runs under different limits go the same
way until a function is called that only the smaller limit refuses (`Machine.run_of_le`), since no other operation looks
at the limit.  And the fault of the limit comes from nothing but a call for which there is no frame left
(`Machine.exists_full_of_run`).

So a greater limit changes nothing about an execution that the smaller one did not cut short, and of one that it did,
only what comes behind (`Plugin.depthLimited_instantiate`).
-/

namespace PluginSandbox

/-- An operation calls a function that runs on the machine. -/
def Op.EntersFunction : Op → Prop
  | .call _ _ | .callUnit _ _ _ => True
  | _ => False

namespace Machine

variable {setting : MachineSetting} {limit limit' : Nat}

/-! ## No more frames than are allowed -/

/-- An operation does not use more frames than are allowed. -/
theorem Moves.depth_le {m m' : Machine} {op : Op} (h : Moves setting m op m')
    (hm : m.depth ≤ setting.maxCallDepth) : m'.depth ≤ setting.maxCallDepth := by
  cases h with
  | call _ hdepth => exact hdepth
  | callUnit _ _ _ hdepth => exact hdepth
  | ret _ hcallers =>
    rw [Counted.pop?_eq_some] at hcallers
    refine Nat.le_trans ?_ hm
    unfold depth
    rw [hcallers]
    exact Nat.le_succ _
  | _ => exact hm

/-- A run does not use more frames than are allowed. -/
theorem depth_le_of_run {m m' : Machine} {n : Nat} (h : m.run setting n = .next m')
    (hm : m.depth ≤ setting.maxCallDepth) : m'.depth ≤ setting.maxCallDepth := by
  refine run_invariant (P := fun m => m.depth ≤ setting.maxCallDepth) ?_ n hm h
  intro m m' hm hstep
  obtain ⟨op, _, hmoves⟩ := step_eq_next_iff.1 hstep
  exact hmoves.depth_le hm

/-! ## Calls that the limit refuses -/

/-- A step ends the run in the fault of the limit, and leaves nothing behind. -/
def Exceeds (limit : Nat) (m : Machine) (s : Step) : Prop :=
  ∃ e, s = .done e ∧ e.result = .error (.fault (.depthExceeded limit)) ∧ e.context = m.context

theorem exceeds_faulted (m : Machine) : m.Exceeds limit (m.faulted (.depthExceeded limit)) :=
  ⟨_, rfl, rfl, rfl⟩

/-- Under two limits a function is entered in the same way, unless the smaller limit refuses it. -/
theorem enter_of_le (host : Host) (hle : limit ≤ limit') (m : Machine) (callee : LoadedModule) (f : Option Function)
    (args : List Value) :
    m.enter ⟨host, limit'⟩ callee f args = m.enter ⟨host, limit⟩ callee f args ∨
      m.Exceeds limit (m.enter ⟨host, limit⟩ callee f args) := by
  unfold enter
  by_cases hdepth : limit ≤ m.depth
  · right
    rw [if_pos hdepth]
    exact m.exceeds_faulted
  · left
    have hdepth' : ¬ limit' ≤ m.depth := fun h => hdepth (Nat.le_trans hle h)
    rw [if_neg hdepth, if_neg hdepth']

/-- Under two limits an operation does the same, unless it is a call that the smaller limit refuses. -/
theorem perform_of_le (host : Host) (hle : limit ≤ limit') (m : Machine) (op : Op) :
    m.perform ⟨host, limit'⟩ op = m.perform ⟨host, limit⟩ op ∨
      m.Exceeds limit (m.perform ⟨host, limit⟩ op) := by
  cases op with
  | call function argc =>
    rw [perform, perform, withArgs, withArgs]
    rcases m.stack.popMany? argc with _ | ⟨args, stack⟩
    · exact .inl rfl
    · exact enter_of_le host hle { m with stack } _ _ args
  | callUnit unit function argc =>
    rw [perform, perform, withArgs, withArgs]
    rcases m.stack.popMany? argc with _ | ⟨args, stack⟩
    · exact .inl rfl
    · dsimp only
      unfold callUnit
      dsimp only
      cases (m.loader.load unit).1 with
      | error cause => exact .inl rfl
      | ok callee =>
        dsimp only
        cases callee.module.function? function with
        | none => exact .inl rfl
        | some f => exact enter_of_le host hle { m with stack, loader := (m.loader.load unit).2 } callee (some f) args
  | _ => exact .inl rfl

theorem step_of_le (host : Host) (hle : limit ≤ limit') (m : Machine) :
    m.step ⟨host, limit'⟩ = m.step ⟨host, limit⟩ ∨ m.Exceeds limit (m.step ⟨host, limit⟩) := by
  cases hop : m.op? with
  | none =>
    rw [op?] at hop
    left
    simp only [step, hop]
  | some op =>
    rw [step_of_op hop, step_of_op hop]
    exact perform_of_le host hle m.advanced op

/-- Under two limits runs go the same way, unless the smaller limit ends its run; and then the other one has come to the
same place. -/
theorem run_of_le (host : Host) (hle : limit ≤ limit') (n : Nat) (m : Machine) :
    m.run ⟨host, limit'⟩ n = m.run ⟨host, limit⟩ n ∨
      ∃ k last, k < n ∧ m.run ⟨host, limit'⟩ k = .next last ∧ last.Exceeds limit (m.run ⟨host, limit⟩ n) := by
  induction n generalizing m with
  | zero => exact .inl rfl
  | succ n ih =>
    rw [run_succ, run_succ]
    rcases step_of_le host hle m with hstep | ⟨e, he, hexceeds⟩
    · rw [hstep]
      cases hs : m.step ⟨host, limit⟩ with
      | done e => exact .inl rfl
      | next m' =>
        rcases ih m' with hrun | ⟨k, last, hk, hreached, hlast⟩
        · exact .inl hrun
        · refine .inr ⟨k + 1, last, Nat.succ_lt_succ hk, ?_, hlast⟩
          rw [run_succ, hstep, hs]
          exact hreached
    · rw [he]
      exact .inr ⟨0, m, Nat.succ_pos n, rfl, e, rfl, hexceeds⟩

/-- A run that ends in another way than in the fault of the limit ends in this way under a greater limit. -/
theorem run_of_done_of_le {host : Host} (hle : limit ≤ limit') {m : Machine} {n k : Nat} {e : MachineEnd}
    (h : m.run ⟨host, limit⟩ n = .done e) (he : e.result ≠ .error (.fault (.depthExceeded limit))) (hk : n ≤ k) :
    m.run ⟨host, limit'⟩ k = .done e := by
  rcases run_of_le host hle n m with hsame | ⟨_, _, _, _, e', he', hexceeds, _⟩
  · exact run_of_done (hsame.trans h) hk
  · obtain rfl := Step.done.inj (h.symm.trans he')
    exact absurd hexceeds he

/-- Whatever a run under the smaller limit has left behind, the one under the greater limit has left behind on its
way. -/
theorem exists_run_context_eq (host : Host) (hle : limit ≤ limit') (n : Nat) (m : Machine) :
    ∃ k ≤ n, (m.run ⟨host, limit'⟩ k).context = (m.run ⟨host, limit⟩ n).context := by
  rcases run_of_le host hle n m with hsame | ⟨k, last, hk, hreached, e, he, _, hcontext⟩
  · exact ⟨n, Nat.le_refl n, by rw [hsame]⟩
  · refine ⟨k, Nat.le_of_lt hk, ?_⟩
    rw [hreached, he]
    exact hcontext.symm

/-! ## Where the fault comes from -/

theorem Refuses.full {depth : Nat} {f : Option Function} {args : List Value}
    (h : Refuses setting depth f args (.fault (.depthExceeded limit))) :
    limit = setting.maxCallDepth ∧ limit ≤ depth := by
  cases h with
  | depth hdepth => exact ⟨rfl, hdepth⟩

/-- Only a call for which there is no frame left ends in the fault of the limit. -/
theorem Stops.full {m : Machine} {op : Op}
    (h : Stops setting m op (.error (.fault (.depthExceeded limit)))) :
    op.EntersFunction ∧ limit = setting.maxCallDepth ∧ limit ≤ m.depth := by
  cases h with
  | unary _ hcause => exact nomatch UnaryOp.ofValues_of_apply hcause
  | binary _ _ hcause => exact nomatch BinaryOp.ofValues_of_apply hcause
  | callNative _ _ hfailure => exact nomatch Native.fault_of_run hfailure
  | call _ hrefuses => exact ⟨trivial, hrefuses.full⟩
  | callUnit _ _ _ hrefuses => exact ⟨trivial, hrefuses.full⟩

/-- A run that ends in the fault of the limit has come to a call with as many frames as are allowed. -/
theorem exists_full_of_run {m : Machine} {n : Nat} {e : MachineEnd} (hm : m.depth ≤ setting.maxCallDepth)
    (h : m.run setting n = .done e) (hresult : e.result = .error (.fault (.depthExceeded limit))) :
    limit = setting.maxCallDepth ∧ ∃ k last op, m.run setting k = .next last ∧ last.op? = some op ∧
      op.EntersFunction ∧ last.depth = limit := by
  obtain ⟨k, last, hreached, hlast⟩ := exists_of_run_eq_done n h
  have hbound := depth_le_of_run hreached hm
  rcases stops_of_step hlast with ⟨_, hend⟩ | ⟨op, hop, hstops⟩
  · rw [hresult] at hend
    exact absurd hend (by simp)
  · rw [hresult] at hstops
    obtain ⟨henters, hlimit, hfull⟩ := hstops.full
    have hdepth : last.advanced.depth = last.depth := rfl
    exact ⟨hlimit, k, last, op, hreached, hop, henters, by omega⟩

end Machine

/-! ## Executions -/

namespace Plugin

/-- What a limit on the number of frames does to the executions of a plugin, beside those of another one. -/
structure DepthLimited (host : Host) (loader : Loader) (limit : Nat) (p q : Plugin) : Prop where
  /-- There are never more frames than are allowed. -/
  bounded : ∀ n m, (p.machine loader).run (p.setting host) n = .next m → m.depth ≤ limit
  /-- The fault of the limit comes from a call for which there is no frame left. -/
  full : ∀ n, (p.execute host loader (.steps n)).result = some (.error (.fault (.depthExceeded limit))) →
    ∃ k m op, (p.machine loader).run (p.setting host) k = .next m ∧ m.op? = some op ∧ op.EntersFunction ∧
      m.depth = limit
  /-- An execution that ends in another way ends in the same way for the other plugin. -/
  same : ∀ n r, (p.execute host loader (.steps n)).result = some r → r ≠ .error (.fault (.depthExceeded limit)) →
    ∀ k ≥ n, (q.execute host loader (.steps k)).result = some r ∧
      (q.execute host loader (.steps k)).plugin.context = (p.execute host loader (.steps n)).plugin.context ∧
      (q.execute host loader (.steps k)).loader = (p.execute host loader (.steps n)).loader
  /-- However far an execution goes, what it has left behind is what the other plugin has left behind on its way. -/
  passed : ∀ n, ∃ k ≤ n, (q.execute host loader (.steps k)).plugin.context =
    (p.execute host loader (.steps n)).plugin.context
  /-- So it is what the other plugin leaves behind first, unless a function of the platform takes a line back. -/
  first : p.module.Calls Native.KeepsLines → loader.Calls Native.KeepsLines →
    ∀ n, ∀ k ≥ n, (p.execute host loader (.steps n)).plugin.context.Extends
      (q.execute host loader (.steps k)).plugin.context

variable {m : LoadedModule} {d d' : Nat} {p q : Plugin}

/-- A plugin beside one that only has another limit. -/
theorem depthLimited_of_le {limit : Nat} (hdepth : p.maxCallDepth = limit) (hpos : 0 < limit)
    (hle : limit ≤ q.maxCallDepth) (hmodule : q.module = p.module) (hentry : q.entry = p.entry)
    (hcontext : q.context = p.context) (host : Host) (loader : Loader) : DepthLimited host loader limit p q := by
  subst hdepth
  have hstart : (p.machine loader).depth ≤ (p.setting host).maxCallDepth := hpos
  have hbounded : ∀ n m, (p.machine loader).run (p.setting host) n = .next m → m.depth ≤ p.maxCallDepth :=
    fun n m hm => Machine.depth_le_of_run hm hstart
  by_cases hover : Frame.Overflows p.entry
  · have hexecute := fun n => execute_of_overflows hover host loader (.steps n)
    have hexecute' := fun n => execute_of_overflows (hentry ▸ hover) host loader (.steps n)
    refine ⟨hbounded, fun n hn => ?_, fun n r hn _ k _ => ?_, fun n => ⟨n, Nat.le_refl n, ?_⟩, fun _ _ n k _ => ?_⟩
    · rw [hexecute] at hn
      exact absurd hn (by simp)
    · rw [hexecute] at hn ⊢
      rw [hexecute']
      exact ⟨hn, hcontext, rfl⟩
    · rw [hexecute, hexecute']
      exact hcontext
    · rw [hexecute, hexecute', hcontext]
      exact .refl _
  · have hmachine : q.machine loader = p.machine loader := by rw [machine, machine, hmodule, hentry, hcontext]
    have hexecute : ∀ n, p.execute host loader (.steps n) = p.behind ((p.machine loader).run (p.setting host) n) :=
      fun n => execute_of_fits hover host loader (.steps n)
    have hexecute' : ∀ n, q.execute host loader (.steps n) = q.behind ((p.machine loader).run (q.setting host) n) :=
      fun n => hmachine ▸ execute_of_fits (hentry ▸ hover) host loader (.steps n)
    have hpassed : ∀ n, ∃ k ≤ n, (q.execute host loader (.steps k)).plugin.context =
        (p.execute host loader (.steps n)).plugin.context := by
      intro n
      obtain ⟨k, hk, hcontext⟩ := Machine.exists_run_context_eq host hle n (p.machine loader)
      refine ⟨k, hk, ?_⟩
      rw [hexecute, hexecute', context_behind, context_behind]
      exact hcontext
    refine ⟨hbounded, fun n hn => ?_, fun n r hn hr k hk => ?_, hpassed, fun hmodule hloader n k hk => ?_⟩
    · rw [hexecute] at hn
      obtain ⟨e, hrun, he⟩ := behind_eq_error.1 hn
      exact (Machine.exists_full_of_run hstart hrun he).2
    · rw [hexecute] at hn ⊢
      obtain ⟨e, hrun, rfl⟩ := behind_eq_some.1 hn
      have he : e.result ≠ .error (.fault (.depthExceeded p.maxCallDepth)) := fun he => hr (by rw [he]; rfl)
      have hrun' : (p.machine loader).run (q.setting host) k = .done e := Machine.run_of_done_of_le hle hrun he hk
      rw [hexecute', hrun, hrun']
      exact ⟨rfl, rfl, rfl⟩
    · obtain ⟨j, hj, hcontext⟩ := hpassed n
      rw [← hcontext, hexecute', hexecute', context_behind, context_behind]
      exact Machine.extends_run_of_le (Machine.calls_start hloader hmodule _ _) (by omega)

/-- **The limit on the number of frames is exact and monotone.**  A plugin that is instantiated with a limit, where zero
counts as one, never has more frames than that, and it meets the limit only where it calls a function with so many.  A
plugin of the same module with a greater limit, which starts from the same, does what this one does until then: it ends
in the same way if this one ends in another way than by the limit, and else it has left behind the same on its way. -/
theorem depthLimited_instantiate (hp : Plugin.instantiate m d = .ok p) (hq : Plugin.instantiate m d' = .ok q)
    (hle : d ≤ d') (host : Host) (loader : Loader) (context : PluginContext) :
    DepthLimited host loader (max d 1) { p with context } { q with context } := by
  obtain ⟨rfl, hentry, _, hdepth, _⟩ := instantiate_eq_ok.1 hp
  obtain ⟨hmodule, hentry', _, hdepth', _⟩ := instantiate_eq_ok.1 hq
  rw [← hmodule, hentry] at hentry'
  have hpos : 0 < max d 1 := by omega
  have hless : max d 1 ≤ q.maxCallDepth := by omega
  exact depthLimited_of_le (p := { p with context }) (q := { q with context }) hdepth hpos hless hmodule.symm
    (Option.some.inj hentry').symm rfl host loader

/-- A module, written by hand, whose entry operation prints a line and calls itself. -/
def descending : Module where
  formatVersion := Module.currentVersion
  name := "contract.Descending"
  contract := defaultContract.qualifiedName
  functions :=
    #[{ name := ContractType.entryOperation, arity := 0, locals := 0
        code := #[.const (.str "down"), .callNative (.systemModule baseModule) "io.print" 1, .pop, .call 0 0, .ret] }]

/-- The module that goes down without end, with one frame and with two. -/
theorem depthLimited_descending :
    ∃ (m : LoadedModule) (p q : Plugin),
      (((LoadSource.alone descending).afterLoading []).load descending.name).1 = .ok m ∧
        Plugin.instantiate m 0 = .ok p ∧ Plugin.instantiate m 2 = .ok q ∧
        (p.execute .empty ((LoadSource.alone descending).afterLoading [descending.name]) (.steps 4)).result =
          some (.error (.fault (.depthExceeded 1))) ∧
        (p.execute .empty ((LoadSource.alone descending).afterLoading [descending.name]) (.steps 4)).plugin.output =
          #["down"] ∧
        (q.execute .empty ((LoadSource.alone descending).afterLoading [descending.name]) (.steps 8)).plugin.output =
          #["down", "down"] ∧
        DepthLimited .empty ((LoadSource.alone descending).afterLoading [descending.name]) 1 p q ∧
        m.Calls Native.KeepsLines ∧
        ((LoadSource.alone descending).afterLoading [descending.name]).Calls Native.KeepsLines := by
  let m : LoadedModule := ⟨descending, descending.artifact.digest, descending.encode.size, [LoadSource.printLink]⟩
  let p : Plugin := ⟨m, descending.functions[0], 1, { plugin := descending.name }⟩
  let q : Plugin := ⟨m, descending.functions[0], 2, { plugin := descending.name }⟩
  have hfits : descending.Fits := ⟨by decide, by simp [descending, Function.fits_iff, Op.Fits]⟩
  have hload := LoadSource.load_alone_printing hfits (by decide +kernel) (by decide +kernel) []
  have hoffers : (LoadSource.alone descending).catalogue.Offers Native.KeepsLines :=
    (Catalogue.standard_ignoresLines _).mono fun _ h => h.keepsLines
  have hmodule : m.Calls Native.KeepsLines := (LoadSource.calls_afterLoading hoffers []).of_load hload
  have hloader := LoadSource.calls_afterLoading hoffers [descending.name]
  generalize (LoadSource.alone descending).afterLoading [descending.name] = loader at hloader ⊢
  have hlimited : DepthLimited .empty loader 1 p q :=
    depthLimited_instantiate (m := m) (p := p) rfl rfl (Nat.zero_le 2) .empty loader p.context
  exact ⟨m, p, q, hload, rfl, rfl, rfl, rfl, rfl, hlimited, hmodule, hloader⟩

end Plugin
end PluginSandbox
