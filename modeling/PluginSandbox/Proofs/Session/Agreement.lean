import PluginSandbox.Proofs.Machine.Calls
import PluginSandbox.Proofs.Machine.Ending
import PluginSandbox.Proofs.Session.Modules

/-!
# Compiling and loading agree

The compiler and the loader check the same things independently of one another: the compiler on syntax trees,
the loader on whatever bytes it is given.  In a session that succeeded they agree (`Sandbox.loads_compiled`).

* Every unit can be loaded and made a plugin of, whatever was loaded before.
* Every call of a function of the platform is linked to the function that the compiler has found, and every
  call of another unit reaches a function of that unit (`Sandbox.Resolves`).
* No execution fails because of loading, or of an entry point unless a function of the platform says so, and no run
  fails because a function of another unit cannot be reached.
-/

namespace PluginSandbox

namespace LoadSource.Implements

variable {s : LoadSource} {p : Program}

/-- Every module that is given is the compiled form of a unit. -/
theorem exists_code (h : s.Implements p) {name : String} {m : LoadedModule}
    (hm : s.materialize name = .ok m) :
    ∃ owner ∈ p.members, owner.unit.qualifiedName = name ∧
      ∃ contract, ModuleCode p owner contract m.module := by
  obtain ⟨owner, howner, rfl⟩ := h.only name m hm
  obtain ⟨m', contract, hm', hcode⟩ := h.gives owner howner
  obtain rfl : m' = m := Except.ok.inj (hm'.symm.trans hm)
  exact ⟨owner, howner, rfl, contract, hcode⟩

/-- Every unit can be made a plugin of, whatever the limit on the number of frames is. -/
theorem exists_plugin (h : s.Implements p) {name : String} {m : LoadedModule}
    (hm : s.materialize name = .ok m) (maxCallDepth : Nat) :
    ∃ plugin, Plugin.instantiate m maxCallDepth = .ok plugin := by
  obtain ⟨owner, howner, _, contract, hcode⟩ := h.exists_code hm
  obtain ⟨decl, hdecl, hparams⟩ := h.entry owner howner
  obtain ⟨f, hf, hfunction⟩ := hcode.function? hdecl
  have harity : f.arity = 0 := by rw [hfunction.arity, hparams, List.length_nil]
  refine ⟨{ module := m, entry := f, maxCallDepth := max maxCallDepth 1
            context := { plugin := m.module.name } }, ?_⟩
  exact Plugin.instantiate_eq_ok.2 ⟨rfl, hf, harity, rfl, rfl⟩

/-- A call of another unit reaches a function of that unit with the right number of parameters. -/
theorem exists_callee (h : s.Implements p) {m : LoadedModule} (hm : s.Gives m) {f : Function}
    (hf : f ∈ m.module.functions) {unit function : String} {argc : Nat}
    (hop : Op.callUnit unit function argc ∈ f.code) :
    ∃ other ∈ p.members, other.unit.qualifiedName = unit ∧
      ∃ callee g, s.materialize unit = .ok callee ∧ callee.module.function? function = some g ∧
        g.arity = argc ∧ ¬ Frame.Overflows g := by
  obtain ⟨name, hm⟩ := hm
  obtain ⟨owner, _, _, contract, hcode⟩ := h.exists_code hm
  obtain ⟨most, hplaced⟩ := hcode.placed (Array.mem_toList_iff.2 hf)
  obtain ⟨_, _, hcalls⟩ := hplaced _ (Array.mem_toList_iff.2 hop)
  cases hcalls with
  | @other _ _ other decl hunit hdecl =>
    obtain ⟨hother, rfl⟩ := Program.mem_of_member? hunit
    obtain ⟨callee, _, hcallee, hcode'⟩ := h.gives other hother
    obtain ⟨g, hg, hfunction⟩ := hcode'.function? hdecl
    have hsmall := (h.small other hother).size_le.2 decl (List.mem_of_find?_eq_some hdecl)
    exact ⟨other, hother, rfl, callee, g, hcallee, hg, hfunction.arity,
      hfunction.not_overflows hsmall⟩

/-- Wherever a run has come to, calling another unit enters the function, unless the operands or the frames
do not allow it. -/
theorem callUnit_fails (h : s.Implements p) {setting : MachineSetting} {m : Machine}
    (hm : m.Confined s) {unit function : String} {argc : Nat}
    (hop : m.op? = some (.callUnit unit function argc)) :
    ∃ callee f, (m.loader.load unit).1 = .ok callee ∧ callee.module.function? function = some f ∧
      f.arity = argc ∧ ∀ e failure, m.step setting = .done e → e.result = .error failure →
        failure = .fault .operandUnderflow ∨
          failure = .fault (.depthExceeded setting.maxCallDepth) := by
  obtain ⟨_, _, _, callee, f, hcallee, hf, harity, hfits⟩ :=
    h.exists_callee hm.frame.1 hm.frame.2 (Array.mem_of_getElem? hop)
  have hload : (m.loader.load unit).1 = .ok callee := by
    rw [Loader.load_fst hm.faithful, hm.source, hcallee]
  refine ⟨callee, f, hload, hf, harity, fun e failure hstep hfailure => ?_⟩
  rw [Machine.step_of_op hop, Machine.perform, Machine.withArgs] at hstep
  have hpopped : m.advanced.stack.popMany? argc = m.stack.popMany? argc := rfl
  cases hargs : m.stack.popMany? argc with
  | none =>
    rw [hpopped, hargs] at hstep
    obtain rfl := Step.done.inj hstep
    exact .inl (Except.error.inj hfailure).symm
  | some top =>
    obtain ⟨args, stack⟩ := top
    have hlength : args.length = argc := (Counted.popMany?_eq_some.1 hargs).1
    rw [hpopped, hargs] at hstep
    dsimp only at hstep
    rw [Machine.callUnit_of_load (m := { m.advanced with stack }) hload hf,
      Machine.enter_of_arity (harity.trans hlength.symm) hfits] at hstep
    split at hstep
    · obtain rfl := Step.done.inj hstep
      exact .inr (Except.error.inj hfailure).symm
    · exact absurd hstep (by simp)

end LoadSource.Implements

/-! ## Executions -/

/-- A function of a platform says of a plugin that calls it that its entry point cannot be constructed. -/
def Catalogue.Blames (c : Catalogue) (host : Host) (reason : String) : Prop :=
  ∃ f ∈ c.functions, ∃ args context, (f.implementation.reply host args context).result = .error (.instantiation reason)

/-- Functions that never say so do not. -/
theorem Catalogue.Offers.not_blames {c : Catalogue} (h : c.Offers Native.Blameless) (host : Host) (reason : String) :
    ¬ c.Blames host reason := by
  rintro ⟨f, hf, args, context, hreply⟩
  exact h f hf host args context reason hreply

/-- A failure of an execution that is not about loading, and about an entry point only if a function of the platform
says so. -/
def ExecutionFailure.InRun (c : Catalogue) (host : Host) : ExecutionFailure → Prop
  | .load _ => False
  | .instantiation reason => c.Blames host reason
  | _ => True

/-- An execution of a plugin blames an entry point only if a function of the platform does. -/
theorem Plugin.inRun_of_execute {s : LoadSource} {l : Loader} (hsource : l.source = s) (hl : l.Faithful)
    {module : LoadedModule} (hm : s.Gives module) {maxCallDepth : Nat} {plugin : Plugin}
    (hplugin : Plugin.instantiate module maxCallDepth = .ok plugin) (host : Host) (limit : Limit)
    {failure : PluginFailure} (h : (plugin.execute host l limit).result = some (.error failure)) :
    (ExecutionFailure.ofPlugin failure).InRun s.catalogue host := by
  cases failure with
  | signaled | fault | crashed => trivial
  | instantiation flaw =>
    by_cases hover : Frame.Overflows plugin.entry
    · rw [execute_of_overflows hover] at h
      exact absurd h (by simp)
    rw [execute_of_fits hover] at h
    obtain ⟨e, he, hresult⟩ := behind_eq_error.1 h
    obtain ⟨n, hn⟩ := Machine.exists_run_of_runWithin (plugin.setting host) limit (plugin.machine l)
    obtain ⟨k, last, reason, hreached, rfl, call, hcall, hreply⟩ :=
      Machine.exists_of_run_eq_instantiation (hn.symm.trans he) hresult
    have hconfined : last.Confined s :=
      Machine.run_invariant (fun _ _ => Machine.Confined.step) k
        (Machine.confined_start hsource hl hm hplugin plugin.context) hreached
    have hoffered : s.catalogue.Offers fun f => ∃ g ∈ s.catalogue.functions, g.implementation = f :=
      fun g hg => ⟨g, hg, rfl⟩
    obtain ⟨g, hg, hsame⟩ := (hconfined.calls hoffered).of_nativeCall? hcall
    exact ⟨g, hg, call.args, last.context.toNativeContext, hsame ▸ hreply⟩

namespace CompiledSession

variable {s : CompiledSession} {p : Program}

/-- Running an entry does not fail because of loading, or because of the entry point unless a function of the platform
says so. -/
theorem inRun_of_runEntry (h : s.loader.source.Implements p) {owner : Member} (howner : owner ∈ p.members)
    (host : Host) (limit : Limit) {failure : ExecutionFailure}
    (hrun : (s.runEntry host owner.unit.qualifiedName limit).result = some (.error failure)) :
    failure.InRun s.loader.source.catalogue host := by
  obtain ⟨m, _, hm, _⟩ := h.gives owner howner
  obtain ⟨plugin, hplugin⟩ := h.exists_plugin hm s.configuration.maxCallDepth
  have hload : (s.loader.load owner.unit.qualifiedName).1 = .ok m :=
    (Loader.load_fst (Loader.faithful_fresh _) _).trans hm
  obtain ⟨hsource, hfaithful⟩ := s.loader.source.afterLoading_faithful [owner.unit.qualifiedName]
  rw [runEntry] at hrun
  split at hrun
  · exact absurd hrun (by simp)
  · next rest hrest =>
    dsimp only at hrun
    rw [hload] at hrun
    dsimp only at hrun
    rw [hplugin] at hrun
    obtain ⟨r, hr, hfailure⟩ := Option.map_eq_some_iff.1 hrun
    cases r with
    | ok a => exact nomatch hfailure
    | error cause =>
      obtain rfl := Except.error.inj hfailure
      exact Plugin.inRun_of_execute hsource hfaithful ⟨_, hm⟩ hplugin host rest hr

theorem failure_finish (s : CompiledSession) (run : EntryRun) (result : Except ExecutionFailure Unit) :
    (s.finish run result).failure = match result with
      | .ok () => none
      | .error failure => some failure := by
  cases result <;> rfl

/-- No execution of a registered unit fails because of loading, or of the entry point unless a function of the platform
says so, with or without a deadline. -/
theorem inRun_of_execute (h : s.loader.source.Implements p) (hok : s.Succeeded) {owner : Member}
    (howner : owner ∈ p.members) (host : Host) {finished : FinishedSession}
    (hfinished : (∃ steps, s.execute hok host owner.unit.qualifiedName steps = some finished) ∨
      ∃ millis, s.executeWithDeadline hok host owner.unit.qualifiedName millis = finished)
    {failure : ExecutionFailure} (hfailure : finished.failure = some failure) :
    failure.InRun s.loader.source.catalogue host := by
  have hended : ∀ {limit result}, (s.runEntry host owner.unit.qualifiedName limit).result = some result →
      (s.finish (s.runEntry host owner.unit.qualifiedName limit) result).failure = some failure →
      failure.InRun s.loader.source.catalogue host := by
    intro limit result hresult hfailure
    rw [failure_finish] at hfailure
    cases result with
    | ok a => exact absurd hfailure (by simp)
    | error cause =>
      obtain rfl := Option.some.inj hfailure
      exact inRun_of_runEntry h howner host _ hresult
  rcases hfinished with ⟨steps, hsteps⟩ | ⟨millis, rfl⟩
  · rw [execute] at hsteps
    obtain ⟨result, hresult, rfl⟩ := Option.map_eq_some_iff.1 hsteps
    exact hended hresult hfailure
  · rw [executeWithDeadline] at hfailure
    split at hfailure
    · next result hresult => exact hended hresult hfailure
    · rw [failure_finish] at hfailure
      obtain rfl := Option.some.inj hfailure
      trivial

end CompiledSession

/-! ## The whole session -/

namespace Sandbox

variable {b : Sandbox} {correlation : Correlation} {units : List PluginUnit} {s : CompiledSession}

/-- Whatever the module of a unit calls outside of it is what the compiler has found, and takes as many
arguments as it is given. -/
structure Resolves (b : Sandbox) (units : List PluginUnit) (s : LoadSource) (u : PluginUnit)
    (m : LoadedModule) : Prop where
  /-- A call of a function of the platform is linked to the function that a name in the unit means, which is
  the first one of the name in its package. -/
  natives : ∀ f ∈ m.module.functions, ∀ location symbol argc,
    Op.callNative location symbol argc ∈ f.code →
    ∃ name entry g,
      (b.meaning units).callee u (ParsedUnit.ofSource u.source).1.imports name =
        some (location, .library entry) ∧
      entry.qualifiedName = symbol ∧ entry.arity = argc ∧
      ((b.catalogue.package location entry.package).find? fun g => g.symbol.name = name) = some g ∧
      g.symbol = entry ∧ m.native? location symbol = some g
  /-- A call of another unit names a registered one, whose module has a function of the name. -/
  units : ∀ f ∈ m.module.functions, ∀ unit function argc, Op.callUnit unit function argc ∈ f.code →
    ∃ other ∈ units, other.qualifiedName = unit ∧
      ∃ callee g, s.materialize unit = .ok callee ∧ callee.module.function? function = some g ∧
        g.arity = argc

/-- In a session that succeeded, the modules of all units call what the compiler has found. -/
theorem CompiledBy.resolves (h : b.CompiledBy correlation units s) (hok : s.Succeeded)
    (hvalid : b.configuration.IsValid) (hnodup : (units.map PluginUnit.qualifiedName).Nodup)
    {u : PluginUnit} {m : LoadedModule} (hm : s.loader.source.materialize u.qualifiedName = .ok m)
    (hu : u ∈ units) : b.Resolves units s.loader.source u m := by
  have himplements := h.implements hok hvalid hnodup
  constructor
  · intro f hf location symbol argc hop
    obtain ⟨m', contract, hm', hcode⟩ := himplements.gives _ (mem_program.2 ⟨u, hu, rfl⟩)
    obtain rfl : m' = m := Except.ok.inj (hm'.symm.trans hm)
    obtain ⟨most, hplaced⟩ := hcode.placed (Array.mem_toList_iff.2 hf)
    obtain ⟨_, _, hcalls⟩ := hplaced _ (Array.mem_toList_iff.2 hop)
    cases hcalls with
    | @native name _ entry hname hfound =>
      obtain ⟨g, _, hsymbol, hfirst, hlinkable⟩ := Resolver.linkable?_of_meaning
        (r := (b.pending default Builtin.toolchain units).resolver) hvalid rfl hname hfound
        (s := s.loader.source) h.catalogue h.policy
      refine ⟨name, entry, g, hfound, rfl, rfl, hfirst, hsymbol, ?_⟩
      rw [LoadSource.native?_of_materialize hm,
        if_pos (Module.mem_nativeImports.2 ⟨f, hf, _, hop⟩)]
      exact hlinkable
  · intro f hf unit function argc hop
    obtain ⟨other, hother, hname, callee, g, hcallee, hg, harity, _⟩ :=
      himplements.exists_callee ⟨_, hm⟩ hf hop
    obtain ⟨v, hv, rfl⟩ := mem_program.1 hother
    exact ⟨v, hv, hname, callee, g, hcallee, hg, harity⟩

/-- **Agreement.** Let a session with the built-in toolchain have succeeded under a valid configuration.

* Every registered unit is loaded, whatever was loaded before, and can be made a plugin of; what its module
  calls outside of it is what the compiler has found, with as many arguments as it takes.
* No execution of a registered unit fails because of loading.  None fails because of the entry point unless a function
  of the platform says so of a plugin that is already running; if the functions never do (`Native.Blameless`), none
  fails because of the entry point.
* Wherever a run of a registered unit has come to, a call of another unit loads that unit and finds the
  function, with as many parameters as there are arguments.  It fails only for want of operands or of frames. -/
theorem loads_compiled (hvalid : b.configuration.IsValid) (htoolchain : b.toolchain = some Builtin.toolchain)
    {first : String} (hcompile : b.compile correlation units = .ok (first, s)) (hok : s.Succeeded) :
    (∀ u ∈ units, ∀ earlier, ∃ m,
      ((s.loader.afterLoading earlier).load u.qualifiedName).1 = .ok m ∧
        (∀ maxCallDepth, ∃ plugin, Plugin.instantiate m maxCallDepth = .ok plugin) ∧
        b.Resolves units s.loader.source u m) ∧
      (∀ u ∈ units, ∀ (host : Host) (finished : FinishedSession) (failure : ExecutionFailure),
        ((∃ steps, s.execute hok host u.qualifiedName steps = some finished) ∨
          ∃ millis, s.executeWithDeadline hok host u.qualifiedName millis = finished) →
        finished.failure = some failure →
        (∀ cause, failure ≠ .load cause) ∧
          (∀ reason, failure = .instantiation reason → b.catalogue.Blames host reason) ∧
          (b.catalogue.Offers Native.Blameless → ∀ reason, failure ≠ .instantiation reason)) ∧
      ∀ u ∈ units, ∀ (earlier : List String) (maxCallDepth : Nat) (context : PluginContext) (host : Host)
        (limit : Limit) (module : LoadedModule) (plugin : Plugin) (m : Machine) (unit function : String)
        (argc : Nat),
        ((s.loader.afterLoading earlier).load u.qualifiedName).1 = .ok module →
        Plugin.instantiate module maxCallDepth = .ok plugin →
        (Machine.start (s.loader.afterLoading earlier) context plugin.module plugin.entry).runWithin
          { host, maxCallDepth := plugin.maxCallDepth } limit = .next m →
        m.op? = some (.callUnit unit function argc) →
        ∃ callee f, (m.loader.load unit).1 = .ok callee ∧ callee.module.function? function = some f ∧
          f.arity = argc ∧ ∀ e failure,
            m.step { host, maxCallDepth := plugin.maxCallDepth } = .done e → e.result = .error failure →
            failure = .fault .operandUnderflow ∨
              failure = .fault (.depthExceeded plugin.maxCallDepth) := by
  obtain ⟨hnodup, _, hcompiled⟩ := compiledBy_of_compile htoolchain hcompile
  have himplements := hcompiled.implements hok hvalid hnodup
  have hfaithful := fun earlier => s.loader.source.afterLoading_faithful earlier
  have hload : ∀ (u : PluginUnit) (earlier : List String),
      ((s.loader.afterLoading earlier).load u.qualifiedName).1 =
        s.loader.source.materialize u.qualifiedName := by
    intro u earlier
    have hfst := Loader.load_fst (hfaithful earlier).2 u.qualifiedName
    rw [(hfaithful earlier).1] at hfst
    exact hfst
  refine ⟨fun u hu earlier => ?_, fun u hu host finished failure hfinished hfailure => ?_, ?_⟩
  · obtain ⟨m, _, hm, _⟩ := himplements.gives _ (mem_program.2 ⟨u, hu, rfl⟩)
    exact ⟨m, (hload u earlier).trans hm, himplements.exists_plugin hm,
      hcompiled.resolves hok hvalid hnodup hm hu⟩
  · have hinRun := CompiledSession.inRun_of_execute himplements hok (mem_program.2 ⟨u, hu, rfl⟩) host
      hfinished hfailure
    rw [show s.loader.source.catalogue = b.catalogue from hcompiled.catalogue] at hinRun
    refine ⟨?_, ?_, ?_⟩
    · rintro cause rfl
      exact hinRun
    · rintro reason rfl
      exact hinRun
    · rintro hblameless reason rfl
      exact hblameless.not_blames host reason hinRun
  · intro u _ earlier maxCallDepth context host limit module plugin m unit function argc hmodule hplugin
      hrun hop
    have hgives : s.loader.source.Gives module := ⟨_, (hload u earlier).symm.trans hmodule⟩
    have hstart := Machine.confined_start (hfaithful earlier).1 (hfaithful earlier).2 hgives hplugin context
    obtain ⟨n, hn⟩ := Machine.exists_run_of_runWithin { host, maxCallDepth := plugin.maxCallDepth }
      limit (Machine.start (s.loader.source.afterLoading earlier) context plugin.module plugin.entry)
    have hreached : m.Confined s.loader.source :=
      Machine.run_invariant (fun _ _ => Machine.Confined.step) n hstart (hn.symm.trans hrun)
    exact himplements.callUnit_fails hreached hop

/-- A unit that prints a line is loaded and made a plugin of, what it calls is what was found for it, and it does not
fail to be loaded or constructed when it is executed. -/
theorem loads_compiled_hello :
    ∃ s, (ofConfiguration .default .empty).compile default [.hello] =
        .ok (PluginUnit.hello.qualifiedName, s) ∧ ∃ hok : s.Succeeded,
      (∃ m plugin, ((s.loader.afterLoading []).load PluginUnit.hello.qualifiedName).1 = .ok m ∧
        Plugin.instantiate m 1 = .ok plugin ∧
        (ofConfiguration .default .empty).Resolves [.hello] s.loader.source .hello m) ∧
      ∀ failure, (s.executeWithDeadline hok .empty PluginUnit.hello.qualifiedName 1000).failure = some failure →
        ∀ text, failure ≠ .load (.notInSession text) ∧ failure ≠ .instantiation text := by
  obtain ⟨s, hcompile, hok⟩ := compile_hello
  have hvalid : (ofConfiguration .default .empty).configuration.IsValid := by decide +kernel
  have hagree := loads_compiled (b := ofConfiguration .default .empty) hvalid rfl hcompile hok
  obtain ⟨m, hload, hplugin, hresolves⟩ := hagree.1 .hello List.mem_cons_self []
  obtain ⟨plugin, hplugin⟩ := hplugin 1
  refine ⟨s, hcompile, hok, ⟨m, plugin, hload, hplugin, hresolves⟩, fun failure hfailure text => ?_⟩
  obtain ⟨hloads, _, hconstructs⟩ := hagree.2.1 .hello List.mem_cons_self .empty _ failure (.inr ⟨1000, rfl⟩) hfailure
  exact ⟨hloads _, hconstructs (Catalogue.standard_blameless _) text⟩

end Sandbox
end PluginSandbox
