import PluginSandbox.Proofs.Machine.Output
import PluginSandbox.Proofs.Program.Correctness
import PluginSandbox.Proofs.Session.Agreement

/-!
# Executing a unit does what its source says

In a session that succeeded, executing a unit and evaluating its entry operation cannot be told apart
(`Sandbox.describes_compiled`): both end with the same outcome and the same lines, or neither ends.

An execution is known for every number of steps, and an evaluation for every bound.  `Plugin.observed` and
`Program.execute` give what is to be seen of them so far, and `Program.Describes` compares the two.

## From bounds to steps

Whatever an evaluation has come to within a bound, the execution has come to after some number of steps, and
after no fewer steps than the bound if the evaluation has not ended (`Program.KeptUp`).  An execution that has
ended stays as it is, and one that has not takes no line back if the platform does not.  The rest follows from these
facts.
-/

namespace PluginSandbox

/-! ## What is to be seen -/

namespace Plugin

variable {plugin : Plugin} {host : Host} {loader : Loader}

/-- What is to be seen of the execution of a plugin after some number of steps: whether it has ended and how, and
what has been left behind until then. -/
def observed (plugin : Plugin) (host : Host) (loader : Loader) (steps : Nat) :
    Outcome Unit × PluginContext :=
  let execution := plugin.execute host loader (.steps steps)
  match execution.result with
  | none => (.unfinished, execution.plugin.context)
  | some (.ok ()) => (.done (), execution.plugin.context)
  | some (.error failure) => (.failed failure, execution.plugin.context)

/-- What is to be seen of a run. -/
def seen : Step → Outcome Unit × PluginContext
  | .next m => (.unfinished, m.context)
  | .done e =>
    match e.result with
    | .ok _ => (.done (), e.context)
    | .error failure => (.failed failure, e.context)

theorem observed_eq (hfits : ¬ Frame.Overflows plugin.entry) (steps : Nat) :
    plugin.observed host loader steps =
      seen ((plugin.machine loader).run { host, maxCallDepth := plugin.maxCallDepth } steps) := by
  have hexecute : plugin.execute host loader (.steps steps) =
      plugin.behind ((plugin.machine loader).run { host, maxCallDepth := plugin.maxCallDepth } steps) :=
    execute_of_fits hfits host loader (.steps steps)
  rw [observed, hexecute]
  rcases (plugin.machine loader).run { host, maxCallDepth := plugin.maxCallDepth } steps with
    m | ⟨_ | _, _, _⟩ <;> rfl

/-- A longer execution takes no line back if no function that it calls does. -/
theorem extends_observed (hfits : ¬ Frame.Overflows plugin.entry)
    (hcalls : (plugin.machine loader).Calls Native.KeepsLines) {k n : Nat} (h : k ≤ n) :
    (plugin.observed host loader k).2.Extends (plugin.observed host loader n).2 := by
  have hcontext : ∀ r : Step, (seen r).2 = r.context := by
    rintro (m | ⟨_ | _, _, _⟩) <;> rfl
  rw [observed_eq hfits, observed_eq hfits, hcontext, hcontext]
  exact Machine.extends_run_of_le hcalls h

/-- An execution that has ended stays as it is. -/
theorem observed_of_ended (hfits : ¬ Frame.Overflows plugin.entry) {k n : Nat} (h : k ≤ n)
    (hended : (plugin.observed host loader k).1 ≠ .unfinished) :
    plugin.observed host loader n = plugin.observed host loader k := by
  rw [observed_eq hfits] at hended ⊢
  rw [observed_eq hfits]
  cases hrun : (plugin.machine loader).run { host, maxCallDepth := plugin.maxCallDepth } k with
  | next m =>
    rw [hrun] at hended
    exact absurd rfl hended
  | done e => rw [Machine.run_of_done hrun h]

end Plugin

/-! ## What is meant -/

/-- Executing a plugin, from what it has left behind so far, comes to what evaluating the entry operation of a
unit comes to. -/
structure Program.Describes (p : Program) (owner : Member) (plugin : Plugin) (loader : Loader)
    (host : Host) : Prop where
  /-- The execution ends exactly as the evaluation does, with the same lines. -/
  ends : ∀ o : Outcome Unit × PluginContext, o.1 ≠ .unfinished →
    ((∃ steps, plugin.observed host loader steps = o) ↔
      ∃ bound, p.execute host plugin.maxCallDepth bound owner plugin.context = o)
  /-- The execution goes on for ever exactly if the evaluation does. -/
  diverges : (∀ steps, (plugin.observed host loader steps).1 = .unfinished) ↔
    ∀ bound, (p.execute host plugin.maxCallDepth bound owner plugin.context).1 = .unfinished
  /-- Whatever the evaluation has left behind within a bound, the execution leaves behind after some steps. -/
  leaves : ∀ bound, ∃ steps, (plugin.observed host loader steps).2 =
    (p.execute host plugin.maxCallDepth bound owner plugin.context).2
  /-- However far the execution has come, it comes to something later that the evaluation comes to as well. -/
  left : ∀ steps, ∃ later bound, steps ≤ later ∧
    plugin.observed host loader later = p.execute host plugin.maxCallDepth bound owner plugin.context
  /-- If the functions of the platform take no line back, the evaluation leaves behind within some bound whatever the
  execution has left behind after some steps. -/
  kept : p.catalogue.Offers Native.KeepsLines → ∀ steps, ∃ bound, (plugin.observed host loader steps).2.Extends
    (p.execute host plugin.maxCallDepth bound owner plugin.context).2

/-! ## Keeping up -/

/-- An execution keeps up with an evaluation: it comes to what the evaluation comes to within any bound, and after no
fewer steps than the bound if the evaluation has not ended. -/
def Program.KeptUp (p : Program) (owner : Member) (plugin : Plugin) (loader : Loader) (host : Host) : Prop :=
  ∀ bound, ∃ steps, plugin.observed host loader steps =
      p.execute host plugin.maxCallDepth bound owner plugin.context ∧
    ((p.execute host plugin.maxCallDepth bound owner plugin.context).1 = .unfinished → bound ≤ steps)

namespace Program.KeptUp

variable {p : Program} {owner : Member} {plugin : Plugin} {loader : Loader} {host : Host}

/-- An execution that has ended has ended as the evaluation does within the bound of its steps. -/
theorem execute_eq (h : p.KeptUp owner plugin loader host) (hfits : ¬ Frame.Overflows plugin.entry) {steps : Nat}
    (hended : (plugin.observed host loader steps).1 ≠ .unfinished) :
    p.execute host plugin.maxCallDepth steps owner plugin.context = plugin.observed host loader steps := by
  obtain ⟨k, hk, hlong⟩ := h steps
  rw [← hk]
  rcases Nat.le_total steps k with hle | hle
  · exact Plugin.observed_of_ended hfits hle hended
  · refine (Plugin.observed_of_ended hfits hle fun hunfinished => hended ?_).symm
    obtain rfl := Nat.le_antisymm hle (hlong (hk ▸ hunfinished))
    exact hunfinished

/-- However far the execution has come, it comes to something later that the evaluation comes to as well. -/
theorem exists_later (h : p.KeptUp owner plugin loader host) (hfits : ¬ Frame.Overflows plugin.entry) (steps : Nat) :
    ∃ later bound, steps ≤ later ∧ plugin.observed host loader later =
      p.execute host plugin.maxCallDepth bound owner plugin.context := by
  by_cases hsteps : (plugin.observed host loader steps).1 = .unfinished
  · obtain ⟨k, hk, hlong⟩ := h steps
    refine ⟨k, steps, ?_, hk⟩
    rcases Nat.le_total steps k with hle | hle
    · exact hle
    · -- What has not ended later had not ended before either.
      by_cases hunfinished : (plugin.observed host loader k).1 = .unfinished
      · exact hlong (hk ▸ hunfinished)
      · rw [Plugin.observed_of_ended hfits hle hunfinished] at hsteps
        exact absurd hsteps hunfinished
  · exact ⟨steps, steps, le_rfl, (h.execute_eq hfits hsteps).symm⟩

/-- An execution that keeps up with an evaluation comes to what the evaluation comes to. -/
theorem describes (h : p.KeptUp owner plugin loader host) (hfits : ¬ Frame.Overflows plugin.entry)
    (hcalls : p.catalogue.Offers Native.KeepsLines → (plugin.machine loader).Calls Native.KeepsLines) :
    p.Describes owner plugin loader host := by
  refine ⟨fun o ho => ⟨?_, ?_⟩, ⟨fun hall bound => ?_, fun hall steps => ?_⟩, fun bound => ?_, h.exists_later hfits,
    fun hkeeps steps => ?_⟩
  · rintro ⟨steps, rfl⟩
    exact ⟨steps, h.execute_eq hfits ho⟩
  · rintro ⟨bound, rfl⟩
    obtain ⟨steps, hsteps, _⟩ := h bound
    exact ⟨steps, hsteps⟩
  · obtain ⟨steps, hsteps, _⟩ := h bound
    rw [← hsteps]
    exact hall steps
  · by_contra hsteps
    have hsame := h.execute_eq hfits hsteps
    rw [← hsame] at hsteps
    exact hsteps (hall steps)
  · obtain ⟨steps, hsteps, _⟩ := h bound
    exact ⟨steps, congrArg Prod.snd hsteps⟩
  · obtain ⟨later, bound, hle, hsame⟩ := h.exists_later hfits steps
    exact ⟨bound, hsame ▸ Plugin.extends_observed hfits (hcalls hkeeps) hle⟩

end Program.KeptUp

/-! ## Following the entry operation -/

/-- Executing a unit evaluates its entry operation and drops the value. -/
theorem Program.execute_of_entry {p : Program} {owner : Member} {decl : FunctionDecl}
    (hdecl : owner.parsed.function? ContractType.entryOperation = some decl) (host : Host) (maxCallDepth bound : Nat)
    (c : PluginContext) : p.execute host maxCallDepth bound owner c =
      match p.enter host maxCallDepth bound 1 owner decl [] c with
      | (.done _, c) => (.done (), c)
      | (.failed failure, c) => (.failed failure, c)
      | (.unfinished, c) => (.unfinished, c) := by
  rw [execute, hdecl]
  dsimp only
  rw [Evaluation.bind_apply]
  rcases p.enter host maxCallDepth bound 1 owner decl [] c with ⟨_ | _ | _, _⟩ <;> rfl

namespace LoadSource.Implements

variable {s : LoadSource} {p : Program}

/-- The entry operation of a unit can be executed, and its execution keeps up with its evaluation. -/
theorem keptUp (h : s.Implements p) {owner : Member} (howner : owner ∈ p.members)
    (plugin : Plugin) (hm : s.materialize owner.unit.qualifiedName = .ok plugin.module)
    (hentry : plugin.module.module.function? ContractType.entryOperation = some plugin.entry)
    {loader : Loader} (hsource : loader.source = s) (hfaithful : loader.Faithful) (host : Host) :
    ¬ Frame.Overflows plugin.entry ∧ p.KeptUp owner plugin loader host := by
  obtain ⟨_, contract, hm', hcode⟩ := h.gives owner howner
  obtain rfl := Except.ok.inj (hm'.symm.trans hm)
  obtain ⟨decl, hdecl, hparams⟩ := h.entry owner howner
  obtain ⟨f, hf, hfcode⟩ := hcode.function? hdecl
  obtain rfl : f = plugin.entry := Option.some.inj (hf.symm.trans hentry)
  have hmem := List.mem_of_find?_eq_some hdecl
  have hfits := hfcode.not_overflows ((h.small owner howner).size_le.2 decl hmem)
  refine ⟨hfits, fun bound => ?_⟩
  have hat : (plugin.machine loader).At s
      (Frame.enter plugin.module plugin.entry [] (Counted.empty : Counted Value).size) .empty 0
      (Frame.initialLocals plugin.entry []) .empty := ⟨rfl, rfl, rfl, hsource, hfaithful⟩
  have hargs : ([] : List Value).length = decl.params.length := by
    rw [hparams]
    rfl
  have hfollows : (plugin.machine loader).Follows { host, maxCallDepth := plugin.maxCallDepth } bound
      (p.enter host plugin.maxCallDepth bound 1 owner decl []) _ :=
    h.follows_enter { host, maxCallDepth := plugin.maxCallDepth } bound
      ⟨howner, hm, Array.mem_of_find?_eq_some hentry, hfcode⟩ hargs hat
  have hcontext : (plugin.machine loader).context = plugin.context := rfl
  rw [Program.execute_of_entry hdecl]
  unfold Machine.Follows at hfollows
  rw [hcontext] at hfollows
  split at hfollows
  · next v c henter =>
    -- The entry operation has come to its return, which is the last one.
    obtain ⟨n, m', hrun, rfl, pc, locals, hop, hm'⟩ := hfollows
    have hlast := hm'.step_ret_last { host, maxCallDepth := plugin.maxCallDepth } hop
    have hdone := (Machine.run_add hrun 1).trans ((Machine.run_one m').trans hlast)
    refine ⟨n + 1, ?_, fun hunfinished => ?_⟩
    · rw [Plugin.observed_eq hfits, hdone, henter]
      rfl
    · rw [henter] at hunfinished
      exact absurd hunfinished (by simp)
  · next failure c henter =>
    obtain ⟨n, e, hrun, hresult, rfl⟩ := hfollows
    refine ⟨n, ?_, fun hunfinished => ?_⟩
    · rw [Plugin.observed_eq hfits, hrun, henter, Plugin.seen, hresult]
    · rw [henter] at hunfinished
      exact absurd hunfinished (by simp)
  · next c henter =>
    obtain ⟨n, m', hle, hrun, rfl⟩ := hfollows
    refine ⟨n, ?_, fun _ => hle⟩
    rw [Plugin.observed_eq hfits, hrun, henter, Plugin.seen]

end LoadSource.Implements

/-! ## The whole session -/

namespace Sandbox

variable {b : Sandbox} {correlation : Correlation} {units : List PluginUnit} {s : CompiledSession}

/-- **Correctness.** Let a session with the built-in toolchain have succeeded under a valid configuration.  Every
registered unit is loaded, whatever was loaded before, and a plugin is made of it for every limit on the number
of frames.  Executing that plugin, from whatever it has left behind so far and whatever was loaded before, comes
to what evaluating the entry operation of the unit comes to: to the same outcome with the same lines printed and
logged, or to no end on either side. -/
theorem describes_compiled (hvalid : b.configuration.IsValid)
    (htoolchain : b.toolchain = some Builtin.toolchain) {first : String}
    (hcompile : b.compile correlation units = .ok (first, s)) (hok : s.Succeeded) {u : PluginUnit}
    (hu : u ∈ units) (maxCallDepth : Nat) :
    ∃ m plugin,
      (∀ earlier, ((s.loader.afterLoading earlier).load u.qualifiedName).1 = .ok m) ∧
        Plugin.instantiate m maxCallDepth = .ok plugin ∧ plugin.maxCallDepth = max maxCallDepth 1 ∧
        ∀ (earlier : List String) (context : PluginContext) (host : Host),
          (b.program units).Describes (.ofUnit u) { plugin with context }
            (s.loader.afterLoading earlier) host := by
  obtain ⟨hnodup, _, hcompiled⟩ := compiledBy_of_compile htoolchain hcompile
  have himplements := hcompiled.implements hok hvalid hnodup
  have howner : Member.ofUnit u ∈ (b.program units).members := mem_program.2 ⟨u, hu, rfl⟩
  obtain ⟨m, _, hm, _⟩ := himplements.gives _ howner
  obtain ⟨plugin, hplugin⟩ := himplements.exists_plugin hm maxCallDepth
  obtain ⟨rfl, hentry, _, hdepth, _⟩ := Plugin.instantiate_eq_ok.1 hplugin
  have hfaithful := fun earlier => s.loader.source.afterLoading_faithful earlier
  refine ⟨_, plugin, fun earlier => ?_, hplugin, hdepth, fun earlier context host => ?_⟩
  · have hload := Loader.load_fst (hfaithful earlier).2 u.qualifiedName
    rw [(hfaithful earlier).1] at hload
    exact hload.trans hm
  · obtain ⟨hfits, hkeptUp⟩ := himplements.keptUp howner { plugin with context } hm hentry
      (hfaithful earlier).1 (hfaithful earlier).2 host
    have hcatalogue : s.loader.source.catalogue = (b.program units).catalogue := hcompiled.catalogue
    refine hkeptUp.describes hfits fun hkeeps => ?_
    rw [← hcatalogue] at hkeeps
    exact Machine.calls_start (LoadSource.calls_afterLoading hkeeps earlier) (LoadSource.calls_of_materialize hkeeps hm)
      context plugin.entry

/-- The plugin made of a unit that prints a line does what the unit means. -/
theorem describes_compiled_hello :
    ∃ s m plugin, (ofConfiguration .default .empty).compile default [.hello] =
        .ok (PluginUnit.hello.qualifiedName, s) ∧ s.Succeeded ∧
      ((s.loader.afterLoading []).load PluginUnit.hello.qualifiedName).1 = .ok m ∧
      Plugin.instantiate m 1 = .ok plugin ∧
      ((ofConfiguration .default .empty).program [.hello]).Describes (.ofUnit .hello) plugin
        (s.loader.afterLoading []) .empty := by
  obtain ⟨s, hcompile, hok⟩ := compile_hello
  have hvalid : (ofConfiguration .default .empty).configuration.IsValid := by decide +kernel
  obtain ⟨m, plugin, hload, hplugin, _, hdescribes⟩ :=
    describes_compiled (b := ofConfiguration .default .empty) hvalid rfl hcompile hok List.mem_cons_self 1
  exact ⟨s, m, plugin, hcompile, hok, hload [], hplugin, hdescribes [] plugin.context .empty⟩

end Sandbox
end PluginSandbox
