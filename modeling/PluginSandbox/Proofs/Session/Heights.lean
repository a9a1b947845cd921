import PluginSandbox.Proofs.Compiler.Heights
import PluginSandbox.Proofs.Machine.Ending
import PluginSandbox.Proofs.Session.Agreement

/-!
# Heights in the modules of a session

In a session that succeeded, every module was compiled from a unit, so its code is balanced, with the heights that
can be read off the text of the unit (`Sandbox.balanced_of_artifact`).  Whatever a plugin of such a session runs is
then balanced, and no frame ever has more on the stack than its code says (`Sandbox.heights_compiled`).

Nothing is asked of the configuration here: it does not matter which names are visible, nor whether a module can be
linked in the end.
-/

namespace PluginSandbox
namespace Sandbox

variable {b : Sandbox} {correlation : Correlation} {units : List PluginUnit} {s : CompiledSession}

/-- A function is balanced with the heights of its declaration, and stands without operands between its statements. -/
def BalancedBy (decl : FunctionDecl) (f : Function) : Prop :=
  f.Balanced decl.heightAt ∧ ∀ pc ∈ decl.boundaries, pc < f.code.size ∧ decl.heightAt pc = 0

/-- Every artifact of a session that succeeded holds a module with balanced functions, one for each declaration of a
unit. -/
theorem CompiledBy.balanced_of_artifact (h : b.CompiledBy correlation units s) (hok : s.Succeeded)
    (hnodup : (units.map PluginUnit.qualifiedName).Nodup) {name : String} {a : Artifact}
    (ha : s.loader.source.artifacts.get? name = some a) :
    ∃ u ∈ units, u.qualifiedName = name ∧ ∃ m : Module, a.bytes = m.encode ∧ m.Fits ∧
      List.Forall₂ BalancedBy (ParsedUnit.ofSource u.source).1.functions m.functions.toList := by
  obtain ⟨v, hv, rfl⟩ := h.mem_of_artifact hok hnodup ha
  obtain ⟨⟨u, m⟩, hmem, hunit, ⟨contract, _, hcode⟩, _⟩ :=
    exists_of_mem_left (h.passed hok hnodup) (mem_program.2 ⟨v, hv, rfl⟩)
  obtain rfl : u = v := hunit
  obtain ⟨a', ha', hbytes⟩ := h.exists_artifact hok hnodup hmem
  obtain rfl := Option.some.inj (ha.symm.trans ha')
  exact ⟨u, hv, rfl, m, hbytes, hcode.fits (functionsWithin_ofUnit u),
    hcode.functions.imp fun _ _ hfunction => hfunction.balanced⟩

/-- Whatever the loader of a session that succeeded gives is balanced. -/
theorem CompiledBy.balanced (h : b.CompiledBy correlation units s) (hok : s.Succeeded)
    (hnodup : (units.map PluginUnit.qualifiedName).Nodup) : s.loader.source.Balanced := by
  rintro m ⟨name, hm⟩ f hf
  obtain ⟨a, ha, hdecode, _⟩ := LoadSource.materialize_eq_ok.1 hm
  obtain ⟨u, _, _, module, hbytes, hfits, hfunctions⟩ := h.balanced_of_artifact hok hnodup ha
  rw [hbytes, Module.decode?_encode hfits] at hdecode
  obtain rfl := Option.some.inj hdecode
  obtain ⟨decl, _, hbalanced, _⟩ := exists_of_mem_right hfunctions (Array.mem_toList_iff.2 hf)
  exact ⟨_, hbalanced⟩

/-- **Heights.** Let a session with the built-in toolchain have succeeded.

* Every artifact holds a module that was compiled from a unit.  The code of each function is balanced: every place that
  the control flow comes to has one height, and there is nothing on the stack at the start of the function, at the start
  of a loop and between two statements.
* Whatever was loaded before and between, and however far a plugin has run: the frames share out the whole stack,
  each has no more of it than the greatest height of its code, and a run never ends for want of operands. -/
theorem heights_compiled (htoolchain : b.toolchain = some Builtin.toolchain) {first : String}
    (hcompile : b.compile correlation units = .ok (first, s)) (hok : s.Succeeded) :
    (∀ name a, s.loader.source.artifacts.get? name = some a →
      ∃ u ∈ units, u.qualifiedName = name ∧ ∃ m : Module, a.bytes = m.encode ∧
        List.Forall₂ BalancedBy (ParsedUnit.ofSource u.source).1.functions m.functions.toList) ∧
      ∀ (earlier later : List String) (unit : String) (maxCallDepth : Nat) (context : PluginContext) (host : Host)
        (limit : Limit) (module : LoadedModule) (plugin : Plugin),
        ((s.loader.afterLoading earlier).load unit).1 = .ok module →
        Plugin.instantiate module maxCallDepth = .ok plugin →
        let setting : MachineSetting := { host, maxCallDepth := plugin.maxCallDepth }
        let start := Machine.start (s.loader.afterLoading (earlier ++ unit :: later)) context plugin.module plugin.entry
        (∀ m : Machine, start.runWithin setting limit = .next m →
          m.shares.map Prod.fst = m.frame :: m.callers.toList ∧ Frame.total m.shares = m.stack.size ∧
            ∀ share ∈ m.shares, ∀ height most, share.1.function.Balanced height →
              (∀ pc, share.1.function.Reaches pc → height pc ≤ most) → share.2 ≤ most) ∧
          ∀ e, start.runWithin setting limit = .done e → e.result ≠ .error (.fault .operandUnderflow) := by
  obtain ⟨hnodup, _, hcompiled⟩ := compiledBy_of_compile htoolchain hcompile
  constructor
  · intro name a ha
    obtain ⟨u, hu, hname, m, hbytes, _, hfunctions⟩ := hcompiled.balanced_of_artifact hok hnodup ha
    exact ⟨u, hu, hname, m, hbytes, hfunctions⟩
  intro earlier later unit maxCallDepth context host limit module plugin hload hplugin setting start
  have hbalanced := hcompiled.balanced hok hnodup
  obtain ⟨hsource, hfaithful⟩ := s.loader.source.afterLoading_faithful earlier
  obtain ⟨hsource', hfaithful'⟩ := s.loader.source.afterLoading_faithful (earlier ++ unit :: later)
  have hgives : s.loader.source.Gives module := by
    have hfst := Loader.load_fst hfaithful unit
    rw [hsource] at hfst
    exact ⟨unit, hfst.symm.trans hload⟩
  have hstart : start.Level s.loader.source :=
    Machine.level_start hbalanced hsource' hfaithful' hgives hplugin context
  have hreached : ∀ (n : Nat) (m : Machine), start.run setting n = .next m → m.Level s.loader.source :=
    fun n m => Machine.run_invariant (fun _ _ => Machine.Level.step hbalanced) n hstart
  obtain ⟨n, hn⟩ := Machine.exists_run_of_runWithin setting limit start
  rw [hn]
  refine ⟨fun m hrun => (hreached n m hrun).shares, fun e hrun => ?_⟩
  obtain ⟨k, last, hlast, hend⟩ := Machine.exists_of_run_eq_done n hrun
  exact (hreached k last hlast).no_underflow hend

/-- A unit that prints a line: its module is balanced, and no run of it ends for want of operands. -/
theorem heights_compiled_hello :
    ∃ (s : CompiledSession) (a : Artifact) (m : Module) (module : LoadedModule) (plugin : Plugin),
      (ofConfiguration .default .empty).compile default [.hello] = .ok (PluginUnit.hello.qualifiedName, s) ∧
        s.loader.source.artifacts.get? PluginUnit.hello.qualifiedName = some a ∧ a.bytes = m.encode ∧
        List.Forall₂ BalancedBy (ParsedUnit.ofSource PluginUnit.hello.source).1.functions m.functions.toList ∧
        ((s.loader.afterLoading []).load PluginUnit.hello.qualifiedName).1 = .ok module ∧
        Plugin.instantiate module 1 = .ok plugin ∧
        ∀ (steps : Nat) (e : MachineEnd),
          (Machine.start (s.loader.afterLoading [PluginUnit.hello.qualifiedName]) plugin.context plugin.module
            plugin.entry).runWithin { host := .empty, maxCallDepth := plugin.maxCallDepth } (.steps steps) = .done e →
          e.result ≠ .error (.fault .operandUnderflow) := by
  obtain ⟨s, hcompile, hok⟩ := compile_hello
  obtain ⟨hnodup, _, hcompiled⟩ := compiledBy_of_compile (b := ofConfiguration .default .empty) rfl hcompile
  have himplements := hcompiled.implements hok (by decide +kernel) hnodup
  obtain ⟨module, _, hmodule, _⟩ := himplements.gives _ (mem_program.2 ⟨.hello, List.mem_cons_self, rfl⟩)
  obtain ⟨plugin, hplugin⟩ := himplements.exists_plugin hmodule 1
  obtain ⟨a, ha, _⟩ := LoadSource.materialize_eq_ok.1 hmodule
  have hload : ((s.loader.afterLoading []).load PluginUnit.hello.qualifiedName).1 = .ok module := by
    have hfst := Loader.load_fst (s.loader.source.afterLoading_faithful []).2 PluginUnit.hello.qualifiedName
    exact hfst.trans hmodule
  obtain ⟨hartifacts, hruns⟩ := heights_compiled (b := ofConfiguration .default .empty) rfl hcompile hok
  obtain ⟨u, hu, _, m, hbytes, hfunctions⟩ := hartifacts _ a ha
  obtain rfl := List.mem_singleton.1 hu
  have hends := fun steps => (hruns [] [] _ 1 plugin.context .empty (.steps steps) _ _ hload hplugin).2
  exact ⟨s, a, m, module, plugin, hcompile, ha, hbytes, hfunctions, hload, hplugin, hends⟩

end Sandbox
end PluginSandbox
