import PluginSandbox.Proofs.Machine.Calls
import PluginSandbox.Proofs.Machine.Follow

/-!
# What is left behind only grows

A plugin can print and log further lines, but it cannot take one back unless a function of the platform does so: what a
machine has left behind after some steps extends what it had left behind before (`Machine.extends_run`).
-/

namespace PluginSandbox

/-- Further lines may have been printed and logged. -/
structure PluginContext.Extends (c c' : PluginContext) : Prop where
  plugin : c'.plugin = c.plugin
  output : c.output.toList <+: c'.output.toList
  log : c.log.toList <+: c'.log.toList

namespace PluginContext

theorem Extends.refl (c : PluginContext) : c.Extends c :=
  ⟨rfl, List.prefix_refl _, List.prefix_refl _⟩

theorem Extends.trans {c c' c'' : PluginContext} (h : c.Extends c') (h' : c'.Extends c'') : c.Extends c'' :=
  ⟨h'.plugin.trans h.plugin, h.output.trans h'.output, h.log.trans h'.log⟩

end PluginContext

/-- A call of a function that takes no line back extends what was left behind: logged lines cannot be taken back at
all. -/
theorem Native.KeepsLines.extends_run {f : Native} (h : f.KeepsLines) (host : Host) (args : List Value)
    (c : PluginContext) : c.Extends (f.run host args c).2 := by
  obtain ⟨hplugin, houtput⟩ := h host args c.toNativeContext
  refine ⟨hplugin, houtput, ?_⟩
  show c.log.toList <+: (c.log ++ (f.reply host args c.toNativeContext).logged).toList
  rw [Array.toList_append]
  exact List.prefix_append _ _

namespace Machine

variable {setting : MachineSetting} {m : Machine}

/-- A step takes no line back if the function that it calls does not. -/
theorem extends_step (h : m.Calls Native.KeepsLines) : m.context.Extends (m.step setting).context := by
  cases hcall : m.nativeCall? with
  | none =>
    rw [(step_of_no_nativeCall hcall setting.host).1]
    exact .refl _
  | some c =>
    have hanswer : (m.step setting).context =
        (c.function.implementation.run setting.host c.args m.context).2 := by
      rw [step_of_nativeCall? hcall, resume]
      dsimp only
      split <;> rfl
    rw [hanswer]
    exact (h.of_nativeCall? hcall).extends_run _ _ _

/-- A run takes no line back if no function that it calls does. -/
theorem extends_run (h : m.Calls Native.KeepsLines) (n : Nat) : m.context.Extends (m.run setting n).context := by
  induction n generalizing m with
  | zero => exact .refl _
  | succ n ih =>
    have hstep : m.context.Extends (m.step setting).context := extends_step h
    rw [run_succ]
    cases hs : m.step setting with
    | next m' =>
      rw [hs] at hstep
      exact hstep.trans (ih (h.step hs))
    | done e =>
      rw [hs] at hstep
      exact hstep

/-- A longer run has left behind what a shorter one has, and maybe more. -/
theorem extends_run_of_le (hm : m.Calls Native.KeepsLines) {k n : Nat} (h : k ≤ n) :
    (m.run setting k).context.Extends (m.run setting n).context := by
  cases hk : m.run setting k with
  | next m' =>
    have hrest : m'.context.Extends (m'.run setting (n - k)).context := extends_run (hm.run hk) (n - k)
    rw [← run_add hk, Nat.add_sub_cancel' h] at hrest
    exact hrest
  | done e =>
    rw [run_of_done hk h]
    exact .refl _

end Machine
end PluginSandbox
