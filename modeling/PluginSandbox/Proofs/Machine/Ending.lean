import PluginSandbox.Proofs.Machine.Confinement
import PluginSandbox.Proofs.Machine.Stops

/-!
# How runs end

A run ends in a step of a machine that it has reached (`Machine.exists_of_run_eq_done`).  Such a step returns
from the last frame, or it fails; and what it fails with is a fault, a breakdown, or whatever a function of
the platform has given.  Nothing but a function of the platform says in a run that the entry point of a module cannot be
constructed (`Machine.exists_of_run_eq_instantiation`).

An execution of a plugin is what the run of its machine comes to (`Plugin.execute_of_fits`).
-/

namespace PluginSandbox

namespace Machine

variable {setting : MachineSetting}

/-- A call of a platform function says that the entry point of a module cannot be constructed. -/
def Blames (setting : MachineSetting) (m : Machine) (text : String) : Prop :=
  ∃ c, m.nativeCall? = some c ∧
    (c.function.implementation.reply setting.host c.args m.context.toNativeContext).result =
      .error (.instantiation text)

theorem Refuses.ne_instantiation {depth : Nat} {f : Option Function} {args : List Value}
    {failure : PluginFailure} (h : Refuses setting depth f args failure) (flaw : EntryFlaw) :
    failure ≠ .instantiation flaw := by
  cases h <;> exact nofun

/-- A step that blames an entry point calls a platform function that does so. -/
theorem blames_of_step {m : Machine} {e : MachineEnd} (h : m.step setting = .done e) {flaw : EntryFlaw}
    (hflaw : e.result = .error (.instantiation flaw)) : ∃ text, flaw = .reported text ∧ m.Blames setting text := by
  obtain ⟨_, hresult⟩ | ⟨op, hop, hstops⟩ := stops_of_step h
  · exact absurd (hresult.symm.trans hflaw) (by simp)
  rw [hflaw] at hstops
  cases hstops with
  | callNative hargs hf hrun =>
    obtain ⟨text, hreply, rfl⟩ := Native.instantiation_of_run hrun
    exact ⟨text, rfl, ⟨_, _, _, _, _⟩, nativeCall?_eq_some.2 ⟨_, hop, hargs, hf⟩, hreply⟩
  | call _ hrefuses | callUnit _ _ _ hrefuses => exact absurd rfl (hrefuses.ne_instantiation flaw)

/-- A run that has ended has ended in a step of a machine that it has reached. -/
theorem exists_of_run_eq_done (n : Nat) {m : Machine} {e : MachineEnd} (h : m.run setting n = .done e) :
    ∃ k last, m.run setting k = .next last ∧ last.step setting = .done e := by
  induction n generalizing m with
  | zero => exact absurd h (by simp [run])
  | succ n ih =>
    rw [run_succ] at h
    cases hs : m.step setting with
    | next m' =>
      rw [hs] at h
      obtain ⟨k, last, hreached, hlast⟩ := ih h
      refine ⟨k + 1, last, ?_, hlast⟩
      rw [run_succ, hs]
      exact hreached
    | done e' =>
      rw [hs] at h
      obtain rfl := Step.done.inj h
      exact ⟨0, m, rfl, hs⟩

/-- A run that blames an entry point has reached a call of a platform function that does so. -/
theorem exists_of_run_eq_instantiation {n : Nat} {m : Machine} {e : MachineEnd} (h : m.run setting n = .done e)
    {flaw : EntryFlaw} (hflaw : e.result = .error (.instantiation flaw)) :
    ∃ k last text, m.run setting k = .next last ∧ flaw = .reported text ∧ last.Blames setting text := by
  obtain ⟨k, last, hreached, hlast⟩ := exists_of_run_eq_done n h
  obtain ⟨text, htext, hblames⟩ := blames_of_step hlast hflaw
  exact ⟨k, last, text, hreached, htext, hblames⟩

end Machine

/-! ## Executions -/

namespace Plugin

/-- What an execution of a plugin is when its run has come to an outcome. -/
def behind (p : Plugin) : Step → Execution
  | .next m => { result := none, plugin := { p with context := m.context }, loader := m.loader }
  | .done e =>
    { result := some (e.result.map fun _ => ()), plugin := { p with context := e.context }, loader := e.loader }

theorem context_behind (p : Plugin) (s : Step) : (p.behind s).plugin.context = s.context := by
  cases s <;> rfl

theorem loader_behind (p : Plugin) (s : Step) : (p.behind s).loader = s.effects.1 := by
  cases s <;> rfl

theorem behind_eq_some {p : Plugin} {s : Step} {r : Except PluginFailure Unit} :
    (p.behind s).result = some r ↔ ∃ e, s = .done e ∧ e.result.map (fun _ => ()) = r := by
  cases s <;> simp [behind]

theorem behind_eq_error {p : Plugin} {s : Step} {failure : PluginFailure} :
    (p.behind s).result = some (.error failure) ↔ ∃ e, s = .done e ∧ e.result = .error failure := by
  rw [behind_eq_some]
  refine exists_congr fun e => and_congr_right fun _ => ?_
  cases e.result <;> simp [Except.map]

/-- The machine that executes a plugin. -/
def machine (plugin : Plugin) (loader : Loader) : Machine :=
  .start loader plugin.context plugin.module plugin.entry

/-- What stays the same while a plugin is executed. -/
def setting (p : Plugin) (host : Host) : MachineSetting :=
  { host, maxCallDepth := p.maxCallDepth }

/-- A plugin whose entry operation has more slots than memory can hold breaks down at once. -/
theorem execute_of_overflows {p : Plugin} (h : Frame.Overflows p.entry) (host : Host) (loader : Loader)
    (limit : Limit) : p.execute host loader limit = ⟨some (.error (.crashed .capacityOverflow)), p, loader⟩ := by
  rw [execute, if_pos h]

/-- Any other execution is what the run of its machine comes to. -/
theorem execute_of_fits {p : Plugin} (h : ¬ Frame.Overflows p.entry) (host : Host) (loader : Loader) (limit : Limit) :
    p.execute host loader limit = p.behind ((p.machine loader).runWithin (p.setting host) limit) := by
  rw [execute, if_neg h, machine, setting]
  dsimp only
  cases (Machine.start loader p.context p.module p.entry).runWithin ⟨host, p.maxCallDepth⟩ limit <;> rfl

/-- An execution that has ended is a run that has ended. -/
theorem exists_run_of_execute {p : Plugin} (h : ¬ Frame.Overflows p.entry) {host : Host} {loader : Loader}
    {limit : Limit} {r : Except PluginFailure Unit} (hr : (p.execute host loader limit).result = some r) :
    ∃ n e, (p.machine loader).run (p.setting host) n = .done e ∧ e.result.map (fun _ => ()) = r ∧
      (p.execute host loader limit).plugin = { p with context := e.context } := by
  obtain ⟨n, hn⟩ := Machine.exists_run_of_runWithin (p.setting host) limit (p.machine loader)
  rw [execute_of_fits h, hn] at hr ⊢
  obtain ⟨e, he, hresult⟩ := behind_eq_some.1 hr
  refine ⟨n, e, he, hresult, ?_⟩
  rw [he]
  rfl

end Plugin
end PluginSandbox
