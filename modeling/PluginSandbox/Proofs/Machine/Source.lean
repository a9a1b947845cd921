import PluginSandbox.Proofs.Machine.Ending
import PluginSandbox.Proofs.Machine.Likeness

/-!
# Runs on another source

A machine learns of the source it loads from only by loading.  So on a source that gives the same modules it goes
through the same steps, whatever audit events the loaders leave (`Plugin.execute_alike`).
-/

namespace PluginSandbox

/-- Two loaders remember the same modules, and their sources give the same. -/
structure Loader.Alike (l l' : Loader) : Prop where
  materialize : ∀ name, l'.source.materialize name = l.source.materialize name
  loaded : l'.loaded = l.loaded

namespace Loader.Alike

variable {l l' : Loader}

theorem load_fst (h : l.Alike l') (name : String) : (l'.load name).1 = (l.load name).1 := by
  rw [Loader.load, Loader.load, h.loaded, h.materialize]
  cases l.loaded.lookup name with
  | some m => rfl
  | none => cases l.source.materialize name <;> rfl

theorem load (h : l.Alike l') (name : String) : (l.load name).2.Alike (l'.load name).2 := by
  refine ⟨by rw [load_source, load_source]; exact h.materialize, ?_⟩
  rw [Loader.load, Loader.load, h.loaded, h.materialize]
  cases l.loaded.lookup name with
  | some m => exact h.loaded
  | none => cases l.source.materialize name <;> rfl

end Loader.Alike

/-- Machines whose loaders are alike, and that have left behind the same. -/
def Loader.likeness : Likeness where
  Loaders := Loader.Alike
  Contexts c c' := c' = c
  Admits _ := True
  answers h := h.load_fst
  load h := h.load
  run := by
    rintro c _ rfl f _ host args
    exact ⟨rfl, rfl⟩

/-- An execution of a plugin is the same with a loader that gives the same modules. -/
theorem Plugin.execute_alike (p : Plugin) (host : Host) {l l' : Loader} (h : l.Alike l') (steps : Nat) :
    (p.execute host l' (.steps steps)).result = (p.execute host l (.steps steps)).result ∧
      (p.execute host l' (.steps steps)).plugin = (p.execute host l (.steps steps)).plugin := by
  by_cases hover : Frame.Overflows p.entry
  · rw [execute_of_overflows hover, execute_of_overflows hover]
    exact ⟨rfl, rfl⟩
  · have hlike : Step.Like Loader.likeness ((p.machine l).run (p.setting host) steps)
        ((p.machine l').run (p.setting host) steps) :=
      Machine.run_like (m := p.machine l) (k := Loader.likeness) h rfl (p.machine l).calls_true steps
    rw [execute_of_fits hover, execute_of_fits hover, Machine.runWithin, Machine.runWithin]
    generalize (p.machine l).run (p.setting host) steps = s at hlike ⊢
    generalize (p.machine l').run (p.setting host) steps = s' at hlike ⊢
    cases hlike with
    | next _ hc =>
      obtain rfl := hc
      exact ⟨rfl, rfl⟩
    | done _ hc =>
      obtain rfl := hc
      exact ⟨rfl, rfl⟩

end PluginSandbox
