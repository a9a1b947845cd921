import PluginSandbox.Proofs.Machine.Confinement
import PluginSandbox.Proofs.Native

/-!
# Which platform functions a machine can call

A machine calls what the modules of its frames are linked to, and a module that is loaded on the way is linked to
functions of the catalogue.  So a property that the functions of the catalogue and of the modules at hand have is one of
every function that is ever called (`Machine.Calls.step`, `Machine.Calls.of_nativeCall?`).
-/

namespace PluginSandbox

variable {P : Native → Prop}

/-- All functions that a module is linked to have a property. -/
def LoadedModule.Calls (P : Native → Prop) (m : LoadedModule) : Prop :=
  ∀ location symbol f, m.native? location symbol = some f → P f.implementation

/-- All functions that a module of a loader is or will be linked to have a property. -/
structure Loader.Calls (P : Native → Prop) (l : Loader) : Prop where
  offers : l.source.catalogue.Offers P
  loaded : ∀ name m, l.loaded.lookup name = some m → m.Calls P

/-- All functions that a machine calls have a property. -/
structure Machine.Calls (P : Native → Prop) (m : Machine) : Prop where
  loader : m.loader.Calls P
  frame : m.frame.module.Calls P
  callers : ∀ frame ∈ m.callers.toList, frame.module.Calls P

theorem LoadSource.calls_of_materialize {s : LoadSource} (h : s.catalogue.Offers P) {name : String} {m : LoadedModule}
    (hm : s.materialize name = .ok m) : m.Calls P := by
  intro location symbol f hf
  obtain ⟨_, hlookup, _⟩ := linkable?_eq_some.1 (linkable?_of_native? hm hf)
  exact h f (Catalogue.mem_of_lookup? hlookup).1

namespace Loader

variable {l : Loader}

/-- A faithful loader knows only functions of its catalogue. -/
theorem Faithful.calls (hl : l.Faithful) (h : l.source.catalogue.Offers P) : l.Calls P :=
  ⟨h, fun _ _ hm => LoadSource.calls_of_materialize h (hl _ _ hm)⟩

theorem Calls.of_load (h : l.Calls P) {name : String} {m : LoadedModule} (hm : (l.load name).1 = .ok m) :
    m.Calls P :=
  (of_load_ok hm).elim (h.loaded _ _) (LoadSource.calls_of_materialize h.offers)

theorem Calls.load (h : l.Calls P) (name : String) : (l.load name).2.Calls P := by
  refine ⟨by rw [load_source]; exact h.offers, fun other m hm => ?_⟩
  exact (of_lookup_load hm).elim (h.loaded _ _) (LoadSource.calls_of_materialize h.offers)

end Loader

/-- The loader of a source knows only functions of its catalogue, whatever it has been asked for. -/
theorem LoadSource.calls_afterLoading {s : LoadSource} (h : s.catalogue.Offers P) (names : List String) :
    (s.afterLoading names).Calls P := by
  obtain ⟨hsource, hfaithful⟩ := s.afterLoading_faithful names
  exact hfaithful.calls (by rw [hsource]; exact h)

namespace Machine

variable {setting : MachineSetting} {m m' : Machine}

theorem calls_start {l : Loader} (hl : l.Calls P) {module : LoadedModule} (hmodule : module.Calls P)
    (context : PluginContext) (f : Function) : (start l context module f).Calls P :=
  ⟨hl, hmodule, fun _ h => absurd h (by simp [start])⟩

theorem calls_true (m : Machine) : m.Calls fun _ => True :=
  ⟨⟨fun _ _ => trivial, fun _ _ _ _ _ _ _ => trivial⟩, fun _ _ _ _ => trivial, fun _ _ _ _ _ _ => trivial⟩

theorem Calls.moves {op : Op} (h : m.Calls P) (hm : Moves setting m op m') : m'.Calls P := by
  cases hm with
  | call => exact ⟨h.loader, h.frame, List.forall_mem_cons.2 ⟨h.frame, h.callers⟩⟩
  | callUnit _ hload =>
    exact ⟨h.loader.load _, h.loader.of_load hload, List.forall_mem_cons.2 ⟨h.frame, h.callers⟩⟩
  | ret _ hcallers =>
    have hframes := h.callers
    rw [Counted.pop?_eq_some.1 hcallers] at hframes
    obtain ⟨hframe, hrest⟩ := List.forall_mem_cons.1 hframes
    exact ⟨h.loader, hframe, hrest⟩
  | _ => exact ⟨h.loader, h.frame, h.callers⟩

/-- What a machine can call later on, it can call from where it is. -/
theorem Calls.step (h : m.Calls P) (hm : m.step setting = .next m') : m'.Calls P := by
  obtain ⟨op, _, hmoves⟩ := step_eq_next_iff.1 hm
  have hadvanced : m.advanced.Calls P := ⟨h.loader, h.frame, h.callers⟩
  exact hadvanced.moves hmoves

theorem Calls.run {n : Nat} (h : m.Calls P) (hm : m.run setting n = .next m') : m'.Calls P :=
  run_invariant (fun _ _ => Calls.step) n h hm

theorem Calls.of_nativeCall? {c : NativeCall} (h : m.Calls P) (hc : m.nativeCall? = some c) :
    P c.function.implementation := by
  obtain ⟨_, _, _, hf⟩ := nativeCall?_eq_some.1 hc
  exact h.frame _ _ _ hf

/-- A confined machine calls functions of its catalogue only. -/
theorem Confined.calls {s : LoadSource} (h : m.Confined s) (hoffers : s.catalogue.Offers P) : m.Calls P := by
  have hgives : ∀ frame : Frame, frame.Of s → frame.module.Calls P := by
    rintro frame ⟨⟨name, hname⟩, _⟩
    exact LoadSource.calls_of_materialize hoffers hname
  exact ⟨h.faithful.calls (h.source ▸ hoffers), hgives _ h.frame, fun frame hframe => hgives _ (h.callers frame hframe)⟩

end Machine
end PluginSandbox
