import PluginSandbox.Proofs.Loader.Links

/-!
# What a loader remembers

A loader that starts without modules only ever remembers what its source gives (`Loader.Faithful`), whatever
it is asked to load and in whichever order.  So what a faithful loader answers does not depend on its past:
`load_fst` says that it is what the source gives for the name.
-/

namespace PluginSandbox
namespace Loader

/-- Every module that a loader remembers is what its source gives for the name. -/
def Faithful (l : Loader) : Prop :=
  ∀ name m, l.loaded.lookup name = some m → l.source.materialize name = .ok m

/-- The loader behind some attempts to load names. -/
def afterLoading (l : Loader) (names : List String) : Loader :=
  names.foldl (fun l name => (l.load name).2) l

/-- A loader that has loaded nothing is faithful. -/
theorem faithful_fresh (s : LoadSource) : Faithful { source := s } := by
  intro name m h
  simp at h

@[simp] theorem load_source (l : Loader) (name : String) :
    (l.load name).2.source = l.source := by
  rw [load]
  split
  · rfl
  · dsimp only
    split <;> rfl

/-- What a loader answers is remembered, or its source gives it. -/
theorem of_load_ok {l : Loader} {name : String} {m : LoadedModule} (h : (l.load name).1 = .ok m) :
    l.loaded.lookup name = some m ∨ l.source.materialize name = .ok m := by
  rw [load] at h
  split at h
  · next hm =>
    obtain rfl := Except.ok.inj h
    exact .inl hm
  · dsimp only at h
    split at h
    · next hm =>
      obtain rfl := Except.ok.inj h
      exact .inr hm
    · exact absurd h (by simp)

/-- What a loader remembers behind an attempt to load a name was remembered before, or its source gives it. -/
theorem of_lookup_load {l : Loader} {name other : String} {m : LoadedModule}
    (h : (l.load name).2.loaded.lookup other = some m) :
    l.loaded.lookup other = some m ∨ l.source.materialize other = .ok m := by
  rw [load] at h
  split at h
  · exact .inl h
  · dsimp only at h
    split at h
    · next fresh hfresh =>
      rw [List.lookup_cons] at h
      split at h
      · next heq =>
        obtain rfl := Option.some.inj h
        rw [beq_iff_eq.1 heq]
        exact .inr hfresh
      · exact .inl h
    · exact .inl h

/-- A faithful loader answers what its source gives. -/
theorem load_fst {l : Loader} (hl : l.Faithful) (name : String) :
    (l.load name).1 = l.source.materialize name := by
  rw [load]
  split
  · next m hm => exact (hl name m hm).symm
  · dsimp only
    split
    · next m hm => exact hm.symm
    · next e he => exact he.symm

/-- Loading keeps a loader faithful. -/
theorem Faithful.load {l : Loader} (hl : l.Faithful) (name : String) : (l.load name).2.Faithful := by
  intro other m h
  rw [load_source]
  exact (of_lookup_load h).elim (hl other m) id

/-- Any attempts to load names leave a faithful loader of the same source. -/
theorem Faithful.afterLoading {l : Loader} (hl : l.Faithful) (names : List String) :
    (l.afterLoading names).source = l.source ∧ (l.afterLoading names).Faithful := by
  induction names generalizing l with
  | nil => exact ⟨rfl, hl⟩
  | cons name names ih =>
    obtain ⟨hsource, hfaithful⟩ := ih (hl.load name)
    exact ⟨hsource.trans (load_source l name), hfaithful⟩

end Loader

/-- The loader of a source after some attempts to load names. -/
def LoadSource.afterLoading (s : LoadSource) (names : List String) : Loader :=
  Loader.afterLoading { source := s } names

theorem LoadSource.afterLoading_faithful (s : LoadSource) (names : List String) :
    (s.afterLoading names).source = s ∧ (s.afterLoading names).Faithful :=
  (Loader.faithful_fresh s).afterLoading names

/-- What was loaded before makes no difference to what a name is loaded as. -/
theorem LoadSource.load_afterLoading (s : LoadSource) (names : List String) (name : String) :
    ((s.afterLoading names).load name).1 = s.materialize name := by
  obtain ⟨hsource, hfaithful⟩ := s.afterLoading_faithful names
  rw [Loader.load_fst hfaithful, hsource]

end PluginSandbox
