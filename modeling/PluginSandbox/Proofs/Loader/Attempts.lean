import Mathlib.Data.List.Forall2
import Mathlib.Data.List.Induction
import PluginSandbox.Proofs.Audit.Event
import PluginSandbox.Proofs.Loader.Memory

/-!
# The audit events of a loader

What a loader that starts without modules leaves in its trail when it is asked for some names
(`LoadSource.attempts_afterLoading`):

* one event for each module that could be loaded, however often it was asked for, with the digest of its
  artifact;
* one event for each request for a name without an artifact;
* one event for each request for a module with a reference that cannot be linked.

A request for an artifact that is no module leaves no event.
-/

namespace PluginSandbox
namespace LoadSource

variable {s : LoadSource}

/-- The name that keeps a module from being linked, if that is why it cannot be loaded. -/
def unlinked? (s : LoadSource) (name : String) : Option String :=
  match s.materialize name with
  | .error (.linkRejected _ symbol) => some symbol
  | _ => none

/-- How an attempt to load a name ends, and what event it leaves: the artifact is loaded, there is none, it is no module
or not the right one, or it has a reference that cannot be linked. -/
inductive Attempt (s : LoadSource) (now : Timestamp) (name : String) : Prop where
  | loaded (a : Artifact) (m : LoadedModule) : s.artifacts.get? name = some a → s.materialize name = .ok m →
      s.event? now name (s.materialize name) = some (.materialized now s.correlation name a.digest) →
      Attempt s now name
  | missing : s.artifacts.get? name = none → s.materialize name = .error (.notInSession name) →
      s.event? now name (s.materialize name) = some (.loadRejected now s.correlation name) → Attempt s now name
  | malformed (a : Artifact) (cause : Malformation) : s.artifacts.get? name = some a →
      s.materialize name = .error (.malformedArtifact name cause) →
      s.event? now name (s.materialize name) = none → Attempt s now name
  | unlinked (a : Artifact) (symbol : String) : s.artifacts.get? name = some a →
      s.materialize name = .error (.linkRejected name symbol) →
      s.event? now name (s.materialize name) = some (.linkRejected now s.correlation name symbol) →
      Attempt s now name

theorem attempt (s : LoadSource) (now : Timestamp) (name : String) : s.Attempt now name := by
  cases ha : s.artifacts.get? name with
  | none =>
    have hm : s.materialize name = .error (.notInSession name) := by rw [materialize, ha]
    exact .missing ha hm (by rw [hm]; rfl)
  | some a =>
    cases hdecode : Module.decode? a.bytes with
    | none =>
      have hm : s.materialize name =
          .error (.malformedArtifact name (.undecodable (Module.complaint a.bytes))) := by
        simp only [materialize, ha, hdecode]
      exact .malformed a _ ha hm (by rw [hm]; rfl)
    | some module =>
      cases hflaw : s.flaw? name module with
      | some cause =>
        have hm : s.materialize name = .error (.malformedArtifact name cause) := by
          simp only [materialize, ha, hdecode, hflaw]
        exact .malformed a _ ha hm (by rw [hm]; rfl)
      | none =>
        cases hlink : s.link module.nativeImports with
        | ok links =>
          have hm := materialize_of_decode? ha hdecode hflaw hlink
          exact .loaded a _ ha hm (by rw [hm]; rfl)
        | error symbol =>
          have hname : module.name = name := by
            by_contra hne
            rw [flaw?] at hflaw
            split at hflaw
            · exact absurd hflaw (by simp)
            · exact absurd hflaw (by simp)
          have hm : s.materialize name = .error (.linkRejected name symbol) := by
            simp only [materialize, ha, hdecode, hflaw, hlink, hname]
          exact .unlinked a symbol ha hm (by rw [hm]; rfl)

/-- What attempts to load some names leave in a trail, and which artifacts they load. -/
structure Attempts (s : LoadSource) (names : List String) (loaded : List (String × Artifact))
    (events : List AuditEvent) : Prop where
  /-- No name is loaded twice. -/
  nodup : (loaded.map Prod.fst).Nodup
  /-- What is loaded are the artifacts of the session. -/
  artifacts : ∀ p ∈ loaded, s.artifacts.get? p.1 = some p.2
  /-- Every name that can be loaded is. -/
  complete : ∀ name, name ∈ loaded.map Prod.fst ↔ name ∈ names ∧ ∃ m, s.materialize name = .ok m
  /-- Each module that is loaded leaves one event with the digest of its artifact. -/
  materialized : List.Forall₂
    (fun p e => e.Names s.correlation .artifactMaterialized p.1 s!"Materialized {p.1} (sha256 {p.2.digest})")
    loaded (events.filter fun e => e.kind = .artifactMaterialized)
  /-- Each request for a name without an artifact leaves an event. -/
  missing : List.Forall₂
    (fun name e => e.Names s.correlation .loadRejected name s!"{name} is not in this session's artifact set")
    (names.filter fun name => (s.artifacts.get? name).isNone) (events.filter fun e => e.kind = .loadRejected)
  /-- Each request for a module that cannot be linked leaves an event. -/
  unlinked : List.Forall₂
    (fun p e => e.Names s.correlation .linkRejected p.2 s!"{p.1} links forbidden symbol {p.2}")
    (names.filterMap fun name => (s.unlinked? name).map (name, ·)) (events.filter fun e => e.kind = .linkRejected)
  /-- There are no other events, and none of another session. -/
  only : ∀ e ∈ events, e.correlation = some s.correlation ∧
    (e.kind = .artifactMaterialized ∨ e.kind = .loadRejected ∨ e.kind = .linkRejected)

variable {names : List String} {loaded : List (String × Artifact)} {events : List AuditEvent} {name : String}

theorem attempts_nil (s : LoadSource) : s.Attempts [] [] [] where
  nodup := List.nodup_nil
  artifacts := by simp
  complete := by simp
  materialized := .nil
  missing := .nil
  unlinked := .nil
  only := by simp

/-- Loading a name again leaves nothing. -/
theorem Attempts.again (h : s.Attempts names loaded events) (hname : name ∈ loaded.map Prod.fst) :
    s.Attempts (names ++ [name]) loaded events := by
  obtain ⟨hmem, m, hm⟩ := (h.complete name).1 hname
  obtain ⟨a, ha, _⟩ := materialize_eq_ok.1 hm
  have hmissing : (names ++ [name]).filter (fun name => (s.artifacts.get? name).isNone) =
      names.filter fun name => (s.artifacts.get? name).isNone := by
    simp [List.filter_append, ha]
  have hunlinked : (names ++ [name]).filterMap (fun name => (s.unlinked? name).map (name, ·)) =
      names.filterMap fun name => (s.unlinked? name).map (name, ·) := by
    simp [List.filterMap_append, unlinked?, hm]
  refine ⟨h.nodup, h.artifacts, ?_, h.materialized, hmissing ▸ h.missing, hunlinked ▸ h.unlinked, h.only⟩
  intro other
  rw [h.complete, List.mem_append, List.mem_singleton]
  refine and_congr_left fun _ => ⟨.inl, ?_⟩
  rintro (hother | rfl)
  · exact hother
  · exact hmem

/-- Asking for a name that cannot be loaded leaves its event, if it has one. -/
theorem Attempts.refused (h : s.Attempts names loaded events) {error : SandboxError}
    (hm : s.materialize name = .error error) {more : List AuditEvent}
    (hmissing : List.Forall₂
      (fun name e => e.Names s.correlation .loadRejected name s!"{name} is not in this session's artifact set")
      ([name].filter fun name => (s.artifacts.get? name).isNone) (more.filter fun e => e.kind = .loadRejected))
    (hunlinked : List.Forall₂
      (fun p e => e.Names s.correlation .linkRejected p.2 s!"{p.1} links forbidden symbol {p.2}")
      ([name].filterMap fun name => (s.unlinked? name).map (name, ·)) (more.filter fun e => e.kind = .linkRejected))
    (honly : ∀ e ∈ more, e.correlation = some s.correlation ∧ (e.kind = .loadRejected ∨ e.kind = .linkRejected)) :
    s.Attempts (names ++ [name]) loaded (events ++ more) := by
  have hnone : more.filter (fun e => e.kind = .artifactMaterialized) = [] := by
    refine List.filter_eq_nil_iff.2 fun e he => ?_
    rcases (honly e he).2 with hkind | hkind <;> rw [hkind] <;> decide
  refine ⟨h.nodup, h.artifacts, ?_, ?_, ?_, ?_, ?_⟩
  · intro other
    rw [h.complete, List.mem_append, List.mem_singleton]
    refine and_congr_left ?_
    rintro ⟨m, hother⟩
    refine ⟨.inl, ?_⟩
    rintro (hmem | rfl)
    · exact hmem
    · rw [hm] at hother
      exact absurd hother (by simp)
  · rw [List.filter_append, hnone, List.append_nil]
    exact h.materialized
  · rw [List.filter_append, List.filter_append]
    exact List.rel_append h.missing hmissing
  · rw [List.filter_append, List.filterMap_append]
    exact List.rel_append h.unlinked hunlinked
  · intro e he
    rcases List.mem_append.1 he with he | he
    · exact h.only e he
    · exact ⟨(honly e he).1, .inr (honly e he).2⟩

/-- Loading a name for the first time leaves its event. -/
theorem Attempts.fresh (h : s.Attempts names loaded events) (hname : name ∉ loaded.map Prod.fst)
    {a : Artifact} {m : LoadedModule} (ha : s.artifacts.get? name = some a) (hm : s.materialize name = .ok m)
    (now : Timestamp) :
    s.Attempts (names ++ [name]) (loaded ++ [(name, a)])
      (events ++ [.materialized now s.correlation name a.digest]) := by
  have hnames : (loaded ++ [(name, a)]).map Prod.fst = loaded.map Prod.fst ++ [name] := by
    rw [List.map_append, List.map_singleton]
  have htells := AuditEvent.names_materialized now s.correlation name a.digest
  refine ⟨?_, ?_, ?_, ?_, ?_, ?_, ?_⟩
  · rw [hnames]
    refine List.nodup_append.2 ⟨h.nodup, by simp, ?_⟩
    rintro other hother _ hlast rfl
    obtain rfl := List.mem_singleton.1 hlast
    exact hname hother
  · intro p hp
    rcases List.mem_append.1 hp with hp | hp
    · exact h.artifacts p hp
    · obtain rfl := List.mem_singleton.1 hp
      exact ha
  · intro other
    rw [hnames, List.mem_append, h.complete, List.mem_append, List.mem_singleton]
    constructor
    · rintro (⟨hother, hloads⟩ | rfl)
      · exact ⟨.inl hother, hloads⟩
      · exact ⟨.inr rfl, m, hm⟩
    · rintro ⟨hother | rfl, hloads⟩
      · exact .inl ⟨hother, hloads⟩
      · exact .inr rfl
  · rw [List.filter_append]
    exact List.rel_append h.materialized (.cons htells .nil)
  · rw [List.filter_append, List.filter_append]
    simpa [ha, htells.kind] using h.missing
  · rw [List.filter_append, List.filterMap_append]
    simpa [unlinked?, hm, htells.kind] using h.unlinked
  · exact List.forall_mem_append.2 ⟨h.only, List.forall_mem_singleton.2 ⟨htells.correlation, .inl htells.kind⟩⟩

/-- The event of an attempt is stamped with the moment of it. -/
theorem timestamp_event? {now : Timestamp} {result : Except SandboxError LoadedModule} {e : AuditEvent}
    (h : s.event? now name result = some e) : e.timestamp = now := by
  cases result with
  | ok m =>
    obtain rfl := Option.some.inj h
    rfl
  | error cause =>
    cases cause with
    | notInSession _ | linkRejected _ _ =>
      obtain rfl := Option.some.inj h
      rfl
    | _ => exact absurd h (by simp [event?])

end LoadSource

namespace Loader

/-- A loader has been asked for some names, and its trail and its memory are what these attempts leave. -/
structure Asked (l : Loader) (s : LoadSource) (names : List String) (loaded : List (String × Artifact)) :
    Prop where
  source : l.source = s
  faithful : l.Faithful
  attempts : s.Attempts names loaded l.trail.toList
  stamped : AuditEvent.Stamped s.clock l.trail.toList
  remembers : ∀ name, (l.loaded.lookup name).isSome = true ↔ name ∈ loaded.map Prod.fst

variable {l : Loader} {s : LoadSource} {names : List String} {loaded : List (String × Artifact)} {name : String}

/-- What an attempt to load a name for the first time leaves in the trail. -/
theorem load_trail (h : l.loaded.lookup name = none) :
    (l.load name).2.trail.toList =
      l.trail.toList ++ (l.source.event? l.now name (l.source.materialize name)).toList := by
  rw [load, h]
  cases hresult : l.source.materialize name with
  | ok m => simp [LoadSource.event?]
  | error e =>
    dsimp only
    cases l.source.event? l.now name (.error e) <;> simp

/-- What a loader leaves is stamped with the readings of its clock, in order. -/
theorem stamped_load (h : AuditEvent.Stamped l.source.clock l.trail.toList) (name : String) :
    AuditEvent.Stamped l.source.clock (l.load name).2.trail.toList := by
  cases hlookup : l.loaded.lookup name with
  | some m =>
    rw [load, hlookup]
    exact h
  | none =>
    rw [load_trail hlookup]
    cases hevent : l.source.event? l.now name (l.source.materialize name) with
    | none => rwa [Option.toList_none, List.append_nil]
    | some e => exact h.concat (LoadSource.timestamp_event? hevent)

theorem lookup_load_ok (h : l.loaded.lookup name = none) {m : LoadedModule}
    (hm : l.source.materialize name = .ok m) (other : String) :
    ((l.load name).2.loaded.lookup other).isSome = true ↔
      (l.loaded.lookup other).isSome = true ∨ other = name := by
  simp only [load, h, hm, List.lookup_cons]
  by_cases heq : other = name
  · simp [heq]
  · rw [beq_eq_false_iff_ne.2 heq]
    exact ⟨.inl, fun hother => hother.resolve_right heq⟩

theorem loaded_load_error (h : l.loaded.lookup name = none) {e : SandboxError}
    (hm : l.source.materialize name = .error e) : (l.load name).2.loaded = l.loaded := by
  simp only [load, h, hm]

/-- What a loader leaves that is asked for a name it cannot load. -/
theorem Asked.load_error (h : l.Asked s names loaded) (hnone : l.loaded.lookup name = none) {e : SandboxError}
    (hm : s.materialize name = .error e)
    (hattempts : s.Attempts (names ++ [name]) loaded
      (l.trail.toList ++ (s.event? l.now name (s.materialize name)).toList)) :
    (l.load name).2.Asked s (names ++ [name]) loaded := by
  obtain ⟨rfl, hfaithful, _, hstamped, hremembers⟩ := h
  refine ⟨load_source l name, hfaithful.load name, ?_, stamped_load hstamped name, ?_⟩
  · rw [load_trail hnone]
    exact hattempts
  · rw [loaded_load_error hnone hm]
    exact hremembers

/-- What a loader leaves that is asked for one more name. -/
theorem Asked.load (h : l.Asked s names loaded) (name : String) :
    ∃ loaded', (l.load name).2.Asked s (names ++ [name]) loaded' := by
  by_cases hname : name ∈ loaded.map Prod.fst
  · obtain ⟨m, hm⟩ := Option.isSome_iff_exists.1 ((h.remembers name).2 hname)
    have hload : (l.load name).2 = l := by rw [Loader.load, hm]
    rw [hload]
    exact ⟨loaded, h.source, h.faithful, h.attempts.again hname, h.stamped, h.remembers⟩
  have hnone : l.loaded.lookup name = none :=
    Option.not_isSome_iff_eq_none.1 fun hsome => hname ((h.remembers name).1 hsome)
  have hattempts := h.attempts
  rcases s.attempt l.now name with ⟨a, m, ha, hm, hevent⟩ | ⟨ha, hm, hevent⟩ | ⟨a, cause, ha, hm, hevent⟩ |
    ⟨a, symbol, ha, hm, hevent⟩
  · obtain ⟨rfl, hfaithful, _, hstamped, hremembers⟩ := h
    refine ⟨loaded ++ [(name, a)], load_source l name, hfaithful.load name, ?_, stamped_load hstamped name,
      fun other => ?_⟩
    · rw [load_trail hnone, hevent]
      exact hattempts.fresh hname ha hm l.now
    · rw [lookup_load_ok hnone hm, hremembers, List.map_append, List.mem_append, List.map_singleton,
        List.mem_singleton]
  · have hnames := AuditEvent.names_loadRejected l.now s.correlation name
    refine ⟨loaded, h.load_error hnone hm ?_⟩
    rw [hevent]
    refine hattempts.refused hm ?_ ?_ (List.forall_mem_singleton.2 ⟨hnames.correlation, .inl hnames.kind⟩)
    · simpa [ha, hnames.kind] using hnames
    · simp [LoadSource.unlinked?, hm, hnames.kind]
  · refine ⟨loaded, h.load_error hnone hm ?_⟩
    rw [hevent]
    refine hattempts.refused hm ?_ ?_ (by simp)
    · simp [ha]
    · simp [LoadSource.unlinked?, hm]
  · have hnames := AuditEvent.names_linkRejected l.now s.correlation name symbol
    refine ⟨loaded, h.load_error hnone hm ?_⟩
    rw [hevent]
    refine hattempts.refused hm ?_ ?_ (List.forall_mem_singleton.2 ⟨hnames.correlation, .inr hnames.kind⟩)
    · simp [ha, hnames.kind]
    · simpa [LoadSource.unlinked?, hm, hnames.kind] using hnames

end Loader

/-- What a loader that starts without modules leaves in its trail when it is asked for some names. -/
theorem LoadSource.attempts_afterLoading (s : LoadSource) (names : List String) :
    (∃ loaded, s.Attempts names loaded (s.afterLoading names).trail.toList) ∧
      AuditEvent.Stamped s.clock (s.afterLoading names).trail.toList := by
  have hasked : ∃ loaded, (s.afterLoading names).Asked s names loaded := by
    induction names using List.reverseRecOn with
    | nil =>
      refine ⟨[], rfl, Loader.faithful_fresh s, attempts_nil s, AuditEvent.stamped_nil s.clock, ?_⟩
      simp [afterLoading, Loader.afterLoading]
    | append_singleton names name ih =>
      obtain ⟨loaded, hloaded⟩ := ih
      have hnext : s.afterLoading (names ++ [name]) = ((s.afterLoading names).load name).2 := by
        rw [afterLoading, Loader.afterLoading, List.foldl_append]
        rfl
      rw [hnext]
      exact hloaded.load name
  obtain ⟨loaded, hloaded⟩ := hasked
  exact ⟨⟨loaded, hloaded.attempts⟩, hloaded.stamped⟩

end PluginSandbox
