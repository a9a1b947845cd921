import PluginSandbox.Proofs.Loader.Attempts
import PluginSandbox.Proofs.Machine.Ending
import PluginSandbox.Proofs.Resolver.Events
import PluginSandbox.Proofs.Session.Lifecycle

/-!
# The audit trail of a session

The trail of a session tells what happened in it, in order and with nothing left out (`Sandbox.audit_trail`):
its start; while the toolchain was at work, one event for each listing and one for each first binding
(`PendingSession.Traces`); the end of the compilation; while the plugin was running, what its loader did with
each name that it was asked for (`LoadSource.Attempts`); and the end of the execution.

The loader is asked for the entry first and then for each unit that is called (`CompiledSession.loads`).
-/

namespace PluginSandbox

/-! ## What an execution loads -/

/-- The names that an execution of a plugin asks the loader for, in order. -/
def Plugin.loads (p : Plugin) (host : Host) (loader : Loader) (steps : Nat) : List String :=
  if Frame.Overflows p.entry then []
  else
    (Machine.start loader p.context p.module p.entry).loads { host, maxCallDepth := p.maxCallDepth } steps

theorem Plugin.execute_loader (p : Plugin) (host : Host) (loader : Loader) (steps : Nat) :
    (p.execute host loader (.steps steps)).loader = loader.afterLoading (p.loads host loader steps) := by
  by_cases hover : Frame.Overflows p.entry
  · rw [execute_of_overflows hover, loads, if_pos hover]
    rfl
  · rw [execute_of_fits hover, loads, if_neg hover, loader_behind]
    exact Machine.run_loader (p.setting host) steps (p.machine loader)

namespace CompiledSession

/-- The names that the execution of an entry asks the loader for, in order. -/
def loads (s : CompiledSession) (host : Host) (entry : String) (steps : Nat) : List String :=
  entry ::
    match (s.loader.load entry).1 with
    | .error _ => []
    | .ok m =>
      match Plugin.instantiate m s.configuration.maxCallDepth with
      | .error _ => []
      | .ok plugin => plugin.loads host (s.loader.load entry).2 steps

/-- The events of loading are those that a loader leaves which is asked for these names. -/
theorem loading_runEntry (s : CompiledSession) (host : Host) (entry : String) (steps : Nat) :
    (s.runEntry host entry (.steps steps)).loading =
      (s.loader.afterLoading (s.loads host entry steps)).trail := by
  have hfirst : ∀ names, s.loader.afterLoading (entry :: names) = (s.loader.load entry).2.afterLoading names :=
    fun _ => rfl
  rw [runEntry, loads, hfirst]
  simp only [Limit.behind?]
  cases (s.loader.load entry).1 with
  | error cause => rfl
  | ok m =>
    dsimp only
    cases Plugin.instantiate m s.configuration.maxCallDepth with
    | error failure => rfl
    | ok plugin =>
      dsimp only
      rw [Plugin.execute_loader]

end CompiledSession

/-- What is said of an execution when it ends. -/
def FinishedSession.summary (f : FinishedSession) : String :=
  match f.failure with
  | none => s!"{f.output.size} lines of output"
  | some failure => failure.message

/-- The trail of a session whose execution has ended. -/
theorem CompiledSession.trail_finish (s : CompiledSession) (run : EntryRun)
    (result : Except ExecutionFailure Unit) :
    (s.finish run result).trail = (s.trail ++ run.loading.toList) ++
      [.executionEnd (s.clock.reading (s.trail ++ run.loading.toList).length) s.correlation
        (s.finish run result).state (s.finish run result).summary] := by
  cases result <;>
    simp [finish, Session.record, Session.become, Session.state, Session.now, FinishedSession.summary]

/-! ## What a compilation leaves -/

namespace PendingSession

/-- What the resolver of a session leaves in the trail while the toolchain is at work. -/
structure Traces (s : PendingSession) (events : List AuditEvent) : Prop where
  /-- There is one event for each listing and one for each binding of a name that was not bound, in the order
  of the calls. -/
  inOrder : Resolver.Told s.resolver s.operations events
  /-- The events carry the decisions, in order. -/
  decisions : events.filterMap AuditEvent.decision = s.compile.decisions.toList
  /-- No name is bound twice. -/
  nodup : (events.filterMap AuditEvent.bound?).Nodup
  /-- The names that are bound are those of the artifacts. -/
  bound : (events.filterMap AuditEvent.bound?).Perm s.compile.artifacts.names

theorem compile_trail (s : PendingSession) :
    s.compile.trail = (s.trail ++ (s.resolver.after s.operations).trail.toList) ++
      [.compileFinished (s.clock.reading (s.trail ++ (s.resolver.after s.operations).trail.toList).length)
        s.correlation s.compile.state (errorCount s.compile.diagnostics)] := by
  have hresolver : (s.compilation.run s.workspace).2.resolver = s.resolver.after s.operations := by
    rw [Compilation.run_snd]
    rfl
  rw [← hresolver]
  simp only [compile, Session.record, Session.become, Session.state, List.getLast?_append,
    List.getLast?_singleton, Option.some_or, Option.getD_some]
  rfl

end PendingSession

namespace Sandbox

variable {b : Sandbox} {correlation : Correlation} {toolchain : Toolchain} {units : List PluginUnit}
  {s : PendingSession}

theorem traces_pending (b : Sandbox) (correlation : Correlation) (toolchain : Toolchain)
    (units : List PluginUnit) :
    let s := b.pending correlation toolchain units
    s.Traces (s.resolver.eventsOf s.operations) := by
  intro s
  have hbound := Resolver.bound_eventsOf (r := s.resolver) ArtifactStore.open_empty s.operations
  refine ⟨s.resolver.told_eventsOf s.operations, ?_, hbound.1, ?_⟩
  · rw [Resolver.decisions_eventsOf]
    show _ = s.compile.resolver.decisions.toList
    rw [s.compile_resolver, Resolver.sealed, Resolver.decisions_after]
    rfl
  · refine (List.perm_ext_iff_of_nodup hbound.1 (ArtifactStore.nodup_names _)).2 fun name => ?_
    have hnone : s.resolver.artifacts.contains name = false := by
      rw [ArtifactStore.contains_eq, show s.resolver.artifacts.get? name = none from ArtifactStore.get?_empty name]
      rfl
    have hsealed : (s.compile.artifacts.get? name).isSome =
        (s.resolver.after s.operations).artifacts.contains name := by
      show (s.compile.resolver.artifacts.get? name).isSome = _
      rw [s.compile_resolver, Resolver.sealed, ArtifactStore.get?_sealAll, Option.isSome_map,
        ArtifactStore.contains_eq]
    rw [ArtifactStore.mem_names, hsealed, hbound.2.2, hnone]
    simp

/-- The trail of a compiled session is stamped in its order. -/
theorem stamped_compile (b : Sandbox) (correlation : Correlation) (toolchain : Toolchain) (units : List PluginUnit) :
    AuditEvent.Stamped b.clock (b.pending correlation toolchain units).compile.trail := by
  let s := b.pending correlation toolchain units
  have hstart : AuditEvent.Stamped b.clock s.trail := AuditEvent.stamped_singleton rfl
  have hresolver : AuditEvent.Stamped (b.clock.behind s.trail.length) (s.resolver.after s.operations).trail.toList :=
    Resolver.stamped_after (r := s.resolver) (AuditEvent.stamped_nil _) s.operations
  rw [s.compile_trail]
  exact (hstart.append hresolver).concat rfl

/-- **The audit trail of a session.** Whatever the toolchain does with the units that were registered, the trail
of the compiled session is its start, then what its resolver leaves (`PendingSession.Traces`), then the end of the
compilation with the state and the number of errors.  Every execution that ends adds what its loader leaves
(`LoadSource.Attempts`) for the names it was asked for, and last the end of the execution with the state.  All of
these events belong to the session, and they are stamped in their order. -/
theorem audit_trail (h : b.toolchain = some toolchain)
    (hs : (b.start correlation >>= fun session => units.foldlM register session) = .ok s) :
    ∃ start compiling finish, s.compile.trail = start :: (compiling ++ [finish]) ∧
      start.Reaches correlation .sessionStart .pending s!"Session started with toolchain {toolchain.name}" ∧
      s.Traces compiling ∧
      finish.Reaches correlation .compileFinished s.compile.state
        s!"Compilation finished: {s.compile.state.text} ({errorCount s.compile.diagnostics} errors)" ∧
      (∀ e ∈ s.compile.trail, e.correlation = some correlation) ∧ AuditEvent.Stamped b.clock s.compile.trail ∧
      ∀ (hsucceeded : s.compile.Succeeded) (host : Host) (entry : String) (steps : Nat) (f : FinishedSession),
        s.compile.execute hsucceeded host entry steps = some f →
          ∃ loaded loading last, f.trail = s.compile.trail ++ (loading ++ [last]) ∧
            s.compile.loader.source.Attempts (s.compile.loads host entry steps) loaded loading ∧
            last.Reaches correlation .executionEnd f.state f.summary ∧
            (∀ e ∈ f.trail, e.correlation = some correlation) ∧ AuditEvent.Stamped b.clock f.trail := by
  obtain rfl := eq_pending_of_registered h hs
  let s := b.pending correlation toolchain units
  have htraces : s.Traces (s.resolver.eventsOf s.operations) := traces_pending b correlation toolchain units
  have hstart := AuditEvent.reaches_sessionStart (b.clock.reading 0) correlation toolchain.name
  have hstamped : AuditEvent.Stamped b.clock s.compile.trail := stamped_compile b correlation toolchain units
  obtain ⟨now, htrail⟩ : ∃ now, s.compile.trail = .sessionStart (b.clock.reading 0) correlation toolchain.name ::
      (s.resolver.eventsOf s.operations ++
        [.compileFinished now correlation s.compile.state (errorCount s.compile.diagnostics)]) := by
    rw [s.compile_trail, Resolver.trail_after]
    exact ⟨_, rfl⟩
  have hfinish := AuditEvent.reaches_compileFinished now correlation s.compile.state (errorCount s.compile.diagnostics)
  have hcompiled : ∀ e ∈ s.compile.trail, e.correlation = some correlation := by
    rw [htrail]
    exact List.forall_mem_cons.2 ⟨hstart.correlation, List.forall_mem_append.2
      ⟨htraces.inOrder.correlation, List.forall_mem_singleton.2 hfinish.correlation⟩⟩
  refine ⟨_, _, _, htrail, hstart, htraces, hfinish, hcompiled, hstamped, ?_⟩
  intro hsucceeded host entry steps f hf
  obtain ⟨result, _, rfl⟩ := Option.map_eq_some_iff.1 hf
  obtain ⟨⟨loaded, hattempts⟩, hloading⟩ :=
    s.compile.loader.source.attempts_afterLoading (s.compile.loads host entry steps)
  have hrun : (s.compile.runEntry host entry (.steps steps)).loading.toList =
      (s.compile.loader.source.afterLoading (s.compile.loads host entry steps)).trail.toList := by
    rw [CompiledSession.loading_runEntry]
    rfl
  have hfinished := s.compile.trail_finish (s.compile.runEntry host entry (.steps steps)) result
  rw [hrun] at hfinished
  have hend := AuditEvent.reaches_executionEnd (s.compile.clock.reading (s.compile.trail ++
    (s.compile.loader.source.afterLoading (s.compile.loads host entry steps)).trail.toList).length) correlation
    (s.compile.finish (s.compile.runEntry host entry (.steps steps)) result).state
    (s.compile.finish (s.compile.runEntry host entry (.steps steps)) result).summary
  refine ⟨loaded, _, _, hfinished.trans (List.append_assoc _ _ _), hattempts, hend, ?_, ?_⟩
  · rw [hfinished]
    exact List.forall_mem_append.2 ⟨List.forall_mem_append.2 ⟨hcompiled, fun e he => (hattempts.only e he).1⟩,
      List.forall_mem_singleton.2 hend.correlation⟩
  · rw [hfinished]
    exact (hstamped.append hloading).concat rfl

/-- The trail of a crash behind the binding of an output, and that of an execution that asks for what the session
has not got. -/
theorem audit_trail_crashing :
    (∃ s, ({ ofConfiguration .default .empty with toolchain := some .crashing }.start default >>= fun session =>
        [default].foldlM register session) = .ok s ∧
      ∃ start bound finish, s.compile.trail = [start, bound, finish] ∧
        start.Reaches default .sessionStart .pending "Session started with toolchain crashing" ∧
        bound.Names default .outputBound "contract.Hello" "Output for contract.Hello bound from unit unit" ∧
        finish.Reaches default .compileFinished .compiledFailed
          "Compilation finished: compiled-failed (1 errors)") ∧
    ∃ s, ({ ofConfiguration .default .empty with toolchain := some .idle }.start default >>= fun session =>
        [default].foldlM register session) = .ok s ∧
      ∃ (h : s.compile.Succeeded) (f : FinishedSession),
        s.compile.execute h .empty "contract.Hello" 0 = some f ∧
        ∃ rejected last, f.trail.filter (fun e => e.kind = .loadRejected) = [rejected] ∧
          f.trail.getLast? = some last ∧
          rejected.Names default .loadRejected "contract.Hello"
            "contract.Hello is not in this session's artifact set" ∧
          last.Reaches default .executionEnd .executionFailed
            "load failed: Symbol `contract.Hello` was not produced by this session" := by
  constructor
  · let s := { ofConfiguration .default .empty with toolchain := some .crashing }.pending default .crashing [default]
    have hs : ({ ofConfiguration .default .empty with toolchain := some .crashing }.start default >>=
        fun session => [default].foldlM register session) = .ok s := rfl
    obtain ⟨start, compiling, finish, htrail, hstart, htraces, hfinish, _⟩ := audit_trail rfl hs
    have hoperations : s.operations = [.output .classOutput "contract.Hello" default "half".toUTF8] := rfl
    have hstate : s.compile.state = .compiledFailed := by decide +kernel
    have herrors : errorCount s.compile.diagnostics = 1 := by decide +kernel
    have htold := htraces.inOrder
    rw [hoperations] at htold
    rw [hstate, herrors] at hfinish
    cases htold with
    | bound _ _ _ _ hbound => exact absurd hbound (by decide)
    | binding _ _ _ _ _ hbinding hrest =>
      cases hrest
      exact ⟨s, hs, start, _, finish, htrail, hstart, hbinding, hfinish⟩
  · let s := { ofConfiguration .default .empty with toolchain := some .idle }.pending default .idle [default]
    have hs : ({ ofConfiguration .default .empty with toolchain := some .idle }.start default >>=
        fun session => [default].foldlM register session) = .ok s := rfl
    obtain ⟨start, compiling, finish, htrail, hstart, htraces, hfinish, _, _, hexecutes⟩ := audit_trail rfl hs
    have hoperations : s.operations = [] := rfl
    have hsucceeded : s.compile.Succeeded := s.compile_state
    have htold := htraces.inOrder
    rw [hoperations] at htold
    cases htold
    obtain ⟨loaded, loading, last, hfinished, hattempts, hlast, _⟩ :=
      hexecutes hsucceeded .empty "contract.Hello" 0 _ rfl
    have hmissing := hattempts.missing
    have hnames : (s.compile.loads .empty "contract.Hello" 0).filter
        (fun name => (s.compile.loader.source.artifacts.get? name).isNone) = ["contract.Hello"] := rfl
    rw [hnames] at hmissing
    generalize hrejected : loading.filter (fun e => e.kind = .loadRejected) = rejected at hmissing
    cases hmissing with
    | cons hrejects hrest =>
      cases hrest
      refine ⟨s, hs, hsucceeded, _, rfl, _, last, ?_, ?_, hrejects, hlast⟩
      · rw [hfinished, htrail]
        simp [hrejected, hstart.kind, hfinish.kind, hlast.kind]
      · rw [hfinished, ← List.append_assoc, List.getLast?_concat]

end Sandbox
end PluginSandbox
