import PluginSandbox.Proofs.Compiler.Decisions
import PluginSandbox.Proofs.Machine.Source
import PluginSandbox.Proofs.Session.Compile

/-!
# Hidden packages do not interfere

What becomes of a session does not depend on anything of the platform that the policy hides.  Two platforms
with the same functions in every visible package of every module (`Policy.Shows`) may differ in hidden
packages, in further modules without a visible package, in the functions of the class path and in the
contract type; a session ends the same on both (`compile_hidden`).

* Compiling: what is found and written depends on what names mean, and that is the same.
* Executing: the loaders give the same modules, so the machine goes the same way on both.
* The decisions of a session also show which modules were asked, so they are the same if the modules are.
-/

namespace PluginSandbox

/-! ## Executions -/

/-- What can be observed of an execution that has ended. -/
def FinishedSession.observed (s : FinishedSession) :
    SessionState × Array String × Option ExecutionFailure × Array (LogLevel × String) :=
  (s.state, s.output, s.failure, s.log)

/-- What can be observed of the execution of an entry: everything but the audit events of loading. -/
def EntryRun.observed (r : EntryRun) :
    Option (Except ExecutionFailure Unit) × Array String × Array (LogLevel × String) :=
  (r.result, r.output, r.log)

/-- Two compiled sessions that cannot be told apart, except by their decisions. -/
structure CompiledSession.Alike (s s' : CompiledSession) : Prop where
  state : s'.state = s.state
  diagnostics : s'.diagnostics = s.diagnostics
  artifacts : s'.artifacts = s.artifacts
  execution : ∀ (h : s.Succeeded) (h' : s'.Succeeded) (host : Host) (entry : String) (steps : Nat),
    (s'.execute h' host entry steps).map FinishedSession.observed =
      (s.execute h host entry steps).map FinishedSession.observed

namespace CompiledSession

theorem observed_finish (s : CompiledSession) (run : EntryRun) (result : Except ExecutionFailure Unit) :
    (s.finish run result).observed =
      match result with
      | .ok () => (.executed, run.output, none, run.log)
      | .error failure => (.executionFailed, run.output, some failure, run.log) := by
  cases result <;>
    simp [finish, FinishedSession.observed, Session.state, Session.record, Session.become]

/-- An entry runs the same in sessions whose loaders give the same modules. -/
theorem observed_runEntry {s s' : CompiledSession} (hconfiguration : s'.configuration = s.configuration)
    (h : s.loader.Alike s'.loader) (host : Host) (entry : String) (steps : Nat) :
    (s'.runEntry host entry (.steps steps)).observed = (s.runEntry host entry (.steps steps)).observed := by
  have hlater := h.load entry
  simp only [runEntry, Limit.behind?, h.load_fst, hconfiguration]
  cases (s.loader.load entry).1 with
  | error cause => rfl
  | ok m =>
    dsimp only
    cases Plugin.instantiate m s.configuration.maxCallDepth with
    | error failure => rfl
    | ok plugin =>
      obtain ⟨hresult, hplugin⟩ := plugin.execute_alike host hlater steps
      simp only [EntryRun.observed, hresult, hplugin]

end CompiledSession

/-! ## Sessions -/

namespace Sandbox

variable {b : Sandbox} {c : Catalogue}

/-- The sandbox on another platform. -/
def withCatalogue (b : Sandbox) (c : Catalogue) : Sandbox :=
  { b with catalogue := c }

theorem meaning_withCatalogue (hvalid : b.configuration.IsValid)
    (h : (Policy.ofConfiguration b.configuration).Shows b.catalogue c) (units : List PluginUnit) :
    (b.withCatalogue c).meaning units = b.meaning units :=
  Resolver.meaning_congr (r := (b.pending default Builtin.toolchain units).resolver) hvalid rfl h

/-- Compiling on another platform leaves the same decisions, if its modules are the same ones. -/
theorem decisions_withCatalogue (hvalid : b.configuration.IsValid)
    (h : (Policy.ofConfiguration b.configuration).Shows b.catalogue c)
    (hmodules : c.moduleLocations = b.catalogue.moduleLocations) (correlation : Correlation)
    (units : List PluginUnit) :
    ((b.withCatalogue c).pending correlation Builtin.toolchain units).compile.decisions =
      (b.pending correlation Builtin.toolchain units).compile.decisions := by
  have hsteady := Builtin.steady_compile ⟨⟨b.configuration, hvalid, rfl⟩, h, hmodules⟩ units
    { resolver := (b.pending correlation Builtin.toolchain units).resolver } rfl rfl
  have hrun : (Builtin.toolchain.compile units).run
      { resolver := ((b.withCatalogue c).pending correlation Builtin.toolchain units).resolver } = _ :=
    hsteady.2.2
  have hunits : ((b.withCatalogue c).pending correlation Builtin.toolchain units).units = units := rfl
  have htoolchain : ((b.withCatalogue c).pending correlation Builtin.toolchain units).toolchain =
      Builtin.toolchain := rfl
  rw [PendingSession.compile, hunits, htoolchain, hrun]
  rfl

theorem alike_withCatalogue (hvalid : b.configuration.IsValid)
    (h : (Policy.ofConfiguration b.configuration).Shows b.catalogue c) (correlation : Correlation)
    (units : List PluginUnit) :
    (b.pending correlation Builtin.toolchain units).compile.Alike
      ((b.withCatalogue c).pending correlation Builtin.toolchain units).compile := by
  have hs := b.compiledBy_builtin correlation units
  have hs' := (b.withCatalogue c).compiledBy_builtin correlation units
  have hmeaning := meaning_withCatalogue hvalid h units
  have hartifacts : ((b.withCatalogue c).pending correlation Builtin.toolchain units).compile.artifacts =
      (b.pending correlation Builtin.toolchain units).compile.artifacts := by
    rw [hs.artifacts, hs'.artifacts, written, written, hmeaning]
  refine ⟨by rw [hs.state, hs'.state, hmeaning], by rw [hs.diagnostics, hs'.diagnostics, hmeaning],
    hartifacts, ?_⟩
  intro hsucceeded hsucceeded' host entry steps
  have halike : (b.pending correlation Builtin.toolchain units).compile.loader.Alike
      ((b.withCatalogue c).pending correlation Builtin.toolchain units).compile.loader := by
    refine ⟨LoadSource.materialize_congr hartifacts (hs'.policy.trans hs.policy.symm) ?_, rfl⟩
    show (b.pending correlation Builtin.toolchain units).compile.resolver.policy.Shows
      (b.pending correlation Builtin.toolchain units).compile.resolver.catalogue
      ((b.withCatalogue c).pending correlation Builtin.toolchain units).compile.resolver.catalogue
    rw [hs.policy, hs.catalogue, hs'.catalogue]
    exact h
  have hrun := CompiledSession.observed_runEntry (hs'.configuration.trans hs.configuration.symm) halike host entry
    steps
  obtain ⟨hresult, hrest⟩ := Prod.mk.inj hrun
  obtain ⟨houtput, hlog⟩ := Prod.mk.inj hrest
  rw [CompiledSession.execute, CompiledSession.execute, Option.map_map, Option.map_map, hresult]
  refine congrArg (fun f => Option.map f _) (funext fun result => ?_)
  rw [Function.comp_apply, Function.comp_apply, CompiledSession.observed_finish, CompiledSession.observed_finish,
    houtput, hlog]

/-- **Hidden packages do not interfere.** With a valid configuration and the built-in toolchain, two
platforms that show the same compile units to the same end: with the same refusal, or in sessions with the
same state, diagnostics and artifacts, every execution of which is observed to be the same.  Their decisions
are the same, too, if the platforms have the same modules. -/
theorem compile_hidden (b : Sandbox) (c : Catalogue) (correlation : Correlation)
    (units : List PluginUnit) (htoolchain : b.toolchain = some Builtin.toolchain)
    (hvalid : b.configuration.IsValid)
    (h : (Policy.ofConfiguration b.configuration).Shows b.catalogue c) :
    match b.compile correlation units, (b.withCatalogue c).compile correlation units with
    | .error refusal, .error refusal' => refusal' = refusal
    | .ok (entry, s), .ok (entry', s') =>
      entry' = entry ∧ s.Alike s' ∧
        (c.moduleLocations = b.catalogue.moduleLocations → s'.decisions = s.decisions)
    | _, _ => False := by
  have htoolchain' : (b.withCatalogue c).toolchain = some Builtin.toolchain := htoolchain
  rw [compile_eq htoolchain, compile_eq htoolchain']
  cases units with
  | nil => rfl
  | cons first rest =>
    dsimp only
    cases repeated? [] (first :: rest) with
    | some name => rfl
    | none =>
      exact ⟨rfl, alike_withCatalogue hvalid h correlation (first :: rest),
        fun hmodules => decisions_withCatalogue hvalid h hmodules correlation (first :: rest)⟩

/-- A unit that prints a line compiles and runs the same on a platform that has a hidden function more. -/
theorem compile_hidden_listening :
    ∃ entry s s',
      (ofConfiguration .default .empty).compile default [.hello] = .ok (entry, s) ∧
        ((ofConfiguration .default .empty).withCatalogue ((Catalogue.standard defaultContract).define
          (.systemModule baseModule) "net" "listen" 1 .print)).compile default [.hello] =
            .ok (entry, s') ∧
        s.Alike s' ∧ s'.decisions = s.decisions := by
  have hvalid : Configuration.default.IsValid := by decide +kernel
  have hhidden : (Policy.ofConfiguration .default).isVisible (Location.systemModule baseModule).realm
      "net" = false := by decide +kernel
  have hmodules : ((Catalogue.standard defaultContract).define (.systemModule baseModule) "net"
      "listen" 1 .print).moduleLocations = (Catalogue.standard defaultContract).moduleLocations :=
    Catalogue.moduleLocations_define List.mem_cons_self "net" "listen" 1 .print
  have hsame := compile_hidden (ofConfiguration .default .empty) _ default [.hello] rfl hvalid
    (Policy.Shows.define hhidden _ "listen" 1 .print)
  obtain ⟨_, halike, hdecisions⟩ := hsame
  exact ⟨_, _, _, rfl, rfl, halike, hdecisions hmodules⟩

end Sandbox
end PluginSandbox
