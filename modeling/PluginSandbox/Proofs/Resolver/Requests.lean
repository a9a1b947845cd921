import PluginSandbox.Proofs.Resolver.Operations
import PluginSandbox.Toolchain

/-!
# What a compilation asks for

Whatever a toolchain does to a session, it does by asking for one thing after the other
(`Compilation.requests`).  What it leaves behind is therefore known from these requests alone
(`Compilation.run_snd`): the resolver is what the operations among them make of it, and the diagnostics are
those that were reported, in order.  It makes no difference how the compilation ends, and a crash takes
nothing back.
-/

namespace PluginSandbox

namespace Request

/-- The operation on the resolver that a request stands for. -/
def operation? : Request → Option Resolver.Operation
  | .list location package kinds => some (.list location package kinds)
  | .inferName location entry => some (.inferName location entry)
  | .output location name sibling data => some (.output location name sibling data)
  | _ => none

/-- The diagnostic that a request reports. -/
def diagnostic? : Request → Option Diagnostic
  | .report d => some d
  | _ => none

end Request

/-- What a request leaves behind. -/
theorem Workspace.answer_snd (w : Workspace) (r : Request) :
    (w.answer r).2 =
      { resolver := w.resolver.after r.operation?.toList
        diagnostics := w.diagnostics ++ r.diagnostic?.toList.toArray } := by
  cases r <;> simp [answer, Request.operation?, Request.diagnostic?, Resolver.perform]

namespace Compilation

variable {α : Type}

/-- The requests that a compilation makes of a workspace, in order. -/
def requests : Compilation α → Workspace → List Request
  | .done _, _ => []
  | .crash _, _ => []
  | .ask request resume, w => request :: (resume (w.answer request).1).requests (w.answer request).2

/-- The operations on the resolver among the requests of a compilation, in order. -/
def operations (x : Compilation α) (w : Workspace) : List Resolver.Operation :=
  (x.requests w).filterMap Request.operation?

/-- The diagnostics that a compilation reports, in order. -/
def reported (x : Compilation α) (w : Workspace) : List Diagnostic :=
  (x.requests w).filterMap Request.diagnostic?

/-- What a compilation leaves behind, however it ends. -/
theorem run_snd (x : Compilation α) (w : Workspace) :
    (x.run w).2 =
      { resolver := w.resolver.after (x.operations w)
        diagnostics := w.diagnostics ++ (x.reported w).toArray } := by
  induction x generalizing w with
  | done a | crash text => simp [run, operations, reported, requests]
  | ask request resume ih =>
    have hoperations : (ask request resume).operations w =
        request.operation?.toList ++ (resume (w.answer request).1).operations (w.answer request).2 := by
      rw [operations, requests, List.filterMap_cons]
      cases request.operation? <;> rfl
    have hreported : (ask request resume).reported w =
        request.diagnostic?.toList ++ (resume (w.answer request).1).reported (w.answer request).2 := by
      rw [reported, requests, List.filterMap_cons]
      cases request.diagnostic? <;> rfl
    have hresolver : (w.answer request).2.resolver = w.resolver.after request.operation?.toList := by
      rw [Workspace.answer_snd]
    have hdiagnostics : (w.answer request).2.diagnostics =
        w.diagnostics ++ request.diagnostic?.toList.toArray := by
      rw [Workspace.answer_snd]
    rw [run, ih, hoperations, hreported, Resolver.after_append, hresolver, hdiagnostics, Array.append_assoc,
      ← List.append_toArray]

end Compilation
end PluginSandbox
