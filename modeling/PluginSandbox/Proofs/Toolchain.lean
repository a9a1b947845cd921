import PluginSandbox.Toolchain

/-!
# Running compilations

How the parts of a compilation run one after the other.  A crash ends all of it.
-/

namespace PluginSandbox
namespace Compilation

variable {α β : Type}

instance : LawfulMonad Compilation := by
  refine LawfulMonad.mk' Compilation ?_ (fun _ _ => rfl) ?_
  · intro α x
    show x.bind .done = x
    induction x with
    | done a | crash text => rfl
    | ask r resume ih =>
      rw [bind]
      congr 1
      funext answer
      exact ih answer
  · intro α β γ x f g
    show (x.bind f).bind g = x.bind fun a => (f a).bind g
    induction x with
    | done a | crash text => rfl
    | ask r resume ih =>
      rw [bind, bind, bind]
      congr 1
      funext answer
      exact ih answer

@[simp] theorem run_pure (a : α) (w : Workspace) :
    (pure a : Compilation α).run w = (.done a, w) := rfl

@[simp] theorem run_request (r : Request) (w : Workspace) :
    (request r).run w = (.done (w.answer r).1, (w.answer r).2) := rfl

/-- The second part of a compilation runs on what the first part left behind, unless that crashed. -/
theorem run_bind (x : Compilation α) (next : α → Compilation β) (w : Workspace) :
    (x >>= next).run w = match x.run w with
      | (.done a, w') => (next a).run w'
      | (.crashed text, w') => (.crashed text, w') := by
  show (x.bind next).run w = _
  induction x generalizing w with
  | done a | crash text => rfl
  | ask r resume ih => exact ih _ _

theorem run_bind_of_done {x : Compilation α} {w w' : Workspace} {a : α} (h : x.run w = (.done a, w'))
    (next : α → Compilation β) : (x >>= next).run w = (next a).run w' := by
  rw [run_bind, h]

theorem forM_cons (f : α → Compilation PUnit) (a : α) (rest : List α) :
    (a :: rest).forM f = f a >>= fun _ => rest.forM f := rfl

end Compilation
end PluginSandbox
