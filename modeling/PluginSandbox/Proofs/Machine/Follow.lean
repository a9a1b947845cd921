import PluginSandbox.Program.Evaluation
import PluginSandbox.Proofs.Machine.Step

/-!
# Following an evaluation

A machine follows an evaluation (`Machine.Follows`) if it goes on until it has left behind what the evaluation
leaves behind, and then has come to a machine that stands for the result.  Where the evaluation fails, the
run ends in the same failure; and where it reaches its bound, the machine has made at least some number of
steps.

The number of steps is what carries over to evaluations that never end: a machine that follows an evaluation
for every bound makes as many steps as one likes, so it does not end either.

## How a machine follows

A machine follows a sequence of evaluations if it follows the first one and, from wherever it has come to
then, the second one (`Follows.bind`).  A step that leaves nothing behind may be taken at any time
(`follows_step`).
-/

namespace PluginSandbox

variable {α β : Type}

theorem Evaluation.bind_apply (x : Evaluation α) (next : α → Evaluation β) (c : PluginContext) :
    (x >>= next) c = match x c with
      | (.done a, c) => next a c
      | (.failed failure, c) => (.failed failure, c)
      | (.unfinished, c) => (.unfinished, c) := rfl

namespace Machine

variable {setting : MachineSetting}

/-! ## Runs that are put together -/

theorem run_add {m m' : Machine} {k : Nat} (h : m.run setting k = .next m') (n : Nat) :
    m.run setting (k + n) = m'.run setting n := by
  induction k generalizing m with
  | zero =>
    obtain rfl := Step.next.inj h
    rw [Nat.zero_add]
  | succ k ih =>
    rw [Nat.succ_add, run_succ]
    rw [run_succ] at h
    cases hs : m.step setting with
    | next after =>
      rw [hs] at h
      exact ih h
    | done e =>
      rw [hs] at h
      exact absurd h (by simp)

/-- A run that has ended stays as it is. -/
theorem run_of_done {m : Machine} {k n : Nat} {e : MachineEnd} (h : m.run setting k = .done e)
    (hkn : k ≤ n) : m.run setting n = .done e := by
  induction k generalizing m n with
  | zero => exact absurd h (by simp [run])
  | succ k ih =>
    obtain ⟨n, rfl⟩ : ∃ n', n = n' + 1 := ⟨n - 1, by omega⟩
    rw [run_succ] at h ⊢
    cases hs : m.step setting with
    | next after =>
      rw [hs] at h
      exact ih h (Nat.le_of_succ_le_succ hkn)
    | done e' =>
      rw [hs] at h
      exact h

/-! ## Following -/

/-- The machine follows an evaluation: it comes to a machine that stands for the result, or it ends in the same
failure, or it makes at least some number of steps if the evaluation reaches its bound.  What has been left
behind is the same in each case. -/
def Follows (setting : MachineSetting) (least : Nat) (m : Machine) (x : Evaluation α)
    (arrives : α → Machine → Prop) : Prop :=
  match x m.context with
  | (.done a, c) => ∃ n m', m.run setting n = .next m' ∧ m'.context = c ∧ arrives a m'
  | (.failed failure, c) =>
    ∃ n e, m.run setting n = .done e ∧ e.result = .error failure ∧ e.context = c
  | (.unfinished, c) => ∃ n m', least ≤ n ∧ m.run setting n = .next m' ∧ m'.context = c

variable {least : Nat} {m : Machine} {x : Evaluation α} {arrives : α → Machine → Prop}

/-- A machine that stands for a result follows the evaluation that has ended with it. -/
theorem follows_pure {a : α} (h : arrives a m) : m.Follows setting least (pure a) arrives :=
  ⟨0, m, rfl, rfl, h⟩

theorem Follows.mono {arrives' : α → Machine → Prop} {least' : Nat}
    (h : m.Follows setting least x arrives) (hle : least' ≤ least)
    (hto : ∀ a m', arrives a m' → arrives' a m') : m.Follows setting least' x arrives' := by
  unfold Follows at h ⊢
  split at h
  · obtain ⟨n, m', hrun, hcontext, harrives⟩ := h
    exact ⟨n, m', hrun, hcontext, hto _ _ harrives⟩
  · exact h
  · obtain ⟨n, m', hn, hrest⟩ := h
    exact ⟨n, m', Nat.le_trans hle hn, hrest⟩

theorem Follows.imp {arrives' : α → Machine → Prop} (h : m.Follows setting least x arrives)
    (hto : ∀ a m', arrives a m' → arrives' a m') : m.Follows setting least x arrives' :=
  h.mono (Nat.le_refl _) hto

/-- A machine that has come to another one follows what that one follows, if the evaluations go on in the same
way from what has been left behind. -/
theorem follows_of_run {m' : Machine} {y : Evaluation α} {k : Nat} (hrun : m.run setting k = .next m')
    (hsame : x m.context = y m'.context) (h : m'.Follows setting least y arrives) :
    m.Follows setting (k + least) x arrives := by
  unfold Follows at h ⊢
  rw [hsame]
  split at h
  · obtain ⟨n, m'', hrun', hrest⟩ := h
    exact ⟨k + n, m'', (run_add hrun n).trans hrun', hrest⟩
  · obtain ⟨n, e, hrun', hrest⟩ := h
    exact ⟨k + n, e, (run_add hrun n).trans hrun', hrest⟩
  · obtain ⟨n, m'', hn, hrun', hrest⟩ := h
    exact ⟨k + n, m'', Nat.add_le_add_left hn k, (run_add hrun n).trans hrun', hrest⟩

/-- A single step is a run. -/
theorem run_one (m : Machine) : m.run setting 1 = m.step setting := by
  rw [run_succ]
  cases m.step setting <;> rfl

/-- A step that leaves nothing behind counts as one of the steps that a machine has to make. -/
theorem follows_step {m' : Machine} (hstep : m.step setting = .next m') (hcontext : m'.context = m.context)
    (h : m'.Follows setting least x arrives) : m.Follows setting (least + 1) x arrives := by
  rw [Nat.add_comm]
  exact follows_of_run ((run_one m).trans hstep) (by rw [hcontext]) h

/-- A machine follows a sequence of evaluations part by part. -/
theorem Follows.bind {next : α → Evaluation β} {arrives' : β → Machine → Prop}
    (h : m.Follows setting least x arrives)
    (hnext : ∀ a m', arrives a m' → m'.Follows setting least (next a) arrives') :
    m.Follows setting least (x >>= next) arrives' := by
  have hbind := Evaluation.bind_apply x next m.context
  unfold Follows at h
  split at h
  · next a c hx =>
    obtain ⟨k, m', hrun, rfl, harrives⟩ := h
    rw [hx] at hbind
    exact (follows_of_run hrun hbind (hnext a m' harrives)).mono (Nat.le_add_left _ _) fun _ _ => id
  · next failure c hx =>
    rw [hx] at hbind
    rw [Follows, hbind]
    exact h
  · next c hx =>
    rw [hx] at hbind
    rw [Follows, hbind]
    exact h

/-- A machine that stands for a result may go on without leaving anything behind. -/
theorem Follows.andThen {arrives' : α → Machine → Prop} (h : m.Follows setting least x arrives)
    (hnext : ∀ a m', arrives a m' → m'.Follows setting least (pure a) arrives') :
    m.Follows setting least x arrives' := by
  have hbind : (x >>= pure) m.context = x m.context := by
    rw [Evaluation.bind_apply]
    rcases x m.context with ⟨_ | _ | _, c⟩ <;> rfl
  have hfollows := h.bind hnext
  unfold Follows at hfollows ⊢
  rwa [hbind] at hfollows

/-- A step that fails follows an evaluation that fails in the same way. -/
theorem follows_failed {m' : Machine} {failure : PluginFailure}
    (hstep : m.step setting = m'.failed failure) (hcontext : m'.context = m.context) :
    m.Follows setting least (Evaluation.fail failure : Evaluation α) arrives := by
  exact ⟨1, { result := .error failure, loader := m'.loader, context := m'.context },
    (run_one m).trans hstep, rfl, hcontext⟩

/-- A step that goes on with a value, or ends in a fault, follows the evaluation that does. -/
theorem follows_pushResult {m' : Machine} {r : Except Fault Value} {arrives : Value → Machine → Prop}
    (hstep : m.step setting = m'.pushResult r) (hcontext : m'.context = m.context)
    (h : ∀ v, arrives v (m'.push v)) :
    m.Follows setting least (Evaluation.ofExcept r) arrives := by
  cases r with
  | ok v => exact ⟨1, m'.push v, (run_one m).trans hstep, hcontext, h v⟩
  | error cause => exact follows_failed hstep hcontext

end Machine
end PluginSandbox
