import PluginSandbox.Bytecode.Verify

/-!
# Code that passes the structural checks

The check goes through a module once and stops at the first flaw.  Here is what it means that it finds none:
every function has a slot for each of its parameters, ends in a return or a jump, and holds no misplaced
operation (`Function.firstFlaw?_eq_none`).  So an operation that the machine may leave by going on has another
one behind it (`Function.lt_size_of_goesOn`).
-/

namespace PluginSandbox

variable {m : Module} {f : Function}

theorem Function.firstMisplaced?_eq_none {pc : Nat} {code : List Op} :
    f.firstMisplaced? m pc code = none ↔ ∀ op ∈ code, op.misplaced? m f = none := by
  induction code generalizing pc with
  | nil => simp [firstMisplaced?]
  | cons op rest ih =>
    rw [firstMisplaced?, List.forall_mem_cons]
    cases hop : op.misplaced? m f with
    | none => simp [ih]
    | some what => simp

/-- Nothing is wrong with a function exactly if it has a slot for each parameter, its last operation is a
return or a jump, and none of its operations is misplaced. -/
theorem Function.firstFlaw?_eq_none :
    f.firstFlaw? m = none ↔
      f.arity ≤ f.locals ∧ (f.code.back?.map Op.endsCode).getD false = true ∧
        ∀ op ∈ f.code, op.misplaced? m f = none := by
  rw [firstFlaw?]
  split
  · next hlocals => simp [Nat.not_le.2 hlocals]
  · next hlocals =>
    split
    · next hend => simp [firstMisplaced?_eq_none, Nat.not_lt.1 hlocals, hend]
    · next hend => simp [hend]

theorem Module.firstFlaw?_eq_none : m.firstFlaw? = none ↔ ∀ f ∈ m.functions, f.firstFlaw? m = none := by
  rw [Module.firstFlaw?, List.findSome?_eq_none_iff]
  simp

/-- Behind an operation that is no return and no jump there is another one, if the last operation is one of these. -/
theorem Function.lt_size_of_endsCode (hend : (f.code.back?.map Op.endsCode).getD false = true) {pc : Nat} {op : Op}
    (hop : f.code[pc]? = some op) (hgoesOn : op.endsCode = false) : pc + 1 < f.code.size := by
  obtain ⟨hlt, _⟩ := Array.getElem?_eq_some_iff.1 hop
  refine Nat.lt_of_not_le fun hlast => ?_
  have hback : f.code.back? = some op := by
    rw [Array.back?_eq_getElem?, show f.code.size - 1 = pc by omega, hop]
  rw [hback] at hend
  exact absurd (hgoesOn.symm.trans hend) (by simp)

/-- Verified code has another operation behind one that is no return and no jump. -/
theorem Function.lt_size_of_goesOn (hf : f.firstFlaw? m = none) {pc : Nat} {op : Op}
    (hop : f.code[pc]? = some op) (hgoesOn : op.endsCode = false) : pc + 1 < f.code.size :=
  lt_size_of_endsCode (firstFlaw?_eq_none.1 hf).2.1 hop hgoesOn

/-- What an operation of a function refers to is there. -/
theorem Function.misplaced?_of_getElem? (hf : f.firstFlaw? m = none) {pc : Nat} {op : Op}
    (hop : f.code[pc]? = some op) : op.misplaced? m f = none :=
  (firstFlaw?_eq_none.1 hf).2.2 op (Array.mem_of_getElem? hop)

end PluginSandbox
