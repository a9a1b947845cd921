import Mathlib.Data.List.Forall2
import PluginSandbox.Program.Evaluation
import PluginSandbox.Proofs.Compiler.Placement

/-!
# Variables in slots

The generator gives a slot to every declaration, and an evaluation keeps a list of variables.  The slots of a
scope hold the variables of an evaluation (`Scope.Holds`) if both know the same names in the same order, and
each slot has the value of its variable.  A name is looked up from the innermost one on both sides, so
declarations that hide others need no case of their own.
-/

namespace PluginSandbox

/-- A slot has the value of the variable that its name stands for. -/
def HeldIn (locals : Array Value) (entry : String × Nat) (v : String × Value) : Prop :=
  entry.1 = v.1 ∧ locals[entry.2]? = some v.2

/-- The slots of the visible names of a scope hold some variables. -/
def Scope.Holds (scope : Scope) (locals : Array Value) (vars : Variables) : Prop :=
  List.Forall₂ (HeldIn locals) scope.names vars

variable {locals : Array Value}

/-- A slot keeps its value when another one is written to. -/
theorem HeldIn.set {entry : String × Nat} {v : String × Value} (h : HeldIn locals entry v) {slot : Nat}
    (hne : slot ≠ entry.2) (value : Value) : HeldIn (locals.setIfInBounds slot value) entry v := by
  refine ⟨h.1, ?_⟩
  rw [Array.getElem?_setIfInBounds_ne hne]
  exact h.2

/-- A slot that has been written to has the new value. -/
theorem heldIn_set_self {slot : Nat} (hslot : slot < locals.size) (name : String) (value : Value) :
    HeldIn (locals.setIfInBounds slot value) (name, slot) (name, value) :=
  ⟨rfl, Array.getElem?_setIfInBounds_self_of_lt hslot⟩

theorem forall₂_heldIn_set {names : List (String × Nat)} {vars : Variables}
    (h : List.Forall₂ (HeldIn locals) names vars) {slot : Nat} (hslot : slot ∉ names.map Prod.snd)
    (value : Value) : List.Forall₂ (HeldIn (locals.setIfInBounds slot value)) names vars := by
  induction h with
  | nil => exact .nil
  | cons hfirst _ ih =>
    obtain ⟨hne, hrest⟩ := List.ne_and_not_mem_of_not_mem_cons hslot
    exact .cons (hfirst.set hne value) (ih hrest)

namespace Scope.Holds

variable {scope inner : Scope} {vars : Variables}

/-- The slot of a name has the value of the variable of that name. -/
theorem value (h : scope.Holds locals vars) {name : String} {slot : Nat}
    (hslot : scope.slot? name = some slot) : locals[slot]? = some (vars.value name) := by
  obtain ⟨names, slots⟩ := scope
  have hlookup : names.lookup name = some slot := hslot
  have hheld : List.Forall₂ (HeldIn locals) names vars := h
  clear h hslot
  rw [Variables.value]
  induction hheld with
  | nil => exact absurd hlookup (by simp)
  | cons hfirst _ ih =>
    obtain ⟨hname, hvalue⟩ := hfirst
    rw [List.lookup_cons] at hlookup ⊢
    rw [hname] at hlookup
    split at hlookup
    · obtain rfl := Option.some.inj hlookup
      exact hvalue
    · exact ih hlookup

/-- A declaration puts a value into a fresh slot. -/
theorem declare (h : scope.Holds locals vars) (hscope : scope.Ordered) (hslot : scope.slots < locals.size)
    (name : String) (value : Value) :
    (scope.declare name).Holds (locals.setIfInBounds scope.slots value) ((name, value) :: vars) := by
  refine .cons (heldIn_set_self hslot name value) (forall₂_heldIn_set h (fun hmem => ?_) value)
  obtain ⟨entry, hentry, heq⟩ := List.mem_map.1 hmem
  exact absurd (hscope.taken entry hentry) (by omega)

/-- An assignment puts a value into the slot of the innermost variable of its name. -/
theorem assign (h : scope.Holds locals vars) (hscope : scope.Ordered) {name : String} {slot : Nat}
    (hslot : scope.slot? name = some slot) (value : Value) :
    scope.Holds (locals.setIfInBounds slot value) (vars.assign name value) := by
  obtain ⟨names, slots⟩ := scope
  have hdistinct : (names.map Prod.snd).Nodup := hscope.distinct
  have hlookup : names.lookup name = some slot := hslot
  have hheld : List.Forall₂ (HeldIn locals) names vars := h
  show List.Forall₂ (HeldIn (locals.setIfInBounds slot value)) names (vars.assign name value)
  clear h hslot hscope
  induction hheld with
  | nil => exact absurd hlookup (by simp)
  | @cons entry v names vars hfirst hrest ih =>
    obtain ⟨n, k⟩ := entry
    obtain ⟨n', old⟩ := v
    obtain ⟨rfl, hvalue⟩ : n = n' ∧ locals[k]? = some old := hfirst
    obtain ⟨hfresh, hdistinct⟩ := List.nodup_cons.1 hdistinct
    rw [Variables.assign]
    rw [List.lookup_cons] at hlookup
    split at hlookup
    · next heq =>
      obtain rfl := Option.some.inj hlookup
      obtain ⟨hk, _⟩ := Array.getElem?_eq_some_iff.1 hvalue
      rw [if_pos (beq_iff_eq.1 heq).symm]
      exact .cons (heldIn_set_self hk n value) (forall₂_heldIn_set hrest hfresh value)
    · next hne =>
      rw [if_neg (Ne.symm (beq_eq_false_iff_ne.1 hne))]
      -- The slot of another name is another slot.
      have hmem : slot ∈ names.map Prod.snd := by
        obtain ⟨before, after, heq, _⟩ := List.lookup_eq_some_iff.1 hlookup
        exact List.mem_map.2 ⟨(name, slot), by simp [heq], rfl⟩
      have hother : slot ≠ k := fun heq => hfresh (heq ▸ hmem)
      exact .cons (HeldIn.set ⟨rfl, hvalue⟩ hother value) (ih hdistinct hlookup)

/-- Behind a block the variables from before it are left, with their values from its end. -/
theorem leave {locals' : Array Value} {vars' : Variables} (h : scope.Holds locals vars)
    (h' : inner.Holds locals' vars') (hnames : ∃ declared, inner.names = declared ++ scope.names) :
    (scope.leave inner).Holds locals' (vars.leave vars') := by
  obtain ⟨declared, hnames⟩ := hnames
  have hlength := List.Forall₂.length_eq h
  have hlength' := List.Forall₂.length_eq h'
  rw [hnames, List.length_append] at hlength'
  rw [Holds, hnames] at h'
  have hdrop := List.forall₂_drop_append vars' declared scope.names h'.flip
  rw [Holds, Variables.leave, ← hlength', ← hlength, Nat.add_sub_cancel]
  exact hdrop.flip

/-- Parameters are declared in the first slots, which hold the arguments. -/
theorem declareAll (params : List (String × Position)) {args : List Value}
    (hlength : args.length = params.length) (h : scope.Holds locals vars)
    (hargs : ∀ (i : Nat) (v : Value), args[i]? = some v → locals[scope.slots + i]? = some v) :
    (scope.declareAll params).Holds locals (((params.map Prod.fst).zip args).reverse ++ vars) := by
  induction params generalizing scope args vars with
  | nil => exact h
  | cons param params ih =>
    cases args with
    | nil => exact absurd hlength (by simp)
    | cons v args =>
      rw [declareAll_cons, List.map_cons, List.zip_cons_cons, List.reverse_cons, List.append_assoc,
        List.singleton_append]
      refine ih (by simpa using hlength) (.cons ⟨rfl, ?_⟩ h) fun i w hw => ?_
      · exact hargs 0 v rfl
      · have hnext := hargs (i + 1) w hw
        have hslots : (scope.declare param.1).slots + i = scope.slots + (i + 1) := by
          rw [Nat.add_comm i 1, ← Nat.add_assoc]
          rfl
        rw [hslots]
        exact hnext

end Scope.Holds
end PluginSandbox
