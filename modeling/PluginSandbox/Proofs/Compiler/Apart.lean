import PluginSandbox.Proofs.Compiler.Passes
import PluginSandbox.Proofs.Compiler.Task

/-!
# Units are checked apart

The checker forgets the imports of a unit when it comes to the next one.  So what it makes of a unit, and what it
reports of it (`Builtin.outcome`), depends on that unit, on what the units beside it declare and on what names mean,
and checking a task is checking its units one by one (`Builtin.checked_eq`).  So is the part of a task behind the
parser, whatever the units are said to be parsed to (`Builtin.lowered_eq`).
-/

namespace PluginSandbox
namespace Builtin

/-- What the checker makes of a unit that is parsed, and what it reports of it. -/
def memberOutcome (m : Meaning) (siblings : Signatures) (member : PluginUnit × ParsedUnit) :
    Option Module × List Diagnostic :=
  let outcome := ((Checker.unit member.1 siblings member.2).run []).under m
  (outcome.1.1, outcome.2)

/-- What the checker makes of a unit, and what it reports of it. -/
def outcome (m : Meaning) (siblings : Signatures) (u : PluginUnit) : Option Module × List Diagnostic :=
  let outcome := ((Checker.unit u siblings (ParsedUnit.ofSource u.source).1).run []).under m
  (outcome.1.1, outcome.2)

variable {m : Meaning}

/-- Checking some units is checking one after the other.  The bindings that are left of a unit are forgotten in
front of the next one. -/
theorem under_members (m : Meaning) (siblings : Signatures) (members : List (PluginUnit × ParsedUnit))
    (bs : List Binding) :
    ∃ bs', ((Checker.units siblings members).run bs).under m =
      ((members.filterMap fun member => (memberOutcome m siblings member).1.map (member.1, ·), bs'),
        members.flatMap fun member => (memberOutcome m siblings member).2) := by
  induction members generalizing bs with
  | nil => exact ⟨bs, rfl⟩
  | cons member members ih =>
    obtain ⟨u, p⟩ := member
    have hforget : (Checker.unit u siblings p).run bs = (Checker.unit u siblings p).run [] := rfl
    have hfirst : ∃ between, ((Checker.unit u siblings p).run []).under m =
        (((memberOutcome m siblings (u, p)).1, between), (memberOutcome m siblings (u, p)).2) := ⟨_, rfl⟩
    obtain ⟨between, hfirst⟩ := hfirst
    obtain ⟨bs', hrest⟩ := ih between
    refine ⟨bs', ?_⟩
    rw [Checker.units, StateT.run_bind, Query.under_bind, hforget, hfirst, StateT.run_bind, Query.under_bind, hrest,
      List.filterMap_cons, List.flatMap_cons]
    have hpure : ∀ a : List (PluginUnit × Module) × List Binding, (pure a : Query _).under m = (a, []) :=
      fun _ => rfl
    cases (memberOutcome m siblings (u, p)).1 with
    | none => simp [hpure]
    | some compiled => simp [hpure]

/-- What the checker makes of some parsed units, and what it reports of them. -/
theorem lowered_eq (m : Meaning) (members : List (PluginUnit × ParsedUnit)) :
    lowered m members =
      (members.filterMap fun member => (memberOutcome m (declared members) member).1.map (member.1, ·),
        members.flatMap fun member => (memberOutcome m (declared members) member).2) := by
  obtain ⟨bs', hmembers⟩ := under_members m (declared members) members []
  rw [lowered, hmembers]

/-- What the checker makes of some units, and what it reports of them. -/
theorem checked_eq (m : Meaning) (units : List PluginUnit) :
    checked m units =
      (units.filterMap fun u => (outcome m (signatures units) u).1.map (u, ·),
        units.flatMap fun u => (outcome m (signatures units) u).2) := by
  have hlowered : checked m units = lowered m (parsed units) := rfl
  rw [hlowered, lowered_eq, parsed, List.filterMap_map, List.flatMap_map]
  rfl

/-- Units with different names have compiled forms with different names. -/
theorem nodup_checked {units : List PluginUnit} (hnodup : (units.map PluginUnit.qualifiedName).Nodup) :
    ((checked m units).1.map fun c => c.1.qualifiedName).Nodup := by
  rw [checked_eq]
  refine hnodup.sublist ?_
  generalize signatures units = siblings
  induction units with
  | nil => exact .slnil
  | cons u units ih =>
    have hrest := ih (List.nodup_cons.1 hnodup).2
    dsimp only at hrest ⊢
    rw [List.filterMap_cons]
    cases (outcome m siblings u).1 with
    | none => exact hrest.cons _
    | some compiled => exact hrest.cons_cons _

/-- A unit passes the checks exactly if no error is reported of it. -/
theorem exists_passes_iff {siblings : Signatures} {u : PluginUnit} :
    (∃ compiled bs, Checker.Passes m (Checker.unit u siblings (ParsedUnit.ofSource u.source).1) []
      compiled bs) ↔ ∀ d ∈ (outcome m siblings u).2, d.isError = false := by
  constructor
  · rintro ⟨compiled, bs, _, hquiet⟩
    exact hquiet
  · intro hquiet
    exact ⟨_, _, rfl, hquiet⟩

theorem hasErrors_eq_false {ds : List Diagnostic} :
    hasErrors ds.toArray = false ↔ ∀ d ∈ ds, d.isError = false := by
  simp [hasErrors]

/-- Nothing is found to be an error exactly if every unit is free of syntax errors and passes the checks. -/
theorem hasErrors_findings_eq_false (m : Meaning) (units : List PluginUnit) :
    hasErrors (findings m units).toArray = false ↔ ∀ u ∈ units, (ParsedUnit.ofSource u.source).2 = [] ∧
      ∃ compiled bs, Checker.Passes m (Checker.unit u (signatures units) (ParsedUnit.ofSource u.source).1) []
        compiled bs := by
  rw [hasErrors_eq_false, findings, checked_eq]
  simp only [exists_passes_iff, List.forall_mem_append, syntaxDiagnostics, List.mem_flatMap, List.mem_map]
  constructor
  · rintro ⟨htexts, hchecks⟩ u hu
    refine ⟨List.eq_nil_iff_forall_not_mem.2 fun e he => ?_, fun d hd => hchecks d ⟨u, hu, hd⟩⟩
    -- Whatever is wrong with a text is an error.
    have hfine := htexts (syntaxDiagnostic u e) ⟨u, hu, e, he, rfl⟩
    exact absurd hfine (by simp [syntaxDiagnostic, Diagnostic.isError])
  · intro h
    constructor
    · rintro _ ⟨u, hu, e, he, rfl⟩
      rw [(h u hu).1] at he
      exact absurd he List.not_mem_nil
    · rintro d ⟨u, hu, hd⟩
      exact (h u hu).2 d hd

end Builtin
end PluginSandbox
