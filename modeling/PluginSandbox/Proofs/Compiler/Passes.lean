import PluginSandbox.Compiler.Builtin
import PluginSandbox.Compiler.Meaning

/-!
# Checks that pass

A check passes under a meaning if it reports no error when every name means what the meaning says
(`Checker.Passes`).  A sequence of checks passes exactly if each of them does, so what a check that passes has
found out can be read off its steps.

The imports of a unit that passes are all found, and no two of them bind one name.  The bindings that the
checker remembers then say what the meaning says of imports (`Checker.Knows`), and looking a name up gives what
it means.
-/

namespace PluginSandbox

namespace Query

variable {α β : Type} {m : Meaning}

theorem under_bind (q : Query α) (next : α → Query β) :
    (q >>= next).under m =
      (((next (q.under m).1).under m).1, (q.under m).2 ++ ((next (q.under m).1).under m).2) := by
  show (q.bind next).under m = _
  induction q with
  | done a => rfl
  | ask question resume ih => exact ih (m question)
  | report d rest ih =>
    rw [bind, under, ih]
    rfl

instance : LawfulMonad Query := by
  refine LawfulMonad.mk' Query ?_ (fun _ _ => rfl) ?_
  · intro α q
    show q.bind .done = q
    induction q with
    | done a => rfl
    | ask question resume ih => exact congrArg (Query.ask question) (funext ih)
    | report d rest ih => exact congrArg (Query.report d) ih
  · intro α β γ q f g
    show (q.bind f).bind g = q.bind fun a => (f a).bind g
    induction q with
    | done a => rfl
    | ask question resume ih => exact congrArg (Query.ask question) (funext ih)
    | report d rest ih => exact congrArg (Query.report d) ih

end Query

/-! ## Meanings -/

namespace Meaning

variable {m : Meaning} {found : Location × Entry}

theorem anywhere_eq_some {package name : String} (h : m.anywhere package name = some found) :
    m (.onClassPath package name) = some found ∨ m (.inModules package name) = some found := by
  rw [anywhere] at h
  cases hon : m (.onClassPath package name) with
  | some entry =>
    rw [hon] at h
    exact .inl h
  | none =>
    rw [hon] at h
    exact .inr h

/-- What a name means in a unit is the answer to a question for it. -/
theorem own_eq_some {unit : PluginUnit} {imports : List Import} {name : String}
    (h : m.own unit imports name = some found) :
    ∃ package, m (.onClassPath package name) = some found ∨ m (.inModules package name) = some found := by
  rw [own] at h
  cases himported : m.imported imports name with
  | some entry =>
    rw [himported] at h
    obtain rfl : entry = found := Option.some.inj h
    obtain ⟨i, hi, hentry⟩ := Option.bind_eq_some_iff.1 himported
    have hname : i.name = name := by simpa using List.find?_some hi
    exact ⟨i.package, hname ▸ anywhere_eq_some hentry⟩
  | none =>
    rw [himported] at h
    exact ⟨unit.package, .inl h⟩

/-- What the name of a called function means is the answer to a question for it. -/
theorem callee_eq_some {unit : PluginUnit} {imports : List Import} {name : String}
    (h : m.callee unit imports name = some found) :
    ∃ package, m (.onClassPath package name) = some found ∨ m (.inModules package name) = some found := by
  rw [callee] at h
  cases hown : m.own unit imports name with
  | some entry =>
    rw [hown] at h
    obtain rfl : entry = found := Option.some.inj h
    exact own_eq_some hown
  | none =>
    rw [hown] at h
    exact ⟨Checker.implicitPackage, .inr h⟩

end Meaning

/-! ## Passing -/

namespace Checker

variable {α β : Type} {m : Meaning} {bs bs' : List Binding}

/-- A check that starts with some bindings reports no error, and ends with a result and other bindings. -/
def Passes (m : Meaning) (c : Checker α) (bs : List Binding) (a : α) (bs' : List Binding) : Prop :=
  ((c.run bs).under m).1 = (a, bs') ∧ ∀ d ∈ ((c.run bs).under m).2, d.isError = false

/-- A check that reports nothing passes. -/
theorem passes_of_quiet {c : Checker α} {a b : α} {between : List Binding}
    (h : (c.run bs).under m = ((a, between), [])) : Passes m c bs b bs' ↔ b = a ∧ bs' = between := by
  rw [Passes, h]
  constructor
  · rintro ⟨hresult, _⟩
    obtain ⟨rfl, rfl⟩ := Prod.mk.inj hresult
    exact ⟨rfl, rfl⟩
  · rintro ⟨rfl, rfl⟩
    exact ⟨rfl, fun _ hd => absurd hd (by simp)⟩

theorem passes_pure {a b : α} : Passes m (pure a) bs b bs' ↔ b = a ∧ bs' = bs :=
  passes_of_quiet rfl

/-- A sequence passes exactly if its parts do. -/
theorem passes_bind {c : Checker α} {next : α → Checker β} {b : β} :
    Passes m (c >>= next) bs b bs' ↔
      ∃ a between, Passes m c bs a between ∧ Passes m (next a) between b bs' := by
  rw [Passes, StateT.run_bind, Query.under_bind]
  constructor
  · rintro ⟨hresult, hquiet⟩
    refine ⟨((c.run bs).under m).1.1, ((c.run bs).under m).1.2, ⟨rfl, ?_⟩, hresult, ?_⟩
    · exact fun d hd => hquiet d (List.mem_append_left _ hd)
    · exact fun d hd => hquiet d (List.mem_append_right _ hd)
  · rintro ⟨a, between, ⟨hc, hquiet⟩, ⟨hnext, hquiet'⟩⟩
    rw [hc]
    refine ⟨hnext, fun d hd => ?_⟩
    rcases List.mem_append.1 hd with hd | hd
    · exact hquiet d hd
    · exact hquiet' d hd

theorem passes_ask {question : Question} {found : Found} :
    Passes m (ask question) bs found bs' ↔ found = m question ∧ bs' = bs :=
  passes_of_quiet rfl

/-- No problem is reported but an import that is never used. -/
theorem passes_report {unit : PluginUnit} {p : Position} {problem : CheckProblem} {a : Unit} :
    Passes m (report unit p problem) bs a bs' ↔ problem.severity ≠ .error ∧ bs' = bs := by
  have hunder : ((report unit p problem).run bs).under m =
      (((), bs), [problem.diagnostic unit.qualifiedName p]) := rfl
  have herror : (problem.diagnostic unit.qualifiedName p).isError = false ↔
      problem.severity ≠ .error := by
    rw [Diagnostic.isError, CheckProblem.diagnostic, beq_eq_false_iff_ne]
  rw [Passes, hunder]
  constructor
  · rintro ⟨h, hquiet⟩
    obtain ⟨_, rfl⟩ := Prod.mk.inj h
    exact ⟨herror.1 (hquiet _ (List.mem_singleton_self _)), rfl⟩
  · rintro ⟨hseverity, rfl⟩
    refine ⟨rfl, fun d hd => ?_⟩
    rw [List.mem_singleton.1 hd]
    exact herror.2 hseverity

theorem passes_get {a : List Binding} : Passes m get bs a bs' ↔ a = bs ∧ bs' = bs :=
  passes_of_quiet rfl

theorem passes_modify {f : List Binding → List Binding} {a : Unit} :
    Passes m (modify f) bs a bs' ↔ bs' = f bs := by
  have hquiet : Passes m (modify f) bs a bs' ↔ a = () ∧ bs' = f bs := passes_of_quiet rfl
  rw [hquiet, and_iff_right rfl]

/-- A condition that is reported as an error does not hold in a check that passes. -/
theorem passes_report_if {P : Prop} [Decidable P] {unit : PluginUnit} {p : Position}
    {problem : CheckProblem} {next : Unit → Checker β} {b : β} (h : problem.severity = .error) :
    Passes m (if P then report unit p problem >>= next else next ()) bs b bs' ↔
      ¬ P ∧ Passes m (next ()) bs b bs' := by
  split
  · next hP => simp [passes_bind, passes_report, h, hP]
  · next hP => simp [hP]

/-! ## Imports -/

/-- Some bindings say what the meaning says of some imports, all of which are found. -/
structure Knows (m : Meaning) (imports : List Import) (bs : List Binding) : Prop where
  targets : bs.map (fun b => (b.decl, b.target)) =
    imports.map fun i => (i, m.anywhere i.package i.name)
  found : ∀ b ∈ bs, b.target.isSome = true

theorem knows_nil : Knows m [] [] :=
  ⟨rfl, fun _ hb => absurd hb (by simp)⟩

theorem under_findAnywhere (package name : String) (bs : List Binding) :
    ((findAnywhere package name).run bs).under m = ((m.anywhere package name, bs), []) := by
  have hask : ((findOnClassPath package name).run bs).under m = ((m (.onClassPath package name), bs), []) := rfl
  rw [findAnywhere, StateT.run_bind, Query.under_bind, hask, Meaning.anywhere]
  cases m (.onClassPath package name) <;> rfl

theorem passes_findAnywhere {package name : String} {found : Found}
    (h : Passes m (findAnywhere package name) bs found bs') :
    found = m.anywhere package name ∧ bs' = bs := by
  rw [Passes, under_findAnywhere] at h
  obtain ⟨rfl, rfl⟩ := Prod.mk.inj h.1
  exact ⟨rfl, rfl⟩

/-- Binding an import that is not reported makes it known. -/
theorem passes_bindImport {unit : PluginUnit} {i : Import} {imports : List Import} {a : Unit}
    (hknows : Knows m imports bs) (h : Passes m (bindImport unit i) bs a bs') :
    Knows m (imports ++ [i]) bs' := by
  rw [bindImport] at h
  obtain ⟨current, between, hget, hrest⟩ := passes_bind.1 h
  obtain ⟨rfl, rfl⟩ := passes_get.1 hget
  split at hrest
  · -- A name that is bound twice would be reported.
    exact absurd (passes_report.1 hrest).1 (by simp [CheckProblem.severity])
  · obtain ⟨target, between', hfind, hbind⟩ := passes_bind.1 hrest
    obtain ⟨rfl, rfl⟩ := passes_findAnywhere hfind
    obtain ⟨hfound, hmodify⟩ := (passes_report_if rfl).1 hbind
    rw [passes_modify.1 hmodify]
    constructor
    · rw [List.map_append, List.map_append, hknows.targets]
      rfl
    · intro b hb
      rcases List.mem_append.1 hb with hb | hb
      · exact hknows.found b hb
      · rw [List.mem_singleton.1 hb]
        exact Option.isSome_iff_ne_none.2 (by simpa using hfound)

theorem passes_bindImports {unit : PluginUnit} (imports : List Import) {seen : List Import} {a : Unit}
    (hknows : Knows m seen bs) (h : Passes m (imports.forM (bindImport unit)) bs a bs') :
    Knows m (seen ++ imports) bs' := by
  induction imports generalizing seen bs with
  | nil =>
    obtain ⟨_, rfl⟩ := passes_pure.1 h
    rw [List.append_nil]
    exact hknows
  | cons i imports ih =>
    obtain ⟨_, between, hfirst, hrest⟩ := passes_bind.1 h
    have hnext := ih (passes_bindImport hknows hfirst) hrest
    rwa [List.append_assoc] at hnext

/-! ## Looking names up -/

/-- What the first binding of a name is bound to is what the imports bind the name to. -/
theorem Knows.find? {imports : List Import} (h : Knows m imports bs) (name : String) :
    (bs.find? (bindsName name)).bind Binding.target = m.imported imports name := by
  obtain ⟨htargets, hfound⟩ := h
  induction bs generalizing imports with
  | nil =>
    obtain rfl : imports = [] := by simpa using htargets.symm
    rfl
  | cons b bs ih =>
    cases imports with
    | nil => exact absurd htargets (by simp)
    | cons i imports =>
      rw [List.map_cons, List.map_cons] at htargets
      obtain ⟨hb, hrest⟩ := List.cons.inj htargets
      obtain ⟨hdecl, htarget⟩ := Prod.mk.inj hb
      obtain ⟨hsome, hfound⟩ := List.forall_mem_cons.1 hfound
      have hbinds : bindsName name b = decide (i.name = name) := by
        rw [bindsName, hsome, hdecl, Bool.and_true]
      rw [Meaning.imported, List.find?_cons, List.find?_cons, hbinds]
      cases decide (i.name = name) with
      | true => exact htarget
      | false => exact ih hrest hfound

/-- Which bindings have been used makes no difference. -/
theorem Knows.map_used {imports : List Import} (h : Knows m imports bs) (P : Binding → Bool) :
    Knows m imports (bs.map fun b => if P b then { b with used := true } else b) := by
  have hsame : ∀ b : Binding, ((if P b then { b with used := true } else b).decl,
      (if P b then { b with used := true } else b).target) = (b.decl, b.target) := by
    intro b
    split <;> rfl
  constructor
  · rw [List.map_map, ← h.targets]
    exact List.map_congr_left fun b _ => hsame b
  · intro b hb
    obtain ⟨b, hmem, rfl⟩ := List.mem_map.1 hb
    rw [(Prod.mk.inj (hsame b)).2]
    exact h.found b hmem

theorem passes_imported {imports : List Import} {name : String} {found : Found}
    (hknows : Knows m imports bs) (h : Passes m (imported name) bs found bs') :
    found = m.imported imports name ∧ Knows m imports bs' := by
  rw [imported] at h
  obtain ⟨current, between, hget, hrest⟩ := passes_bind.1 h
  obtain ⟨rfl, rfl⟩ := passes_get.1 hget
  have hfind := hknows.find? name
  cases hb : between.find? (bindsName name) with
  | none =>
    rw [hb] at hrest hfind
    obtain ⟨rfl, rfl⟩ := passes_pure.1 hrest
    exact ⟨hfind, hknows⟩
  | some b =>
    rw [hb] at hrest hfind
    obtain ⟨_, between', hmodify, hpure⟩ := passes_bind.1 hrest
    obtain ⟨rfl, rfl⟩ := passes_pure.1 hpure
    rw [passes_modify.1 hmodify]
    exact ⟨hfind, hknows.map_used _⟩

/-- What is asked where nothing was found before. -/
theorem passes_ask_unless {c : Checker Found} {question : Question} {found : Found}
    (h : Passes m (do match ← c with | some entry => return some entry | none => ask question) bs found bs') :
    ∃ first, Passes m c bs first bs' ∧ found = first.or (m question) := by
  obtain ⟨first, between, hfirst, hrest⟩ := passes_bind.1 h
  cases first with
  | some entry =>
    obtain ⟨rfl, rfl⟩ := passes_pure.1 hrest
    exact ⟨_, hfirst, rfl⟩
  | none =>
    obtain ⟨rfl, rfl⟩ := passes_ask.1 hrest
    exact ⟨_, hfirst, rfl⟩

/-- Looking up a name that an import may bind gives what it means. -/
theorem passes_findOwn {unit : PluginUnit} {imports : List Import} {name : String} {found : Found}
    (hknows : Knows m imports bs) (h : Passes m (findOwn unit name) bs found bs') :
    found = m.own unit imports name ∧ Knows m imports bs' := by
  obtain ⟨first, hfirst, rfl⟩ := passes_ask_unless h
  obtain ⟨rfl, hknows'⟩ := passes_imported hknows hfirst
  exact ⟨rfl, hknows'⟩

end Checker

namespace Generator

open Checker

variable {m : Meaning} {bs bs' : List Binding}

/-- Looking up the name of a called function gives what it means. -/
theorem passes_findCallee {ctx : UnitContext} {imports : List Import} {name : String} {found : Found}
    (hknows : Knows m imports bs) (h : Passes m (findCallee ctx name) bs found bs') :
    found = m.callee ctx.unit imports name ∧ Knows m imports bs' := by
  obtain ⟨first, hfirst, rfl⟩ := passes_ask_unless h
  obtain ⟨rfl, hknows'⟩ := passes_findOwn hknows hfirst
  exact ⟨rfl, hknows'⟩

end Generator
end PluginSandbox
