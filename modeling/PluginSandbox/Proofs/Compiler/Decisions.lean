import PluginSandbox.Compiler.Builtin
import PluginSandbox.Proofs.Toolchain
import PluginSandbox.Proofs.Visibility

/-!
# The decisions of a compilation

The built-in toolchain asks for listings of the class path and of platform modules only.  So where two
catalogues show the same, and have the same modules, it asks for the same listings in the same order and gets
the same answers, and the decisions that it leaves are the same ones (`steady_compile`).
-/

namespace PluginSandbox

/-- The workspace with another catalogue. -/
def Workspace.withCatalogue (w : Workspace) (c : Catalogue) : Workspace :=
  { w with resolver := { w.resolver with catalogue := c } }

/-- Two catalogues that a session cannot tell apart by what the built-in toolchain asks for. -/
structure Indistinct (p : Policy) (c c' : Catalogue) : Prop where
  configured : ∃ configuration : Configuration, configuration.IsValid ∧ p = .ofConfiguration configuration
  shows : p.Shows c c'
  modules : c'.moduleLocations = c.moduleLocations

namespace Compilation

variable {α β : Type} {p : Policy} {c c' : Catalogue}

/-- A compilation keeps the policy and the catalogue, and does the same with another catalogue. -/
def Steady (p : Policy) (c c' : Catalogue) (x : Compilation α) : Prop :=
  ∀ w : Workspace, w.resolver.policy = p → w.resolver.catalogue = c →
    (x.run w).2.resolver.policy = p ∧ (x.run w).2.resolver.catalogue = c ∧
      x.run (w.withCatalogue c') = ((x.run w).1, (x.run w).2.withCatalogue c')

theorem steady_done (a : α) : Steady p c c' (.done a) :=
  fun _ hp hc => ⟨hp, hc, rfl⟩

theorem steady_pure (a : α) : Steady p c c' (pure a : Compilation α) :=
  steady_done a

theorem Steady.bind {x : Compilation α} (hx : Steady p c c' x) {next : α → Compilation β}
    (hnext : ∀ a, Steady p c c' (next a)) : Steady p c c' (x >>= next) := by
  intro w hp hc
  obtain ⟨hp', hc', hrun⟩ := hx w hp hc
  rw [run_bind, run_bind, hrun]
  generalize x.run w = outcome at hp' hc'
  obtain ⟨ending, w'⟩ := outcome
  cases ending with
  | done a => exact hnext a w' hp' hc'
  | crashed text => exact ⟨hp', hc', rfl⟩

/-! ## Requests -/

theorem steady_request {r : Request}
    (h : ∀ w : Workspace, w.resolver.policy = p → w.resolver.catalogue = c →
      (w.answer r).2.resolver.policy = p ∧ (w.answer r).2.resolver.catalogue = c ∧
        (w.withCatalogue c').answer r = ((w.answer r).1, (w.answer r).2.withCatalogue c')) :
    Steady p c c' (request r) := by
  intro w hp hc
  obtain ⟨hp', hc', hanswer⟩ := h w hp hc
  refine ⟨hp', hc', ?_⟩
  rw [run_request, run_request, hanswer]

/-- The modules that are asked for are those of the catalogue. -/
theorem steady_moduleLocations_bind (h : Indistinct p c c') {next : List Location → Compilation α}
    (hnext : Steady p c c' (next c.moduleLocations)) :
    Steady p c c' (request .moduleLocations >>= next) := by
  intro w hp hc
  have hrun : (request .moduleLocations).run w = (.done c.moduleLocations, w) := by
    rw [← hc]
    rfl
  have hrun' : (request .moduleLocations).run (w.withCatalogue c') =
      (.done c.moduleLocations, w.withCatalogue c') := by
    rw [← h.modules]
    rfl
  rw [run_bind_of_done hrun, run_bind_of_done hrun']
  exact hnext w hp hc

theorem steady_list (location : Location) (package : String)
    (kinds : List EntryKind)
    (h : ∀ w : Workspace, w.resolver.policy = p → w.resolver.catalogue = c →
      { w.resolver with catalogue := c' }.decide location package kinds =
        w.resolver.decide location package kinds) :
    Steady p c c' (request (.list location package kinds)) := by
  refine steady_request fun w hp hc => ⟨hp, hc, ?_⟩
  have hlist : { w.resolver with catalogue := c' }.list location package kinds =
      ((w.resolver.list location package kinds).1,
        { (w.resolver.list location package kinds).2 with catalogue := c' }) := by
    rw [Resolver.list, h w hp hc]
    rfl
  have hanswer : ∀ w : Workspace, w.answer (.list location package kinds) =
      ((w.resolver.list location package kinds).1,
        { w with resolver := (w.resolver.list location package kinds).2 }) := fun _ => rfl
  have hlist' : (w.withCatalogue c').resolver.list location package kinds = _ := hlist
  rw [hanswer, hanswer, hlist']
  rfl

theorem steady_classPath (h : Indistinct p c c') (package : String) (kinds : List EntryKind) :
    Steady p c c' (request (.list .classPath package kinds)) := by
  obtain ⟨configuration, hvalid, rfl⟩ := h.configured
  exact steady_list .classPath package kinds fun w hp hc =>
    Resolver.decide_classPath hvalid hp package kinds

theorem steady_systemModule (h : Indistinct p c c') (name package : String) (kinds : List EntryKind) :
    Steady p c c' (request (.list (.systemModule name) package kinds)) := by
  refine steady_list (.systemModule name) package kinds fun w hp hc => ?_
  exact Resolver.decide_systemModule (by rw [hp, hc]; exact h.shows) name package kinds

theorem steady_inferName (location : Location) (e : Entry) :
    Steady p c c' (request (.inferName location e)) :=
  steady_request fun _ hp hc => ⟨hp, hc, rfl⟩

theorem steady_report (d : Diagnostic) : Steady p c c' (request (.report d)) :=
  steady_request fun _ hp hc => ⟨hp, hc, rfl⟩

theorem steady_reported : Steady p c c' (request .reported) :=
  steady_request fun _ hp hc => ⟨hp, hc, rfl⟩

theorem steady_output (location : Location) (name : String) (sibling : PluginUnit)
    (data : ByteArray) : Steady p c c' (request (.output location name sibling data)) := by
  refine steady_request fun w hp hc => ?_
  have hbind : { w.resolver with catalogue := c' }.bindOutput name sibling =
      { w.resolver.bindOutput name sibling with catalogue := c' } := by
    rw [Resolver.bindOutput, Resolver.bindOutput]
    show (if w.resolver.artifacts.contains name = true then _ else _) = _
    split <;> rfl
  have hkept : (w.resolver.bindOutput name sibling).policy = w.resolver.policy ∧
      (w.resolver.bindOutput name sibling).catalogue = w.resolver.catalogue := by
    rw [Resolver.bindOutput]
    split <;> exact ⟨rfl, rfl⟩
  refine ⟨hkept.1.trans hp, hkept.2.trans hc, ?_⟩
  simp only [Workspace.answer, Workspace.withCatalogue, Resolver.output, hbind]

/-! ## Repeated parts -/

theorem steady_forM {f : α → Compilation PUnit} (h : ∀ a, Steady p c c' (f a)) (items : List α) :
    Steady p c c' (items.forM f) := by
  induction items with
  | nil => exact steady_pure _
  | cons a items ih =>
    rw [forM_cons]
    exact (h a).bind fun _ => ih

theorem steady_mapM {f : α → Compilation β} (h : ∀ a, Steady p c c' (f a)) (items : List α) :
    Steady p c c' (items.mapM f) := by
  induction items with
  | nil => exact steady_pure _
  | cons a items ih =>
    rw [List.mapM_cons]
    exact (h a).bind fun _ => ih.bind fun _ => steady_pure _

end Compilation

/-! ## Listings -/

namespace Lookup

open Compilation

variable {α β : Type} {p : Policy} {c c' : Catalogue}

/-- A step of a task is steady whatever listings the task remembers. -/
def Steady (p : Policy) (c c' : Catalogue) (x : Lookup α) : Prop :=
  ∀ listings, Compilation.Steady p c c' (x.run listings)

theorem steady_pure (a : α) : Steady p c c' (pure a : Lookup α) :=
  fun _ => Compilation.steady_pure _

theorem Steady.bind {x : Lookup α} (hx : Steady p c c' x) {next : α → Lookup β}
    (hnext : ∀ a, Steady p c c' (next a)) : Steady p c c' (x >>= next) := by
  intro listings
  rw [StateT.run_bind]
  exact (hx listings).bind fun outcome => hnext outcome.1 outcome.2

theorem steady_ask {r : Request} (h : Compilation.Steady p c c' (request r)) :
    Steady p c c' (ask r) :=
  fun _ => h.bind fun _ => Compilation.steady_pure _

theorem steady_get : Steady p c c' (get : Lookup Listings) :=
  fun _ => Compilation.steady_pure _

theorem steady_modify (f : Listings → Listings) : Steady p c c' (modify f) :=
  fun _ => Compilation.steady_pure _

theorem steady_nameEntries (location : Location) (entries : List Entry) :
    Steady p c c' (nameEntries location entries) := by
  induction entries with
  | nil => exact steady_pure _
  | cons e rest ih =>
    rw [nameEntries]
    refine (steady_ask (steady_inferName location e)).bind fun name => ih.bind fun named => ?_
    cases name <;> exact steady_pure _

theorem steady_find {location : Location}
    (h : ∀ package kinds, Compilation.Steady p c c' (request (.list location package kinds)))
    (package name : String) : Steady p c c' (find location package name) := by
  refine Steady.bind ?_ fun _ => steady_pure _
  refine steady_get.bind fun listings => ?_
  split
  · exact steady_pure _
  · refine (steady_ask (h package _)).bind fun entries => ?_
    refine (steady_nameEntries location entries).bind fun named => ?_
    exact (steady_modify _).bind fun _ => steady_pure _

theorem steady_findAmong (package name : String) {locations : List Location}
    (h : ∀ location ∈ locations, ∀ package kinds,
      Compilation.Steady p c c' (request (.list location package kinds))) :
    Steady p c c' (findAmong package name locations) := by
  induction locations with
  | nil => exact steady_pure _
  | cons location rest ih =>
    obtain ⟨hfirst, hrest⟩ := List.forall_mem_cons.1 h
    rw [findAmong]
    refine (steady_find hfirst package name).bind fun found => ?_
    cases found with
    | none => exact ih hrest
    | some found => exact steady_pure _

theorem steady_answer (h : Indistinct p c c') (question : Question) :
    Steady p c c' (answer question) := by
  cases question with
  | onClassPath package name => exact steady_find (steady_classPath h) package name
  | inModules package name =>
    intro listings
    refine steady_moduleLocations_bind h ?_
    refine steady_findAmong package name ?_ listings
    intro location hlocation
    rw [Catalogue.moduleLocations, mem_inOrder] at hlocation
    have hmodule := (List.mem_filter.1 hlocation).2
    cases location with
    | systemModule m => exact steady_systemModule h m
    | _ => exact absurd hmodule (by simp [Location.isSystemModule])

end Lookup

theorem Query.steady_serve {α : Type} {p : Policy} {c c' : Catalogue} (h : Indistinct p c c')
    (q : Query α) : Lookup.Steady p c c' q.serve := by
  induction q with
  | done a => exact Lookup.steady_pure a
  | ask question resume ih => exact (Lookup.steady_answer h question).bind ih
  | report d rest ih =>
    exact (Lookup.steady_ask (Compilation.steady_report d)).bind fun _ => ih

/-! ## The built-in toolchain -/

namespace Builtin

open Compilation

variable {p : Policy} {c c' : Catalogue}

theorem steady_anyErrors : Steady p c c' anyErrors :=
  steady_reported.bind fun _ => steady_pure _

theorem steady_write (u : PluginUnit) (m : Module) : Steady p c c' (write u m) := by
  refine (steady_output _ _ _ _).bind fun result => ?_
  cases result with
  | ok => exact steady_pure _
  | error e => exact (steady_report _).bind fun _ => steady_pure _

theorem steady_writeAll (modules : List (PluginUnit × Module)) :
    Steady p c c' (writeAll modules) := by
  have hwrite : ∀ compiled : PluginUnit × Module, Steady p c c' (write compiled.1 compiled.2) :=
    fun compiled => steady_write compiled.1 compiled.2
  have hend : Steady p c c' (do return !(← anyErrors)) :=
    steady_anyErrors.bind fun _ => steady_pure _
  rw [writeAll]
  refine steady_anyErrors.bind fun errors => ?_
  cases errors with
  | true => exact steady_pure false
  | false => exact (steady_forM hwrite modules).bind fun _ => hend

theorem steady_parse (u : PluginUnit) : Steady p c c' (parse u) := by
  have hreport : ∀ e : SyntaxError, Steady p c c' (do
      let _ ← request (.report (syntaxDiagnostic u e))) :=
    fun e => steady_report (syntaxDiagnostic u e)
  exact (steady_forM hreport _).bind fun _ => steady_pure _

/-- The built-in toolchain does the same with a catalogue that a session cannot tell apart. -/
theorem steady_compile (h : Indistinct p c c') (units : List PluginUnit) :
    Steady p c c' (compile units) := by
  refine (steady_mapM steady_parse units).bind fun parsed => ?_
  exact (Query.steady_serve h _ []).bind fun outcome => steady_writeAll _

end Builtin
end PluginSandbox
