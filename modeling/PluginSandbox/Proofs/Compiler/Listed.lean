import Mathlib.Data.List.Nodup
import PluginSandbox.Proofs.Compiler.Passes
import PluginSandbox.Proofs.Compiler.Task

/-!
# The listings of a task

A task asks the session for a listing when a question first makes it necessary, and remembers it.  So the decisions
that it leaves are those of the listings that it remembers in the end, each once, and these are the listings that its
questions make necessary (`Resolver.consulted`), whichever question came first.
-/

namespace PluginSandbox

/-! ## What a question makes necessary -/

namespace Resolver

/-- The packages at some locations that are listed until one of them has a name. -/
def consultedAmong (r : Resolver) (package name : String) : List Location → List (Location × String)
  | [] => []
  | location :: rest =>
    (location, package) ::
      if (r.foundAt package name location).isSome then [] else r.consultedAmong package name rest

/-- The packages that are listed for the answer to a question. -/
def consulted (r : Resolver) : Question → List (Location × String)
  | .onClassPath package _ => [(.classPath, package)]
  | .inModules package name => r.consultedAmong package name r.moduleLocations

/-- The decision on a package at a location that a task asks for. -/
def decision (r : Resolver) (key : Location × String) : Decision where
  realm := key.1.realm
  package := key.2
  kinds := Lookup.kindsAt key.1
  verdict := (r.decide key.1 key.2 (Lookup.kindsAt key.1)).1
  entries := (r.decide key.1 key.2 (Lookup.kindsAt key.1)).2.length

end Resolver

/-- The questions that a check asks when their answers are known. -/
def Query.asked {α : Type} (answer : Question → Found) : Query α → List Question
  | .done _ => []
  | .ask question resume => question :: (resume (answer question)).asked answer
  | .report _ rest => rest.asked answer

theorem Query.asked_bind {α β : Type} {m : Meaning} (q : Query α) (next : α → Query β) :
    (q >>= next).asked m = q.asked m ++ (next (q.under m).1).asked m := by
  show (q.bind next).asked m = _
  induction q with
  | done a => rfl
  | ask question resume ih => exact congrArg (question :: ·) (ih (m question))
  | report d rest ih => exact ih

/-! ## Steps of a task -/

namespace Lookup

variable {α β : Type} {r : Resolver}

/-- What a step has added to the listings that a task remembers: some packages that it did not remember, each once,
with their decisions. -/
structure Added (r : Resolver) (w : Workspace) (listings : Listings) (new : Listings) (w' : Workspace) : Prop where
  decisions : w'.resolver.decisions =
    w.resolver.decisions ++ (new.reverse.map fun e => r.decision e.1).toArray
  nodup : (new.map Prod.fst).Nodup
  fresh : (new.map Prod.fst).Disjoint (listings.map Prod.fst)

/-- After a step a task remembers the listings of some packages as well. -/
def Lists (r : Resolver) (x : Lookup α) (keys : List (Location × String)) : Prop :=
  ∀ (w : Workspace) (listings : Listings) (a : α) (listings' : Listings) (w' : Workspace),
    r.Asked w.resolver → Sound r listings → (x.run listings).run w = (.done (a, listings'), w') →
    ∃ new, listings' = new ++ listings ∧ Added r w listings new w' ∧
      ∀ key, key ∈ (new ++ listings).map Prod.fst ↔ key ∈ listings.map Prod.fst ∨ key ∈ keys

theorem Added.trans {w w' w'' : Workspace} {listings new more : Listings} (h : Added r w listings new w')
    (h' : Added r w' (new ++ listings) more w'') : Added r w listings (more ++ new) w'' := by
  have hfresh := h'.fresh
  rw [List.map_append, List.disjoint_append_right] at hfresh
  constructor
  · rw [h'.decisions, h.decisions]
    simp
  · rw [List.map_append]
    exact h'.nodup.append h.nodup hfresh.1
  · rw [List.map_append, List.disjoint_append_left]
    exact ⟨hfresh.2, h.fresh⟩

theorem Lists.bind {x : Lookup α} {a : α} {ds : List Diagnostic} {keys keys' : List (Location × String)}
    (hx : Gives r x a ds) (hkeys : Lists r x keys) {next : α → Lookup β} (hnext : Lists r (next a) keys') :
    Lists r (x >>= next) (keys ++ keys') := by
  intro w listings b listings' w' hw hlistings hrun
  obtain ⟨r₁, listings₁, hr₁, hlistings₁, hrun₁⟩ := hx w listings hw hlistings
  obtain ⟨new, rfl, hadded, hmem⟩ := hkeys w listings a listings₁ _ hw hlistings hrun₁
  rw [StateT.run_bind, Compilation.run_bind_of_done hrun₁] at hrun
  obtain ⟨more, rfl, hadded', hmem'⟩ := hnext _ _ _ _ _ hr₁ hlistings₁ hrun
  refine ⟨more ++ new, (List.append_assoc _ _ _).symm, hadded.trans hadded', fun key => ?_⟩
  rw [List.append_assoc, hmem', hmem, List.mem_append, or_assoc]

/-- A step that remembers nothing new and leaves no decision. -/
theorem lists_quiet {x : Lookup α}
    (h : ∀ (w : Workspace) (listings : Listings), ∃ a w', (x.run listings).run w = (.done (a, listings), w') ∧
      w'.resolver.decisions = w.resolver.decisions) : Lists r x [] := by
  intro w listings a listings' w' _ _ hrun
  obtain ⟨b, w₁, hrun₁, hdecisions⟩ := h w listings
  obtain ⟨hend, rfl⟩ := Prod.mk.inj (hrun.symm.trans hrun₁)
  obtain ⟨_, rfl⟩ := Prod.mk.inj (CompilationEnd.done.inj hend)
  exact ⟨[], rfl, ⟨by simp [hdecisions], List.nodup_nil, List.disjoint_nil_left _⟩, by simp⟩

theorem lists_pure (a : α) : Lists r (pure a : Lookup α) [] :=
  lists_quiet fun w _ => ⟨a, w, rfl, rfl⟩

theorem lists_moduleLocations : Lists r (ask .moduleLocations) [] :=
  lists_quiet fun w _ => ⟨_, w, rfl, rfl⟩

theorem lists_report (d : Diagnostic) : Lists r (ask (.report d)) [] :=
  lists_quiet fun _ _ => ⟨_, _, rfl, rfl⟩

/-- Naming the entries of a listing leaves no trace. -/
theorem run_nameEntries (location : Location) (entries : List Entry) (w : Workspace) (listings : Listings) :
    ((nameEntries location entries).run listings).run w =
      (.done (entries.map fun e => (e.qualifiedName, e), listings), w) := by
  induction entries with
  | nil => rfl
  | cons e rest ih =>
    have hname : ((ask (.inferName location e)).run listings).run w =
        (.done (some e.qualifiedName, listings), w) := by
      rw [← Resolver.inferName?_eq]
      rfl
    rw [nameEntries, StateT.run_bind, Compilation.run_bind_of_done hname, StateT.run_bind,
      Compilation.run_bind_of_done ih]
    rfl

/-- A listing that is remembered leaves no trace; any other one is asked for and remembered. -/
theorem run_listing (location : Location) (package : String) (listings : Listings) (w : Workspace) :
    ((listing location package).run listings).run w =
      match listings.lookup (location, package) with
      | some named => (.done (named, listings), w)
      | none =>
        let entries := (w.resolver.list location package (kindsAt location)).1
        let named := entries.map fun e => (e.qualifiedName, e)
        (.done (named, ((location, package), named) :: listings),
          { w with resolver := (w.resolver.list location package (kindsAt location)).2 }) := by
  have hget : (listing location package).run listings =
      (match listings.lookup (location, package) with
        | some entries => (pure entries : Lookup NamedEntries)
        | none => do
          let entries ← ask (.list location package (kindsAt location))
          let named ← nameEntries location entries
          modify fun listings => ((location, package), named) :: listings
          return named).run listings := rfl
  rw [hget]
  cases listings.lookup (location, package) with
  | some named => rfl
  | none =>
    have hlist : ((ask (.list location package (kindsAt location))).run listings).run w =
        (.done ((w.resolver.list location package (kindsAt location)).1, listings),
          { w with resolver := (w.resolver.list location package (kindsAt location)).2 }) := rfl
    dsimp only
    rw [StateT.run_bind, Compilation.run_bind_of_done hlist, StateT.run_bind,
      Compilation.run_bind_of_done (run_nameEntries _ _ _ _)]
    rfl

theorem lists_listing (location : Location) (package : String) :
    Lists r (listing location package) [(location, package)] := by
  intro w listings named listings' w' hw hlistings hrun
  have hrun' := run_listing location package listings w
  cases hlookup : listings.lookup (location, package) with
  | some remembered =>
    rw [hlookup] at hrun'
    obtain ⟨hend, rfl⟩ := Prod.mk.inj (hrun.symm.trans hrun')
    obtain ⟨_, rfl⟩ := Prod.mk.inj (CompilationEnd.done.inj hend)
    have hmem : (location, package) ∈ listings'.map Prod.fst := by
      obtain ⟨before, after, rfl, _⟩ := List.lookup_eq_some_iff.1 hlookup
      simp
    refine ⟨[], rfl, ⟨by simp, List.nodup_nil, List.disjoint_nil_left _⟩, fun key => ?_⟩
    rw [List.nil_append, List.mem_singleton]
    exact (or_iff_left_of_imp fun heq => heq ▸ hmem).symm
  | none =>
    rw [hlookup] at hrun'
    obtain ⟨hend, rfl⟩ := Prod.mk.inj (hrun.symm.trans hrun')
    obtain ⟨_, rfl⟩ := Prod.mk.inj (CompilationEnd.done.inj hend)
    obtain ⟨decisions, trail, hresolver⟩ := hw
    have hfresh : (location, package) ∉ listings.map Prod.fst := by
      intro hmem
      obtain ⟨e, he, heq⟩ := List.mem_map.1 hmem
      exact absurd heq.symm (by simpa using List.lookup_eq_none_iff.1 hlookup e he)
    refine ⟨[((location, package), _)], rfl, ⟨?_, List.nodup_singleton _, ?_⟩, fun key => ?_⟩
    · rw [hresolver]
      rfl
    · rw [List.map_singleton, List.singleton_disjoint]
      exact hfresh
    · simp [or_comm]

theorem lists_find (location : Location) (package name : String) :
    Lists r (find location package name) [(location, package)] := by
  rw [find]
  exact Lists.bind (gives_listing location package) (lists_listing location package) (lists_pure _)

theorem lists_findAmong (package name : String) (locations : List Location) :
    Lists r (findAmong package name locations) (r.consultedAmong package name locations) := by
  induction locations with
  | nil => exact lists_pure none
  | cons location rest ih =>
    rw [findAmong, Resolver.consultedAmong]
    refine Lists.bind (gives_find location package name) (lists_find location package name) ?_
    cases r.foundAt package name location with
    | none => exact ih
    | some found => exact lists_pure (some found)

theorem lists_answer (question : Question) : Lists r (answer question) (r.consulted question) := by
  cases question with
  | onClassPath package name => exact lists_find .classPath package name
  | inModules package name =>
    exact Lists.bind gives_moduleLocations lists_moduleLocations (lists_findAmong package name r.moduleLocations)

end Lookup

/-- Serving a check remembers the listings that its questions make necessary. -/
theorem Query.lists_serve {α : Type} (r : Resolver) (q : Query α) :
    Lookup.Lists r q.serve ((q.asked r.meaning).flatMap r.consulted) := by
  induction q with
  | done a => exact Lookup.lists_pure a
  | ask question resume ih =>
    exact Lookup.Lists.bind (Lookup.gives_answer question) (Lookup.lists_answer question) (ih (r.meaning question))
  | report d rest ih => exact Lookup.Lists.bind (Lookup.gives_report d) (Lookup.lists_report d) ih

/-! ## The whole task -/

namespace Builtin

/-- The questions that the checker asks for a unit. -/
def questions (m : Meaning) (siblings : Signatures) (u : PluginUnit) : List Question :=
  ((Checker.unit u siblings (ParsedUnit.ofSource u.source).1).run []).asked m

/-- The questions for some units are those for one after the other. -/
theorem asked_units {m : Meaning} {siblings : Signatures} (units : List PluginUnit) (bs : List Binding) :
    ((Checker.units siblings (parsed units)).run bs).asked m = units.flatMap (questions m siblings) := by
  induction units generalizing bs with
  | nil => rfl
  | cons u units ih =>
    have hforget : (Checker.unit u siblings (ParsedUnit.ofSource u.source).1).run bs =
        (Checker.unit u siblings (ParsedUnit.ofSource u.source).1).run [] := rfl
    have hrest := ih (((Checker.unit u siblings (ParsedUnit.ofSource u.source).1).run []).under m).1.2
    rw [parsed] at hrest
    rw [parsed, List.map_cons, Checker.units, StateT.run_bind, Query.asked_bind, hforget, StateT.run_bind,
      Query.asked_bind, hrest, List.flatMap_cons, questions]
    refine congrArg _ ?_
    -- Putting the modules together asks nothing.
    cases (((Checker.unit u siblings (ParsedUnit.ofSource u.source).1).run []).under m).1.1 with
    | none => exact List.append_nil _
    | some compiled => exact List.append_nil _

/-- Writing output is no listing, whether it is refused or not. -/
theorem decisions_writeAll (modules : List (PluginUnit × Module)) (w : Workspace) :
    ((writeAll modules).run w).2.resolver.decisions = w.resolver.decisions := by
  cases herrors : hasErrors w.diagnostics with
  | true =>
    rw [writeAll, Compilation.run_bind_of_done (run_anyErrors w), herrors]
    rfl
  | false =>
    obtain ⟨s', ds, hrun⟩ := exists_run_writeAll modules w.resolver.artifacts
    obtain ⟨trail, hrun⟩ := hrun w rfl herrors
    rw [hrun]

/-- The decisions that a task adds are those on the packages that the questions for its units make necessary, each
once. -/
theorem decisions_compile (units : List PluginUnit) (w : Workspace) :
    ∃ keys : List (Location × String), keys.Nodup ∧
      (∀ key, key ∈ keys ↔ key ∈
        (units.flatMap (questions w.resolver.meaning (signatures units))).flatMap w.resolver.consulted) ∧
      ((compile units).run w).2.resolver.decisions =
        w.resolver.decisions ++ (keys.map w.resolver.decision).toArray := by
  let q := (Checker.units (signatures units) (parsed units)).run []
  let w₀ : Workspace := { w with diagnostics := w.diagnostics ++ (syntaxDiagnostics units).toArray }
  obtain ⟨r', listings, _, _, hserve⟩ := Query.gives_serve w.resolver q w₀ [] (.refl w.resolver)
    Lookup.sound_nil
  obtain ⟨new, rfl, hadded, hmem⟩ := Query.lists_serve w.resolver q w₀ [] _ _ _ (.refl w.resolver)
    Lookup.sound_nil hserve
  have hrun : (compile units).run w = (writeAll (q.under w.resolver.meaning).1.1).run
      { resolver := r', diagnostics := w₀.diagnostics ++ (q.under w.resolver.meaning).2.toArray } := by
    rw [compile, Compilation.run_bind_of_done (run_parses units w)]
    exact Compilation.run_bind_of_done hserve _
  refine ⟨(new.map Prod.fst).reverse, List.nodup_reverse.2 hadded.nodup, fun key => ?_, ?_⟩
  · rw [List.append_nil] at hmem
    rw [List.mem_reverse, hmem, asked_units]
    simp
  · rw [hrun, decisions_writeAll]
    refine hadded.decisions.trans ?_
    rw [List.map_reverse, List.map_reverse, List.map_map]
    rfl

end Builtin
end PluginSandbox
