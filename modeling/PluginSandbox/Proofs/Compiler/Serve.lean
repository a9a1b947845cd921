import PluginSandbox.Compiler.Listing
import PluginSandbox.Compiler.Meaning
import PluginSandbox.Proofs.Toolchain

/-!
# Serving checks

A task answers the questions of a check from its listings, and the answers are what the session means by
them: serving a check comes to what the check is under the session's meaning (`Query.gives_serve`).  All that
is left behind in the session are decisions, audit events and the diagnostics of the check.

`Lookup.Gives` says what a step of a task comes to, whatever the session has decided before and whatever
listings the task remembers, as long as these are listings of the session (`Lookup.Sound`).
-/

namespace PluginSandbox

namespace Resolver

/-- A resolver that has been asked for listings since. -/
def Asked (r r' : Resolver) : Prop :=
  ∃ decisions trail, r' = { r with decisions, trail }

theorem Asked.refl (r : Resolver) : r.Asked r :=
  ⟨r.decisions, r.trail, rfl⟩

theorem Asked.list {r r' : Resolver} (h : r.Asked r') (location : Location) (package : String)
    (kinds : List EntryKind) :
    (r'.list location package kinds).1 = (r.decide location package kinds).2 ∧
      r.Asked (r'.list location package kinds).2 := by
  obtain ⟨decisions, trail, rfl⟩ := h
  exact ⟨rfl, _, _, rfl⟩

theorem inferName?_eq (e : Entry) : inferName? e = some e.qualifiedName := by
  cases e <;> rfl

/-- The named entries of a listing. -/
def namedEntries (r : Resolver) (location : Location) (package : String) : NamedEntries :=
  (r.decide location package (Lookup.kindsAt location)).2.map fun e => (e.qualifiedName, e)

/-- The first of the named entries that has a name is the entry of that name. -/
theorem find?_namedEntries (r : Resolver) (location : Location) (package name : String) :
    ((r.namedEntries location package).find? fun e => e.1 = qualify package name).map
      (fun e => (location, e.2)) = r.foundAt package name location := by
  rw [namedEntries, List.find?_map, Option.map_map]
  rfl

end Resolver

namespace Lookup

variable {α β : Type} {r : Resolver}

/-- Every remembered listing is one of the session. -/
def Sound (r : Resolver) (listings : Listings) : Prop :=
  ∀ location package named, listings.lookup (location, package) = some named →
    named = r.namedEntries location package

theorem sound_nil : Sound r [] :=
  fun _ _ _ h => absurd h (by simp)

/-- A step of a task comes to a result and reports some diagnostics. -/
def Gives (r : Resolver) (x : Lookup α) (a : α) (ds : List Diagnostic) : Prop :=
  ∀ (w : Workspace) (listings : Listings), r.Asked w.resolver → Sound r listings →
    ∃ r' listings', r.Asked r' ∧ Sound r listings' ∧
      (x.run listings).run w =
        (.done (a, listings'), { resolver := r', diagnostics := w.diagnostics ++ ds.toArray })

theorem gives_pure (a : α) : Gives r (pure a : Lookup α) a [] := by
  intro w listings hw hlistings
  refine ⟨w.resolver, listings, hw, hlistings, ?_⟩
  rw [Array.append_empty]
  rfl

theorem Gives.bind {x : Lookup α} {a : α} {ds : List Diagnostic} (hx : Gives r x a ds)
    {next : α → Lookup β} {b : β} {es : List Diagnostic} (hnext : Gives r (next a) b es) :
    Gives r (x >>= next) b (ds ++ es) := by
  intro w listings hw hlistings
  obtain ⟨r₁, listings₁, hr₁, hlistings₁, hrun₁⟩ := hx w listings hw hlistings
  obtain ⟨r₂, listings₂, hr₂, hlistings₂, hrun₂⟩ :=
    hnext { resolver := r₁, diagnostics := w.diagnostics ++ ds.toArray } listings₁ hr₁ hlistings₁
  refine ⟨r₂, listings₂, hr₂, hlistings₂, ?_⟩
  rw [StateT.run_bind, Compilation.run_bind_of_done hrun₁, hrun₂]
  simp [Array.append_assoc]

theorem Gives.bind_quiet {x : Lookup α} {a : α} (hx : Gives r x a []) {next : α → Lookup β} {b : β}
    {es : List Diagnostic} (hnext : Gives r (next a) b es) : Gives r (x >>= next) b es :=
  hx.bind hnext

/-! ## Requests -/

theorem gives_moduleLocations : Gives r (ask .moduleLocations) r.moduleLocations [] := by
  intro w listings hw hlistings
  obtain ⟨resolver, diagnostics⟩ := w
  obtain ⟨decisions, trail, rfl⟩ := hw
  exact ⟨_, listings, ⟨decisions, trail, rfl⟩, hlistings, by rw [Array.append_empty]; rfl⟩

theorem gives_list (location : Location) (package : String) (kinds : List EntryKind) :
    Gives r (ask (.list location package kinds)) (r.decide location package kinds).2 [] := by
  intro w listings hw hlistings
  obtain ⟨hentries, hasked⟩ := hw.list location package kinds
  refine ⟨_, listings, hasked, hlistings, ?_⟩
  rw [← hentries, Array.append_empty]
  rfl

theorem gives_inferName (location : Location) (e : Entry) :
    Gives r (ask (.inferName location e)) (some e.qualifiedName) [] := by
  intro w listings hw hlistings
  refine ⟨w.resolver, listings, hw, hlistings, ?_⟩
  rw [← Resolver.inferName?_eq, Array.append_empty]
  rfl

theorem gives_report (d : Diagnostic) : Gives r (ask (.report d)) () [d] := by
  intro w listings hw hlistings
  exact ⟨w.resolver, listings, hw, hlistings, rfl⟩

/-! ## Listings -/

theorem gives_nameEntries (location : Location) (entries : List Entry) :
    Gives r (nameEntries location entries) (entries.map fun e => (e.qualifiedName, e)) [] := by
  induction entries with
  | nil => exact gives_pure []
  | cons e rest ih =>
    rw [nameEntries]
    exact (gives_inferName location e).bind_quiet (ih.bind_quiet (gives_pure _))

theorem gives_get_bind {next : Listings → Lookup β} {b : β} {es : List Diagnostic}
    (h : ∀ listings, Sound r listings → Gives r (next listings) b es) :
    Gives r (get >>= next) b es := by
  intro w listings hw hlistings
  exact h listings hlistings w listings hw hlistings

theorem gives_modify {f : Listings → Listings} (h : ∀ listings, Sound r listings → Sound r (f listings)) :
    Gives r (modify f) PUnit.unit [] := by
  intro w listings hw hlistings
  refine ⟨w.resolver, f listings, hw, h listings hlistings, ?_⟩
  rw [Array.append_empty]
  rfl

theorem Sound.cons {listings : Listings} (h : Sound r listings) (location : Location)
    (package : String) :
    Sound r (((location, package), r.namedEntries location package) :: listings) := by
  intro l p named hnamed
  rw [List.lookup_cons] at hnamed
  split at hnamed
  · next heq =>
    obtain ⟨rfl, rfl⟩ := Prod.mk.inj (beq_iff_eq.1 heq)
    exact (Option.some.inj hnamed).symm
  · exact h l p named hnamed

/-- A listing is that of the session, remembered or not. -/
theorem gives_listing (location : Location) (package : String) :
    Gives r (listing location package) (r.namedEntries location package) [] := by
  refine gives_get_bind ?_
  intro listings hlistings
  split
  · next named hnamed =>
    rw [hlistings location package named hnamed]
    exact gives_pure _
  · refine (gives_list location package (kindsAt location)).bind_quiet ?_
    refine (gives_nameEntries location _).bind_quiet ?_
    refine (gives_modify ?_).bind_quiet (gives_pure _)
    intro listings hlistings
    exact hlistings.cons location package

/-- A name is found at a location if the session lists it there. -/
theorem gives_find (location : Location) (package name : String) :
    Gives r (find location package name) (r.foundAt package name location) [] := by
  refine (gives_listing location package).bind_quiet ?_
  rw [r.find?_namedEntries location package name]
  exact gives_pure _

theorem gives_findAmong (package name : String) (locations : List Location) :
    Gives r (findAmong package name locations) (locations.findSome? (r.foundAt package name)) [] := by
  induction locations with
  | nil => exact gives_pure none
  | cons location rest ih =>
    rw [findAmong, List.findSome?_cons]
    refine (gives_find location package name).bind_quiet ?_
    cases r.foundAt package name location with
    | none => exact ih
    | some found => exact gives_pure (some found)

/-- The answer to a question is what the session means. -/
theorem gives_answer (question : Question) :
    Gives r (answer question) (r.meaning question) [] := by
  cases question with
  | onClassPath package name => exact gives_find .classPath package name
  | inModules package name =>
    exact gives_moduleLocations.bind_quiet (gives_findAmong package name r.moduleLocations)

end Lookup

/-- Serving a check comes to what the check is under what the session means. -/
theorem Query.gives_serve {α : Type} (r : Resolver) (q : Query α) :
    Lookup.Gives r q.serve (q.under r.meaning).1 (q.under r.meaning).2 := by
  induction q with
  | done a => exact Lookup.gives_pure a
  | ask question resume ih =>
    exact (Lookup.gives_answer question).bind_quiet (ih (r.meaning question))
  | report d rest ih => exact (Lookup.gives_report d).bind ih

end PluginSandbox
