import PluginSandbox.Proofs.Compiler.Listed
import PluginSandbox.Proofs.Resolver.DefaultDeny

/-!
# Remembered listings against asking anew

A task remembers the listings that it has asked for, and finds names in what it remembers.  The plain way to find a
name remembers nothing: it asks the session for the listing and for the name of every entry, each time
(`Compilation.find`, `Compilation.findAmong`).

A task goes through *moments* (`Builtin.moments`): before each look-up that it makes, before the look-up at each
location of a look-up in the modules of the platform, before each report, and at its end.  At all of them a look-up
comes to the same in both ways (`Moment.Agrees`), since what a session answers does not change while it is asked.
-/

namespace PluginSandbox

/-! ## Asking anew -/

namespace Compilation

/-- The entries of a listing that have a name, which the session is asked for. -/
def nameEntries (location : Location) : List Entry → Compilation NamedEntries
  | [] => return []
  | entry :: rest => do
    let name ← request (.inferName location entry)
    let named ← nameEntries location rest
    match name with
    | some name => return (name, entry) :: named
    | none => return named

/-- The entry of a name in a package at a location, with the location: the session is asked for the listing. -/
def find (location : Location) (package name : String) : Compilation Found := do
  let entries ← request (.list location package (Lookup.kindsAt location))
  let named ← nameEntries location entries
  return (named.find? fun e => e.1 = qualify package name).map fun e => (location, e.2)

/-- The entry of a name in a package at the first of some locations that has one. -/
def findAmong (package name : String) : List Location → Compilation Found
  | [] => return none
  | location :: rest => do
    match ← find location package name with
    | some found => return some found
    | none => findAmong package name rest

end Compilation

/-- A look-up that a task can make: of a name in a package at a location, in the first module of the platform that has
the package, or on the class path and else in the modules of the platform. -/
inductive LookUp where
  | located (location : Location) (package name : String)
  | inModules (package name : String)
  | anywhere (package name : String)
  deriving DecidableEq

namespace LookUp

/-- A look-up in what a task remembers. -/
def remembering : LookUp → Lookup Found
  | .located location package name => Lookup.find location package name
  | .inModules package name => Lookup.answer (.inModules package name)
  | .anywhere package name => do
    return (← ((Checker.findAnywhere package name).run []).serve).1

/-- A look-up that asks the session anew. -/
def anew : LookUp → Compilation Found
  | .located location package name => Compilation.find location package name
  | .inModules package name => do
    Compilation.findAmong package name (← Compilation.request .moduleLocations)
  | .anywhere package name => do
    match ← Compilation.find .classPath package name with
    | some found => return some found
    | none => Compilation.findAmong package name (← Compilation.request .moduleLocations)

/-- What a look-up finds in a session. -/
def found (r : Resolver) : LookUp → Found
  | .located location package name => r.foundAt package name location
  | .inModules package name => r.meaning (.inModules package name)
  | .anywhere package name => r.meaning.anywhere package name

end LookUp

namespace Compilation

theorem run_nameEntries (location : Location) (entries : List Entry) (w : Workspace) :
    (nameEntries location entries).run w = (.done (entries.map fun e => (e.qualifiedName, e)), w) := by
  induction entries with
  | nil => rfl
  | cons e rest ih =>
    have hname : (request (.inferName location e)).run w = (.done (some e.qualifiedName), w) := by
      rw [← Resolver.inferName?_eq]
      rfl
    rw [nameEntries, run_bind_of_done hname, run_bind_of_done ih]
    rfl

/-- Asking anew finds what the session has, and is a listing. -/
theorem run_find (location : Location) (package name : String) (w : Workspace) :
    (find location package name).run w = (.done (w.resolver.foundAt package name location),
      { w with resolver := (w.resolver.list location package (Lookup.kindsAt location)).2 }) := by
  have hlist : (request (.list location package (Lookup.kindsAt location))).run w =
      (.done (w.resolver.decide location package (Lookup.kindsAt location)).2,
        { w with resolver := (w.resolver.list location package (Lookup.kindsAt location)).2 }) := rfl
  rw [find, run_bind_of_done hlist, run_bind_of_done (run_nameEntries location _ _), ← w.resolver.find?_namedEntries]
  rfl

theorem run_findAmong (package name : String) (locations : List Location) (w : Workspace) :
    ∃ w', (findAmong package name locations).run w =
      (.done (locations.findSome? (w.resolver.foundAt package name)), w') := by
  induction locations generalizing w with
  | nil => exact ⟨w, rfl⟩
  | cons location rest ih =>
    rw [findAmong, run_bind_of_done (run_find location package name w), List.findSome?_cons]
    cases w.resolver.foundAt package name location with
    | some found => exact ⟨_, rfl⟩
    | none => exact ih _

end Compilation

namespace LookUp

variable {r : Resolver}

/-- What a session has does not change while it is asked. -/
theorem found_of_asked {r' : Resolver} (h : r.Asked r') (l : LookUp) : l.found r' = l.found r := by
  obtain ⟨decisions, trail, rfl⟩ := h
  cases l <;> rfl

/-- A look-up that asks anew finds what the session has. -/
theorem run_anew (l : LookUp) (w : Workspace) : ∃ w', l.anew.run w = (.done (l.found w.resolver), w') := by
  cases l with
  | located location package name => exact ⟨_, Compilation.run_find location package name w⟩
  | inModules package name => exact Compilation.run_findAmong package name w.resolver.moduleLocations w
  | anywhere package name =>
    rw [anew, Compilation.run_bind_of_done (Compilation.run_find .classPath package name w)]
    have hfound : (LookUp.anywhere package name).found w.resolver =
        (w.resolver.foundAt package name .classPath).or (w.resolver.meaning (.inModules package name)) := rfl
    rw [hfound]
    cases w.resolver.foundAt package name .classPath with
    | some found => exact ⟨_, rfl⟩
    | none => exact Compilation.run_findAmong package name w.resolver.moduleLocations _

/-- A look-up in what a task remembers finds what the session has. -/
theorem gives_remembering (l : LookUp) : Lookup.Gives r l.remembering (l.found r) [] := by
  cases l with
  | located location package name => exact Lookup.gives_find location package name
  | inModules package name => exact Lookup.gives_answer (.inModules package name)
  | anywhere package name =>
    have hserve := Query.gives_serve r ((Checker.findAnywhere package name).run [])
    rw [Checker.under_findAnywhere] at hserve
    exact hserve.bind_quiet (Lookup.gives_pure _)

end LookUp

/-! ## The moments of a task -/

/-- A moment of a task: what it works on, and the listings that it remembers. -/
structure Moment where
  workspace : Workspace
  listings : Listings

namespace Moment

variable {α : Type} {r : Resolver}

/-- How a step of a task ends that is made at a moment, and the moment behind it. -/
def perform (t : Moment) (x : Lookup α) : CompilationEnd α × Moment :=
  match (x.run t.listings).run t.workspace with
  | (.done (a, listings), w) => (.done a, ⟨w, listings⟩)
  | (.crashed text, w) => (.crashed text, ⟨w, []⟩)

/-- At a moment every look-up finds the same in what the task remembers as if the session were asked anew. -/
def Agrees (t : Moment) : Prop :=
  ∀ l : LookUp, ∃ found, (t.perform l.remembering).1 = .done found ∧ (l.anew.run t.workspace).1 = .done found

/-- The moments of a look-up at some locations: before the look-up at each of them until one has the name, and
behind the last. -/
def among (package name : String) : List Location → Moment → List Moment
  | [], t => [t]
  | location :: rest, t =>
    t :: match t.perform (Lookup.find location package name) with
      | (.done none, behind) => among package name rest behind
      | (_, behind) => [behind]

/-- The moments of the answer to a question. -/
def answering (t : Moment) : Question → List Moment
  | .onClassPath package name => among package name [.classPath] t
  | .inModules package name => among package name t.workspace.resolver.moduleLocations t

end Moment

/-- The moments of a task while it serves a check. -/
def Query.moments {α : Type} : Query α → Moment → List Moment
  | .done _, t => [t]
  | .ask question resume, t =>
    t.answering question ++
      match t.perform (Lookup.answer question) with
      | (.done found, behind) => (resume found).moments behind
      | (.crashed _, _) => []
  | .report d rest, t =>
    t :: rest.moments { t with workspace := (t.workspace.answer (.report d)).2 }

/-- The moments of a task while it looks names up: from when it has parsed its units until it writes output. -/
def Builtin.moments (units : List PluginUnit) (w : Workspace) : List Moment :=
  match (units.mapM parse).run w with
  | (.done parsed, w') =>
    ((Checker.units (parsed.map fun (u, p) => (u.qualifiedName, p.signatures)) parsed).run []).moments ⟨w', []⟩
  | (.crashed _, _) => []

namespace Moment

variable {α : Type} {r : Resolver}

/-- A moment of a task of a session: all that has changed in the session was asked for, and what the task remembers
are listings of the session. -/
structure Of (r : Resolver) (t : Moment) : Prop where
  asked : r.Asked t.workspace.resolver
  sound : Lookup.Sound r t.listings

theorem perform_of_gives {t : Moment} (h : t.Of r) {x : Lookup α} {a : α} {ds : List Diagnostic}
    (hx : Lookup.Gives r x a ds) : ∃ t', t.perform x = (.done a, t') ∧ t'.Of r := by
  obtain ⟨r', listings, hasked, hsound, hrun⟩ := hx t.workspace t.listings h.asked h.sound
  rw [perform, hrun]
  exact ⟨_, rfl, hasked, hsound⟩

theorem run_of_perform {t t' : Moment} {x : Lookup α} {a : α} (h : t.perform x = (.done a, t')) :
    (x.run t.listings).run t.workspace = (.done (a, t'.listings), t'.workspace) := by
  rw [perform] at h
  split at h
  · next hrun =>
    obtain ⟨hdone, rfl⟩ := Prod.mk.inj h
    obtain rfl := CompilationEnd.done.inj hdone
    exact hrun
  · cases (Prod.mk.inj h).1

theorem perform_bind_of_done {β : Type} {t t' : Moment} {x : Lookup α} {a : α} (h : t.perform x = (.done a, t'))
    (next : α → Lookup β) : t.perform (x >>= next) = t'.perform (next a) := by
  rw [perform, StateT.run_bind, Compilation.run_bind_of_done (run_of_perform h)]
  rfl

theorem Of.agrees {t : Moment} (h : t.Of r) : t.Agrees := by
  intro l
  obtain ⟨t', hperform, _⟩ := perform_of_gives h (LookUp.gives_remembering l)
  obtain ⟨w', hanew⟩ := LookUp.run_anew l t.workspace
  refine ⟨l.found r, congrArg Prod.fst hperform, ?_⟩
  rw [hanew, LookUp.found_of_asked h.asked]

theorem Of.among {t : Moment} (h : t.Of r) (package name : String) (locations : List Location) :
    ∀ t' ∈ Moment.among package name locations t, t'.Of r := by
  induction locations generalizing t with
  | nil =>
    intro t' ht'
    rw [List.mem_singleton.1 ht']
    exact h
  | cons location rest ih =>
    obtain ⟨behind, hperform, hbehind⟩ := perform_of_gives h (Lookup.gives_find location package name)
    intro t' ht'
    rw [Moment.among, hperform] at ht'
    rcases List.mem_cons.1 ht' with rfl | ht'
    · exact h
    · cases hfound : r.foundAt package name location with
      | none =>
        rw [hfound] at ht'
        exact ih hbehind t' ht'
      | some found =>
        rw [hfound] at ht'
        rw [List.mem_singleton.1 ht']
        exact hbehind

theorem Of.answering {t : Moment} (h : t.Of r) (question : Question) :
    ∀ t' ∈ t.answering question, t'.Of r := by
  cases question <;> exact h.among _ _ _

theorem Of.report {t : Moment} (h : t.Of r) (d : Diagnostic) :
    Of r { t with workspace := (t.workspace.answer (.report d)).2 } :=
  ⟨h.asked, h.sound⟩

/-- Whatever is looked up or reported, the moments of a task are moments of its session. -/
theorem Of.moments {t : Moment} (h : t.Of r) (q : Query α) : ∀ t' ∈ q.moments t, t'.Of r := by
  induction q generalizing t with
  | done a =>
    intro t' ht'
    rw [List.mem_singleton.1 ht']
    exact h
  | ask question resume ih =>
    obtain ⟨behind, hperform, hbehind⟩ := perform_of_gives h (Lookup.gives_answer question)
    intro t' ht'
    rw [Query.moments, hperform] at ht'
    rcases List.mem_append.1 ht' with ht' | ht'
    · exact h.answering question t' ht'
    · exact ih _ hbehind t' ht'
  | report d rest ih =>
    intro t' ht'
    rcases List.mem_cons.1 ht' with rfl | ht'
    · exact h
    · exact ih (h.report d) t' ht'

/-- The last moment of a check is the one that serving it leads to. -/
theorem Of.getLast?_moments {t : Moment} (h : t.Of r) (q : Query α) :
    ∃ last, (q.moments t).getLast? = some last ∧ t.perform q.serve = (.done (q.under r.meaning).1, last) := by
  induction q generalizing t with
  | done a => exact ⟨t, rfl, rfl⟩
  | ask question resume ih =>
    obtain ⟨behind, hperform, hbehind⟩ := perform_of_gives h (Lookup.gives_answer question)
    obtain ⟨last, hlast, hserve⟩ := ih (r.meaning question) hbehind
    refine ⟨last, ?_, ?_⟩
    · rw [Query.moments, hperform, List.getLast?_append, hlast, Option.some_or]
    · rw [Query.serve, perform_bind_of_done hperform, hserve]
      rfl
  | report d rest ih =>
    obtain ⟨last, hlast, hserve⟩ := ih (h.report d)
    refine ⟨last, ?_, ?_⟩
    · rw [Query.moments, List.getLast?_cons, hlast]
      rfl
    · exact hserve

end Moment

namespace Builtin

/-- **Remembered listings are as good as asking anew.** At every moment of a task at which it may look a name up, the
look-ups come to the same from the listings that it remembers as from asking the session anew; the moments lead from
the parsed units to the output.  And a task leaves at most one decision on a package of a realm. -/
theorem lookups_as_anew (units : List PluginUnit) (w : Workspace) :
    (∀ t ∈ moments units w, t.Agrees) ∧
    (∃ last modules, (moments units w).getLast? = some last ∧
      (compile units).run w = (writeAll modules).run last.workspace) ∧
    ∃ new : List Decision,
      ((compile units).run w).2.resolver.decisions = w.resolver.decisions ++ new.toArray ∧
      (new.map fun d => (d.realm, d.package)).Nodup := by
  let q := (Checker.units (signatures units) (parsed units)).run []
  let start : Moment :=
    ⟨{ w with diagnostics := w.diagnostics ++ (syntaxDiagnostics units).toArray }, []⟩
  have hstart : start.Of w.resolver := ⟨.refl w.resolver, Lookup.sound_nil⟩
  have hmoments : moments units w = q.moments start := by
    rw [moments, run_parses]
    rfl
  refine ⟨fun t ht => (hstart.moments q t (hmoments ▸ ht)).agrees, ?_, ?_⟩
  · obtain ⟨last, hlast, hserve⟩ := hstart.getLast?_moments q
    refine ⟨last, (q.under w.resolver.meaning).1.1, hmoments ▸ hlast, ?_⟩
    rw [compile, Compilation.run_bind_of_done (run_parses units w)]
    exact Compilation.run_bind_of_done (Moment.run_of_perform hserve) _
  · obtain ⟨keys, hnodup, _, hdecisions⟩ := decisions_compile units w
    refine ⟨keys.map w.resolver.decision, hdecisions, ?_⟩
    rw [List.map_map]
    refine hnodup.map fun a b hab => ?_
    obtain ⟨hrealm, hpackage⟩ := Prod.mk.inj hab
    exact Prod.ext (Location.realm_injective hrealm) hpackage

end Builtin
end PluginSandbox
