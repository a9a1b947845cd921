import PluginSandbox.Compiler.Query
import PluginSandbox.Toolchain

/-!
# Answers from listings

A task answers the questions of its checks from listings.  It asks the session for a listing when a
question first makes it necessary, and remembers every listing until it ends.  So the listings of a task,
and the decisions they leave, are those that its sources give rise to, each once.
-/

namespace PluginSandbox

/-- The named entries of a listing. -/
abbrev NamedEntries := List (String × Entry)

/-- The listings that a task has asked for so far. -/
abbrev Listings := List ((Location × String) × NamedEntries)

/-- A step of a task that may ask the session for listings. -/
abbrev Lookup := StateT Listings Compilation

namespace Lookup

/-- Asks the session for something. -/
def ask (r : Request) : Lookup r.Answer :=
  StateT.lift (Compilation.request r)

/-- The kinds of entries that matter at a location: modules of the platform hold functions only. -/
def kindsAt : Location → List EntryKind
  | .systemModule _ => [.native]
  | _ => EntryKind.all

/-- The entries of a listing that have a name. -/
def nameEntries (location : Location) : List Entry → Lookup NamedEntries
  | [] => return []
  | entry :: rest => do
    let name ← ask (.inferName location entry)
    let named ← nameEntries location rest
    match name with
    | some name => return (name, entry) :: named
    | none => return named

/-- The listing of a package at a location; the session is asked at most once. -/
def listing (location : Location) (package : String) : Lookup NamedEntries := do
  match (← get).lookup (location, package) with
  | some entries => return entries
  | none =>
    let entries ← ask (.list location package (kindsAt location))
    let named ← nameEntries location entries
    modify fun listings => ((location, package), named) :: listings
    return named

/-- The entry of a name in a package at a location, with the location. -/
def find (location : Location) (package name : String) : Lookup Found := do
  let entries ← listing location package
  return (entries.find? fun e => e.1 = qualify package name).map fun e => (location, e.2)

/-- The entry of a name in a package at the first of some locations that has one. -/
def findAmong (package name : String) : List Location → Lookup Found
  | [] => return none
  | location :: rest => do
    match ← find location package name with
    | some found => return some found
    | none => findAmong package name rest

/-- The answer to a question. -/
def answer : Question → Lookup Found
  | .onClassPath package name => find .classPath package name
  | .inModules package name => do findAmong package name (← ask .moduleLocations)

end Lookup

/-- A check as part of a task, which answers its questions and passes on its reports. -/
def Query.serve {α : Type} : Query α → Lookup α
  | .done a => return a
  | .ask question resume => do (resume (← Lookup.answer question)).serve
  | .report d rest => do
    let _ ← Lookup.ask (.report d)
    rest.serve

end PluginSandbox
