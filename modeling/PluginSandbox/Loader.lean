import PluginSandbox.Audit.Event
import PluginSandbox.Bytecode.Encoding
import PluginSandbox.Platform.Catalogue
import PluginSandbox.Policy

/-!
# Loading modules

A loader turns the artifacts of one session, and nothing else, into modules that can be run.  An artifact
is not trusted, whoever wrote it: it is decoded, its version, name and contract are compared, its code is
verified, and every platform function it refers to is checked against the policy before it is linked.

`LoadSource.materialize` is the whole of that for one name.  A loader remembers the modules it has loaded,
so each name is materialized at most once; a failure is not remembered.
-/

namespace PluginSandbox

/-- A platform function in the link table of a module, under the location and the qualified name that the module
uses. -/
structure Link where
  location : Location
  symbol : String
  function : NativeFunction

/-- A module that was decoded, verified and linked, with the digest and the number of exactly the bytes that were
decoded. -/
structure LoadedModule where
  module : Module
  digest : String
  size : Nat
  links : List Link
  deriving Inhabited

namespace LoadedModule

/-- The function that a module is linked to by a name at a location. -/
def native? (m : LoadedModule) (location : Location) (symbol : String) : Option NativeFunction :=
  (m.links.find? fun l => l.location = location ∧ l.symbol = symbol).map Link.function

/-- The names that a module is linked to functions by, once each, in order. -/
def linkedSymbols (m : LoadedModule) : List String :=
  inOrder (fun a b => !decide (b < a)) (m.links.map Link.symbol)

end LoadedModule

/-- What modules are loaded from: the output of a session, and what its policy shows of the platform.  The audit events
of loading carry the session's identifiers, and the clock is read once for each of them. -/
structure LoadSource where
  artifacts : ArtifactStore
  policy : Policy
  catalogue : Catalogue
  correlation : Correlation
  clock : Clock

namespace LoadSource

/-- What is wrong with a module that was decoded under a name, if anything is. -/
def flaw? (s : LoadSource) (name : String) (m : Module) : Option Malformation :=
  if m.formatVersion ≠ Module.currentVersion then some (.unsupportedVersion m.formatVersion)
  else if m.name ≠ name then some (.declaresName m.name)
  else if m.contract ≠ s.policy.contract.qualifiedName then
    some (.implementsOther m.contract s.policy.contract.qualifiedName)
  else m.firstFlaw?.map fun (function, flaw) => .flawed function flaw

/-- The function that a module may be linked to by a name at a location: one of a platform module, in a
package that the policy makes visible there. -/
def linkable? (s : LoadSource) (location : Location) (symbol : String) : Option NativeFunction :=
  if location.isSystemModule then
    (s.catalogue.lookup? location symbol).filter fun f =>
      s.policy.isVisible location.realm f.symbol.package
  else none

/-- The link table of some references, or the first name that cannot be linked. -/
def link (s : LoadSource) : List (Location × String) → Except String (List Link)
  | [] => .ok []
  | (location, symbol) :: rest =>
    match s.linkable? location symbol with
    | none => .error symbol
    | some function => (s.link rest).map fun links => ⟨location, symbol, function⟩ :: links

/-- The module of a name, made ready to run from the bytes of its artifact. -/
def materialize (s : LoadSource) (name : String) : Except SandboxError LoadedModule :=
  match s.artifacts.get? name with
  | none => .error (.notInSession name)
  | some artifact =>
    match Module.decode? artifact.bytes with
    | none => .error (.malformedArtifact name (.undecodable (Module.complaint artifact.bytes)))
    | some m =>
      match s.flaw? name m with
      | some cause => .error (.malformedArtifact name cause)
      | none =>
        match s.link m.nativeImports with
        | .error symbol => .error (.linkRejected m.name symbol)
        | .ok links =>
          .ok { module := m, digest := artifact.digest, size := artifact.bytes.size, links }

/-- The audit event of an attempt to materialize a name, if it leaves one. -/
def event? (s : LoadSource) (now : Timestamp) (name : String) : Except SandboxError LoadedModule → Option AuditEvent
  | .ok m => some (.materialized now s.correlation name m.digest)
  | .error (.notInSession name) => some (.loadRejected now s.correlation name)
  | .error (.linkRejected name symbol) => some (.linkRejected now s.correlation name symbol)
  | .error _ => none

end LoadSource

/-- A loader: what it loads from, the modules loaded so far by their names, the last one first, how often a module was
materialized, and the audit events of that, in order. -/
structure Loader where
  source : LoadSource
  loaded : List (String × LoadedModule) := []
  count : Nat := 0
  trail : Array AuditEvent := #[]

namespace Loader

/-- The moment that the next event of a loader is stamped with. -/
def now (l : Loader) : Timestamp :=
  l.source.clock.reading l.trail.size

/-- The module of a name, and the loader behind the attempt to load it. -/
def load (l : Loader) (name : String) : Except SandboxError LoadedModule × Loader :=
  match l.loaded.lookup name with
  | some m => (.ok m, l)
  | none =>
    let result := l.source.materialize name
    let trail := match l.source.event? l.now name result with
      | some event => l.trail.push event
      | none => l.trail
    match result with
    | .ok m => (.ok m, { l with loaded := (name, m) :: l.loaded, count := l.count + 1, trail })
    | .error e => (.error e, { l with trail })

end Loader
end PluginSandbox
