import PluginSandbox.Audit.Event
import PluginSandbox.Platform.Catalogue
import PluginSandbox.Policy

/-!
# The sandboxed resolver

What a toolchain learns about the world outside its units, it learns from a resolver.  The resolver of
a session answers a listing in one of three ways (`Resolver.decide`):

* the package of the contract on the class path shows the units of the session and the contract type,
  and nothing of the platform;
* another pair of realm and package that the policy makes visible shows what the platform has there;
* everything else shows nothing.  A refusal is an empty listing and never an error.

Every listing leaves one decision, and every first binding of an output leaves an audit event.
-/

namespace PluginSandbox

namespace Catalogue

/-- Everything the platform has in a package at a location, of some kinds. -/
def list (c : Catalogue) (location : Location) (package : String) (kinds : List EntryKind) :
    List Entry :=
  (if EntryKind.native ∈ kinds then (c.symbols location package).map Entry.library else []) ++
  (if EntryKind.compiled ∈ kinds ∧ location = .classPath ∧ package = c.contract.package then
    [Entry.contract c.contract]
  else [])

/-- The name of an entry that the platform knows; it knows no units. -/
def inferName? : Entry → Option String
  | .unit _ => none
  | entry => some entry.qualifiedName

/-- The platform binds no output. -/
def output (_ : Catalogue) (location : Location) (name : String) : Except SandboxError Unit :=
  .error (.unboundOutput name location)

end Catalogue

/-- The resolver of a session: what it answers from, the units that were registered, and the output.  It keeps its
decisions and its audit events in order, and reads the clock once for each event. -/
structure Resolver where
  catalogue : Catalogue
  policy : Policy
  correlation : Correlation
  clock : Clock
  units : List PluginUnit := []
  artifacts : ArtifactStore := .empty
  decisions : Array Decision := #[]
  trail : Array AuditEvent := #[]

namespace Resolver

/-- The moment that the next event of a resolver is stamped with. -/
def now (r : Resolver) : Timestamp :=
  r.clock.reading r.trail.size

/-- The resolver with one more unit. -/
def register (r : Resolver) (unit : PluginUnit) : Resolver :=
  { r with units := r.units ++ [unit] }

/-- The modules of the platform that packages may be looked for in. -/
def moduleLocations (r : Resolver) : List Location :=
  r.catalogue.moduleLocations

/-- The units of the session and the contract type, of some kinds. -/
def contractListing (r : Resolver) (kinds : List EntryKind) : List Entry :=
  (r.units.map Entry.unit ++ [Entry.contract r.policy.contract]).filter fun e => e.kind ∈ kinds

/-- How a listing is decided, and what it shows. -/
def decide (r : Resolver) (location : Location) (package : String) (kinds : List EntryKind) :
    Verdict × List Entry :=
  if r.policy.isContractListing location package then (.contract, r.contractListing kinds)
  else if r.policy.isVisible location.realm package then
    (.allowed, r.catalogue.list location package kinds)
  else (.denied, [])

/-- A listing: what it shows, and the resolver with its decision. -/
def list (r : Resolver) (location : Location) (package : String) (kinds : List EntryKind) :
    List Entry × Resolver :=
  let (verdict, entries) := r.decide location package kinds
  let decision : Decision :=
    { realm := location.realm, package, kinds, verdict, entries := entries.length }
  (entries,
    { r with
      decisions := r.decisions.push decision
      trail := r.trail.push (.resolution r.now r.correlation decision) })

/-- The name of an entry; every entry has one. -/
def inferName? : Entry → Option String
  | .unit u => some u.qualifiedName
  | .contract c => some c.qualifiedName
  | .library s => Catalogue.inferName? (.library s)

/-- Binds an output to a name on behalf of a unit.  Only the first binding of a name is new. -/
def bindOutput (r : Resolver) (name : String) (sibling : PluginUnit) : Resolver :=
  if r.artifacts.contains name then r
  else
    { r with
      artifacts := r.artifacts.ensure name
      trail := r.trail.push (.outputBound r.now r.correlation name sibling.qualifiedName) }

/-- Writes bytes to the output of a name, which is bound first. -/
def output (r : Resolver) (name : String) (sibling : PluginUnit) (data : ByteArray) :
    Except SandboxError Unit × Resolver :=
  let r := r.bindOutput name sibling
  let (result, artifacts) := r.artifacts.write name data
  (result.mapError .refusedWrite, { r with artifacts })

/-- Seals every artifact. -/
def sealed (r : Resolver) : Resolver :=
  { r with artifacts := r.artifacts.sealAll }

end Resolver
end PluginSandbox
