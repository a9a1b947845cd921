import PluginSandbox.Json.Basic
import PluginSandbox.Location
import PluginSandbox.Unit

/-!
# Listings and decisions

A listing of a package shows entries: units, the contract type, or symbols of the platform.  Every
listing that a sandbox answers is decided by its policy, and the decision is recorded with the number of
entries that were shown.
-/

namespace PluginSandbox

/-- One result of a listing: a unit of the session, the contract type, or a function of the platform. -/
inductive Entry where
  | unit (unit : PluginUnit)
  | contract (contract : ContractType)
  | library (symbol : LibrarySymbol)
  deriving DecidableEq, Inhabited

namespace Entry

/-- The kind of an entry. -/
def kind : Entry → EntryKind
  | .unit _ => .source
  | .contract _ => .compiled
  | .library _ => .native

/-- The name of an entry with its package. -/
def qualifiedName : Entry → String
  | .unit u => u.qualifiedName
  | .contract c => c.qualifiedName
  | .library s => s.qualifiedName

end Entry

/-- How a listing was decided: it was answered with what the platform has, with the units of the session and the
contract type, or with nothing. -/
inductive Verdict where
  | allowed
  | contract
  | denied
  deriving DecidableEq, Inhabited

/-- The name of a verdict. -/
def Verdict.name : Verdict → String
  | .allowed => "Allowed"
  | .contract => "Contract"
  | .denied => "Denied"

/-- The verdict of a name. -/
def Verdict.ofName? (s : String) : Option Verdict :=
  [allowed, contract, denied].find? fun v => v.name = s

/-- The record of one listing: the realm, the package and the kinds that were asked for, how it was decided, and the
number of entries that were shown. -/
structure Decision where
  realm : String
  package : String
  kinds : List EntryKind
  verdict : Verdict
  entries : Nat
  deriving DecidableEq, Inhabited

/-- A decision in a report. -/
def Decision.toJson (d : Decision) : Json :=
  .obj [("realm", .str d.realm), ("package", .str d.package),
    ("kinds", .arr (d.kinds.map fun k => .str k.name)), ("verdict", .str d.verdict.name),
    ("entries", .nat d.entries)]

end PluginSandbox
