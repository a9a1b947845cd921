import PluginSandbox.Failure
import PluginSandbox.Location
import Std.Data.TreeMap
import Std.Data.TreeSet

/-!
# Configuration

What a host says about a sandbox: which packages a plugin may refer to in which realm, where the
contract type lives, how deep calls may nest, how long an execution may take, and where the audit
trail is kept.  Every part has a default, and the default allowlist names base utilities only: no
files, no processes, nothing of the host.
-/

namespace PluginSandbox

/-- The packages that may be referred to, by realm. -/
abbrev Allowlist := Std.TreeMap String (Std.TreeSet String)

namespace Allowlist

/-- The allowlist of some realms and their packages; a realm that occurs twice has its last
packages. -/
def ofList (realms : List (String × List String)) : Allowlist :=
  realms.foldl (fun a r => a.insert r.1 (Std.TreeSet.ofList r.2)) Std.TreeMap.empty

/-- The pairs of realm and package that an allowlist holds, in order. -/
def pairs (a : Allowlist) : List (String × String) :=
  a.toList.flatMap fun (realm, packages) => packages.toList.map fun package => (realm, package)

end Allowlist

/-- The platform module of the base packages. -/
def baseModule : String := "core.base"

/-- The platform module of the logging package. -/
def loggingModule : String := "core.logging"

/-- The allowlist of a host that gives none. -/
def defaultAllowlist : Allowlist :=
  Allowlist.ofList
    [(Location.systemModuleRealm baseModule, ["lang", "util.function", "io", "math"]),
     (Location.systemModuleRealm loggingModule, ["util.logging"])]

/-- The contract type of a host that names none. -/
def defaultContract : ContractType where
  package := "contract"
  name := "Plugin"

/-- The configuration of a sandbox: the packages that a plugin may refer to, by realm, the contract type, the file that
the audit trail is kept in, the deadline of the execution phase, and the number of nested calls that a plugin may
make. -/
structure Configuration where
  allowlist : Allowlist := defaultAllowlist
  contract : ContractType := defaultContract
  auditLog : Option String := none
  deadlineMillis : Option Nat := none
  maxCallDepth : Nat := 256

namespace Configuration

/-- The configuration of a host that gives none. -/
def default : Configuration := {}

instance : Inhabited Configuration :=
  ⟨default⟩

/-- The written form of a configuration. -/
def toJson (c : Configuration) : Json :=
  .obj [("allowlist",
      .obj (c.allowlist.toList.map fun (realm, packages) => (realm, Json.strings packages.toList))),
    ("contract", .obj [("package", .str c.contract.package), ("type_name", .str c.contract.name)]),
    ("audit_log", Json.option Json.str c.auditLog),
    ("execution_deadline_ms", Json.option Json.nat c.deadlineMillis),
    ("max_call_depth", .nat c.maxCallDepth)]

end Configuration
end PluginSandbox
