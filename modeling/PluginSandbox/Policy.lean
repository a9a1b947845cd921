import PluginSandbox.Configuration.Basic

/-!
# The access policy

A policy says which packages of which realms plugin code may refer to.  Whatever it does not name is
hidden.  It is made once from a configuration and never changes; the package of the contract is always
visible in the realm of user code, because the units and the contract type are listed there.
-/

namespace PluginSandbox

/-- An immutable, default-deny access policy: the packages that are visible, by realm, and the contract type. -/
structure Policy where
  allowed : Allowlist
  contract : ContractType

namespace Policy

/-- The policy of an allowlist: the package of the contract is added to the realm of user code. -/
def ofAllowlist (allowlist : Allowlist) (contract : ContractType) : Policy where
  allowed := allowlist.insert Location.classPath.realm
    (((allowlist[Location.classPath.realm]?).getD Std.TreeSet.empty).insert contract.package)
  contract := contract

/-- The policy of a configuration. -/
def ofConfiguration (c : Configuration) : Policy :=
  ofAllowlist c.allowlist c.contract

/-- Whether a package is visible in a realm. -/
def isVisible (p : Policy) (realm package : String) : Bool :=
  match p.allowed[realm]? with
  | some packages => packages.contains package
  | none => false

/-- The realm in which units and the contract type are listed. -/
def userRealm : String :=
  Location.classPath.realm

/-- Whether a listing is the one of units and the contract type. -/
def isContractListing (p : Policy) (location : Location) (package : String) : Bool :=
  location.realm == userRealm && package == p.contract.package

/-- Every pair of realm and package that is visible, in order. -/
def entries (p : Policy) : List (String × String) :=
  p.allowed.pairs

end Policy
end PluginSandbox
