import PluginSandbox.Configuration.Basic
import PluginSandbox.Text.Blank

/-!
# Validity of configurations

A configuration is checked once, before it is used.  Errors refuse it; warnings do not.  Opening the
realm of the class path is an error, since it would show the host's own functions to plugins; the
package of the contract is visible there anyway.
-/

namespace PluginSandbox

/-- What is wrong with a configuration: a name that is no dotted name, or no identifier where the contract type needs
one, a blank realm or that of the class path in the allowlist, a depth that allows no call at all, or a deadline that
passes at once. -/
inductive ConfigError where
  | contractPackage (package : String)
  | contractName (name : String)
  | emptyRealm
  | classPathRealm
  | invalidPackage (realm package : String)
  | zeroCallDepth
  | zeroDeadline
  deriving DecidableEq

/-- The text of a configuration error. -/
def ConfigError.text : ConfigError → String
  | .contractPackage package => s!"contract.package `{package}` is not a dotted package name"
  | .contractName name => s!"contract.type_name `{name}` is not an identifier"
  | .emptyRealm => "allowlist contains an empty realm name"
  | .classPathRealm =>
    "allowlist must not name the class-path realm; the contract package is implicit"
  | .invalidPackage realm package => s!"allowlist realm `{realm}` lists invalid package `{package}`"
  | .zeroCallDepth => "max_call_depth cannot be zero"
  | .zeroDeadline => "execution_deadline_ms cannot be zero"

/-- What looks wrong with a configuration: an allowlist without realms, or a realm of it without packages. -/
inductive ConfigWarning where
  | emptyAllowlist
  | noPackages (realm : String)
  deriving DecidableEq

/-- The text of a configuration warning. -/
def ConfigWarning.text : ConfigWarning → String
  | .emptyAllowlist => "allowlist is empty; plugins can only see the contract"
  | .noPackages realm => s!"allowlist realm `{realm}` lists no packages"

namespace Configuration

/-- What is wrong with the contract. -/
def contractErrors (c : Configuration) : List ConfigError :=
  (if isDottedName c.contract.package then [] else [.contractPackage c.contract.package]) ++
  (if isIdentifier c.contract.name then [] else [.contractName c.contract.name])

/-- What is wrong with one realm of an allowlist. -/
def realmErrors (realm : String) (packages : List String) : List ConfigError :=
  (if isBlankText realm then [.emptyRealm] else []) ++
  (if realm = Location.classPath.realm then [.classPathRealm] else []) ++
  (packages.filter fun p => !isDottedName p).map (.invalidPackage realm)

/-- What is wrong with a configuration, in the order it is reported. -/
def errors (c : Configuration) : List ConfigError :=
  c.contractErrors ++
  (c.allowlist.toList.flatMap fun (realm, packages) => realmErrors realm packages.toList) ++
  (if c.maxCallDepth = 0 then [.zeroCallDepth] else []) ++
  (if c.deadlineMillis = some 0 then [.zeroDeadline] else [])

/-- What looks wrong with a configuration, in the order it is reported. -/
def warnings (c : Configuration) : List ConfigWarning :=
  (if c.allowlist.isEmpty then [.emptyAllowlist] else []) ++
  (c.allowlist.toList.filter fun (_, packages) => packages.isEmpty).map fun (realm, _) =>
    .noPackages realm

/-- A configuration is valid when nothing is wrong with it. -/
def IsValid (c : Configuration) : Prop :=
  c.errors = []

instance (c : Configuration) : Decidable c.IsValid :=
  inferInstanceAs (Decidable (c.errors = []))

/-- The warnings about a valid configuration; an invalid one is refused. -/
def validate (c : Configuration) : Except SandboxError (List ConfigWarning) :=
  if c.IsValid then .ok c.warnings
  else .error (.config (.invalid (c.errors.map ConfigError.text)))

end Configuration
end PluginSandbox
