import PluginSandbox.Configuration.Basic
import PluginSandbox.Platform.Native

/-!
# The platform's catalogue

Everything a platform could offer: functions at locations, in the order they were defined, and the
contract type.  A catalogue never changes while sessions use it.

Two locations may define the same package, and a package may define the same name twice.  A look-up
(`Catalogue.lookup?`) consults one location only and finds the first definition.
-/

namespace PluginSandbox

/-- A function at a location, with its name and arity as listings show them. -/
structure NativeFunction where
  symbol : LibrarySymbol
  location : Location
  implementation : Native

/-- Everything a platform could offer: its functions, in the order they were defined, and the contract type. -/
structure Catalogue where
  functions : List NativeFunction
  contract : ContractType

namespace Catalogue

/-- The catalogue without functions. -/
def empty (contract : ContractType) : Catalogue :=
  ⟨[], contract⟩

/-- The catalogue with one more function. -/
def define (c : Catalogue) (location : Location) (package name : String) (arity : Nat)
    (implementation : Native) : Catalogue :=
  { c with
    functions := c.functions ++ [⟨⟨package, name, arity⟩, location, implementation⟩] }

/-- The catalogue of the platform that comes with this library: the base packages, logging, and what
belongs to the host alone. -/
def standard (contract : ContractType) : Catalogue :=
  let base := Location.systemModule baseModule
  let logging := Location.systemModule loggingModule
  empty contract
    |>.define base "lang" "fail" 1 .fail
    |>.define base "lang" "to_string" 1 .toText
    |>.define base "lang" "len" 1 .length
    |>.define base "lang" "assert" 2 .assert
    |>.define base "util.function" "identity" 1 .identity
    |>.define base "io" "print" 1 .print
    |>.define base "math" "abs" 1 .abs
    |>.define base "math" "max" 2 .max
    |>.define base "math" "min" 2 .min
    |>.define base "math" "pow" 2 .pow
    |>.define base "fs" "read_to_string" 1 .readFile
    |>.define base "process" "env_var" 1 .envVar
    |>.define logging "util.logging" "info" 1 (.log .info)
    |>.define logging "util.logging" "warn" 1 (.log .warn)
    |>.define logging "util.logging" "debug" 1 (.log .debug)
    |>.define .classPath "host.config" "secret" 0 .secret
    |>.define .classPath contract.package "registry" 0 .registry

/-- The functions of a package at a location, in the order they were defined. -/
def package (c : Catalogue) (location : Location) (package : String) : List NativeFunction :=
  c.functions.filter fun f => f.location = location ∧ f.symbol.package = package

/-- The symbols of a package at a location, in the order they were defined. -/
def symbols (c : Catalogue) (location : Location) (package : String) : List LibrarySymbol :=
  (c.package location package).map NativeFunction.symbol

/-- The first function of a qualified name at a location.  The name is cut at its last full stop. -/
def lookup? (c : Catalogue) (location : Location) (qualifiedName : String) :
    Option NativeFunction := do
  let (package, name) ← splitLast? qualifiedName
  (c.package location package).find? fun f => f.symbol.name = name

/-- The modules that functions are found in, once each, in the order of their names. -/
def moduleLocations (c : Catalogue) : List Location :=
  inOrder Location.le ((c.functions.map NativeFunction.location).filter Location.isSystemModule)

end Catalogue
end PluginSandbox
