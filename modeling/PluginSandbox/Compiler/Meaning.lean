import PluginSandbox.Compiler.Listing
import PluginSandbox.Compiler.Lookup

/-!
# What names mean

The rules by which a name in a unit means an entry, said without the checker: who is asked in which order,
when every question has one answer (`Meaning`).

* An import binds its last segment to what that names on the class path, else in the modules of the
  platform.  Of several imports of one name the first counts.
* A name that no import binds is looked for in the unit's own package, on the class path.
* The name of a called function is looked for last in the implicit package, in the modules.

`Resolver.meaning` is what a session answers.
-/

namespace PluginSandbox

/-- The answers to all questions. -/
abbrev Meaning := Question → Found

namespace Meaning

/-- The entry of a name in a package on the class path, else in the modules of the platform. -/
def anywhere (m : Meaning) (package name : String) : Found :=
  (m (.onClassPath package name)).or (m (.inModules package name))

/-- What the imports of a unit bind a name to. -/
def imported (m : Meaning) (imports : List Import) (name : String) : Found :=
  (imports.find? fun i => i.name = name).bind fun i => m.anywhere i.package i.name

/-- What a name means in a unit: an import, else an entry of the unit's own package. -/
def own (m : Meaning) (unit : PluginUnit) (imports : List Import) (name : String) : Found :=
  (m.imported imports name).or (m (.onClassPath unit.package name))

/-- What the name of a called function means in a unit that does not declare it. -/
def callee (m : Meaning) (unit : PluginUnit) (imports : List Import) (name : String) : Found :=
  (m.own unit imports name).or (m (.inModules Checker.implicitPackage name))

end Meaning

namespace Resolver

/-- The entry of a name in a package at a location, as a session answers for it. -/
def foundAt (r : Resolver) (package name : String) (location : Location) : Found :=
  ((r.decide location package (Lookup.kindsAt location)).2.find? fun e =>
    e.qualifiedName = qualify package name).map fun e => (location, e)

/-- What names mean in a session. -/
def meaning (r : Resolver) : Meaning
  | .onClassPath package name => r.foundAt package name .classPath
  | .inModules package name => r.moduleLocations.findSome? (r.foundAt package name)

end Resolver
end PluginSandbox
