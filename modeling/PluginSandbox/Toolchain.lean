import PluginSandbox.Diagnostic
import PluginSandbox.Resolver

/-!
# Toolchains

A toolchain turns units into modules.  It is not trusted: all it can do is ask the session for one thing
after the other and report diagnostics, and it may end with a result or crash at any moment.  So a
compilation in progress is a tree of requests (`Compilation`), and what a toolchain did to a session is
the outcome of running that tree against the session's workspace (`Compilation.run`).

Whatever is proved about all compilations holds of every toolchain, whether it comes with this library
or not.
-/

namespace PluginSandbox

/-- What a toolchain may ask for: the modules of the platform, the entries of a package, the name of an entry that was
listed, bytes to be written to the output of a name on behalf of a unit, a diagnostic to be reported, and the
diagnostics reported so far. -/
inductive Request where
  | moduleLocations
  | list (location : Location) (package : String) (kinds : List EntryKind)
  | inferName (location : Location) (entry : Entry)
  | output (location : Location) (name : String) (sibling : PluginUnit) (data : ByteArray)
  | report (diagnostic : Diagnostic)
  | reported

/-- What a request is answered with. -/
abbrev Request.Answer : Request → Type
  | .moduleLocations => List Location
  | .list .. => List Entry
  | .inferName .. => Option String
  | .output .. => Except SandboxError Unit
  | .report _ => Unit
  | .reported => Array Diagnostic

/-- A compilation in progress, which ends with a result of type `α`, crashes, with a text if the crash has one, or asks
for something and goes on with the answer. -/
inductive Compilation (α : Type) where
  | done (result : α)
  | crash (text : Option String)
  | ask (request : Request) (resume : request.Answer → Compilation α)

namespace Compilation

variable {α β : Type}

/-- The compilation that goes on where another one ends. -/
def bind : Compilation α → (α → Compilation β) → Compilation β
  | .done a, next => next a
  | .crash text, _ => .crash text
  | .ask request resume, next => .ask request fun answer => (resume answer).bind next

instance : Monad Compilation where
  pure := .done
  bind := bind

/-- The compilation that asks for something and ends with the answer. -/
def request (r : Request) : Compilation r.Answer :=
  .ask r .done

end Compilation

/-- What a toolchain works on: the resolver of the session, and the diagnostics that were reported, in order. -/
structure Workspace where
  resolver : Resolver
  diagnostics : Array Diagnostic := #[]

namespace Workspace

/-- The answer to a request, and the workspace behind it. -/
def answer (w : Workspace) : (r : Request) → r.Answer × Workspace
  | .moduleLocations => (w.resolver.moduleLocations, w)
  | .list location package kinds =>
    let (entries, resolver) := w.resolver.list location package kinds
    (entries, { w with resolver })
  | .inferName _ entry => (Resolver.inferName? entry, w)
  | .output _ name sibling data =>
    let (result, resolver) := w.resolver.output name sibling data
    (result, { w with resolver })
  | .report diagnostic => ((), { w with diagnostics := w.diagnostics.push diagnostic })
  | .reported => (w.diagnostics, w)

end Workspace

/-- How a compilation ended: with a result, or in a crash with a text if it has one. -/
inductive CompilationEnd (α : Type) where
  | done (result : α)
  | crashed (text : Option String)
  deriving DecidableEq

/-- The outcome of a compilation, and the workspace it leaves behind. -/
def Compilation.run {α : Type} : Compilation α → Workspace → CompilationEnd α × Workspace
  | .done a, w => (.done a, w)
  | .crash text, w => (.crashed text, w)
  | .ask request resume, w =>
    let (a, w) := w.answer request
    (resume a).run w

/-- A toolchain: its name, and what it does with some units.  The result says whether it holds the
compilation for successful. -/
structure Toolchain where
  name : String
  compile : List PluginUnit → Compilation Bool

end PluginSandbox
