import PluginSandbox.Diagnostic
import PluginSandbox.Resolution

/-!
# What the checker asks

The checker learns what names mean by asking, one question after the other, and it reports what it finds
wrong.  So a check in progress is a tree of questions (`Query`).  Where the answers come from is not its
business: a task serves them from the listings of its session (`Query.serve`), and `Query.under` is what
becomes of a check when every question has one fixed answer.
-/

namespace PluginSandbox

/-- A question for the entry of a name in a package: on the class path, or in the first module of the platform that has
the package. -/
inductive Question where
  | onClassPath (package name : String)
  | inModules (package name : String)
  deriving DecidableEq

/-- The answer to a question: the entry and the location where it was found, if there is one. -/
abbrev Found := Option (Location × Entry)

/-- A check in progress, which ends with a result of type `α`, asks a question and goes on with the answer, or reports a
diagnostic and goes on. -/
inductive Query (α : Type) where
  | done (result : α)
  | ask (question : Question) (resume : Found → Query α)
  | report (diagnostic : Diagnostic) (rest : Query α)

namespace Query

variable {α β : Type}

/-- The check that goes on where another one ends. -/
def bind : Query α → (α → Query β) → Query β
  | .done a, next => next a
  | .ask question resume, next => .ask question fun answer => (resume answer).bind next
  | .report d rest, next => .report d (rest.bind next)

instance : Monad Query where
  pure := .done
  bind := bind

/-- What a check comes to when the answer to every question is known: its result, and the diagnostics it
reports. -/
def under (answer : Question → Found) : Query α → α × List Diagnostic
  | .done a => (a, [])
  | .ask question resume => (resume (answer question)).under answer
  | .report d rest => ((rest.under answer).1, d :: (rest.under answer).2)

end Query
end PluginSandbox
