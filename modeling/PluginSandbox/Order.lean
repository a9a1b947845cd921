/-!
# Lists in order

`inOrder` puts a list in order and keeps one of each run of equal items.  For an order in which only
equal items are equivalent, the result holds each item once.
-/

namespace PluginSandbox

/-- Drops each item that equals the one behind it. -/
def dropRepeats {α : Type} [DecidableEq α] : List α → List α
  | [] => []
  | [a] => [a]
  | a :: b :: rest => if a = b then dropRepeats (b :: rest) else a :: dropRepeats (b :: rest)

/-- The items of a list in order, equal ones once. -/
def inOrder {α : Type} [DecidableEq α] (le : α → α → Bool) (items : List α) : List α :=
  dropRepeats (items.mergeSort le)

end PluginSandbox
