/-!
# Lists that know their length

A stack of operands or of callers is asked for its height at every call, so it carries it along.  The top
of a stack is the head of its list.
-/

namespace PluginSandbox

/-- A list, the top item first, with its length. -/
structure Counted (α : Type) where
  toList : List α
  size : Nat
  size_eq : size = toList.length

namespace Counted

variable {α : Type}

/-- The list without items. -/
def empty : Counted α :=
  ⟨[], 0, rfl⟩

/-- The list of some items, the top one first. -/
def ofList (items : List α) : Counted α :=
  ⟨items, items.length, rfl⟩

instance : Inhabited (Counted α) :=
  ⟨empty⟩

/-- The list with one more item on top. -/
def push (s : Counted α) (a : α) : Counted α :=
  ⟨a :: s.toList, s.size + 1, by simp [s.size_eq]⟩

/-- The top item and the list below it. -/
def pop? (s : Counted α) : Option (α × Counted α) :=
  match s with
  | ⟨[], _, _⟩ => none
  | ⟨a :: rest, size, h⟩ => some (a, ⟨rest, size - 1, by simp [h]⟩)

/-- The list below its top items, of which there are at most `n`. -/
def drop (s : Counted α) (n : Nat) : Counted α :=
  ⟨s.toList.drop n, s.size - n, by simp [s.size_eq]⟩

/-- The `n` top items, the lowest of them first, and the list below them; none if there are fewer. -/
def popMany? (s : Counted α) (n : Nat) : Option (List α × Counted α) :=
  if s.size < n then none else some ((s.toList.take n).reverse, s.drop n)

/-- The list cut down to `n` items, the lowest ones; a list that is not longer stays as it is. -/
def truncate (s : Counted α) (n : Nat) : Counted α :=
  s.drop (s.size - n)

@[simp] theorem toList_empty : (empty : Counted α).toList = [] := rfl

@[simp] theorem toList_push (s : Counted α) (a : α) : (s.push a).toList = a :: s.toList := rfl

@[simp] theorem toList_drop (s : Counted α) (n : Nat) : (s.drop n).toList = s.toList.drop n := rfl

theorem ext_toList {s t : Counted α} (h : s.toList = t.toList) : s = t := by
  obtain ⟨items, n, hn⟩ := s
  obtain ⟨items', n', hn'⟩ := t
  obtain rfl : items = items' := h
  obtain rfl : n = n' := hn.trans hn'.symm
  rfl

@[simp] theorem pop?_push (s : Counted α) (a : α) : (s.push a).pop? = some (a, s) := by
  obtain ⟨items, n, hn⟩ := s
  rfl

/-- An item is popped exactly when it was pushed last. -/
theorem pop?_eq_some {s rest : Counted α} {a : α} : s.pop? = some (a, rest) ↔ s = rest.push a := by
  constructor
  · intro h
    obtain ⟨items, n, hn⟩ := s
    cases items with
    | nil => exact absurd h (by simp [pop?])
    | cons b items =>
      obtain ⟨rfl, rfl⟩ := Prod.mk.inj (Option.some.inj h)
      exact ext_toList rfl
  · rintro rfl
    exact pop?_push rest a

/-- Items are popped exactly when they were pushed last, the first of them first. -/
theorem popMany?_eq_some {s rest : Counted α} {n : Nat} {items : List α} :
    s.popMany? n = some (items, rest) ↔
      items.length = n ∧ s.toList = items.reverse ++ rest.toList := by
  rw [popMany?, s.size_eq]
  constructor
  · intro h
    split at h
    · exact absurd h (by simp)
    · next hsize =>
      obtain ⟨rfl, rfl⟩ := Prod.mk.inj (Option.some.inj h)
      refine ⟨?_, ?_⟩
      · rw [List.length_reverse, List.length_take]
        omega
      · rw [List.reverse_reverse, toList_drop, List.take_append_drop]
  · rintro ⟨rfl, h⟩
    have hlength : s.toList.length = items.length + rest.toList.length := by
      rw [h, List.length_append, List.length_reverse]
    have hdrop : s.drop items.length = rest := by
      refine ext_toList ?_
      rw [toList_drop, h]
      exact List.drop_left' List.length_reverse
    rw [if_neg (by omega), hdrop, h, List.take_left' List.length_reverse, List.reverse_reverse]

end Counted
end PluginSandbox
