import Mathlib.Data.List.Basic
import PluginSandbox.Order

/-!
# What putting a list in order keeps

Putting a list in order moves items and drops repeated ones, so it keeps which items there are.
-/

namespace PluginSandbox

variable {α : Type} [DecidableEq α]

/-- Dropping repeated items keeps which items there are. -/
@[simp] theorem mem_dropRepeats {a : α} {l : List α} : a ∈ dropRepeats l ↔ a ∈ l := by
  fun_induction dropRepeats l with
  | case1 => rfl
  | case2 b => rfl
  | case3 b rest ih =>
    rw [ih]
    simp
  | case4 b c rest hne ih =>
    rw [List.mem_cons, ih, List.mem_cons (b := b)]

@[simp] theorem mem_inOrder {a : α} {le : α → α → Bool} {l : List α} :
    a ∈ inOrder le l ↔ a ∈ l := by
  rw [inOrder, mem_dropRepeats, List.mem_mergeSort]

theorem dropRepeats_sublist (l : List α) :
    (dropRepeats l).Sublist l := by
  induction l using dropRepeats.induct with
  | case1 => exact List.Sublist.refl _
  | case2 a => exact List.Sublist.refl _
  | case3 a rest ih =>
    rw [dropRepeats, if_pos rfl]
    exact ih.cons a
  | case4 a b rest hne ih =>
    rw [dropRepeats, if_neg hne]
    exact ih.cons_cons a

/-- A list in order has its items in order. -/
theorem pairwise_inOrder {le : α → α → Bool}
    (htrans : ∀ a b c, le a b = true → le b c = true → le a c = true)
    (htotal : ∀ a b, (le a b || le b a) = true) (l : List α) :
    (inOrder le l).Pairwise fun a b => le a b = true :=
  (List.pairwise_mergeSort htrans htotal l).sublist (dropRepeats_sublist _)

/-- A list in order has no item twice. -/
theorem nodup_dropRepeats {le : α → α → Bool}
    (hanti : ∀ a b, le a b = true → le b a = true → a = b) {l : List α}
    (h : l.Pairwise fun a b => le a b = true) : (dropRepeats l).Nodup := by
  induction l using dropRepeats.induct with
  | case1 => exact List.nodup_nil
  | case2 a => exact List.nodup_cons.2 ⟨List.not_mem_nil, List.nodup_nil⟩
  | case3 a rest ih =>
    rw [dropRepeats, if_pos rfl]
    exact ih (List.pairwise_cons.1 h).2
  | case4 a b rest hne ih =>
    rw [dropRepeats, if_neg hne]
    obtain ⟨ha, hrest⟩ := List.pairwise_cons.1 h
    refine List.nodup_cons.2 ⟨?_, ih hrest⟩
    -- An equal item further behind would make `b` equal as well.
    intro hmem
    rw [mem_dropRepeats] at hmem
    rcases List.mem_cons.1 hmem with rfl | hmem
    · exact hne rfl
    · exact hne (hanti a b (ha b List.mem_cons_self) ((List.pairwise_cons.1 hrest).1 a hmem))

theorem nodup_inOrder {le : α → α → Bool}
    (htrans : ∀ a b c, le a b = true → le b c = true → le a c = true)
    (htotal : ∀ a b, (le a b || le b a) = true)
    (hanti : ∀ a b, le a b = true → le b a = true → a = b) (l : List α) : (inOrder le l).Nodup :=
  nodup_dropRepeats hanti (List.pairwise_mergeSort htrans htotal l)

/-- Lists of the same items are the same in order. -/
theorem inOrder_congr {le : α → α → Bool}
    (htrans : ∀ a b c, le a b = true → le b c = true → le a c = true)
    (htotal : ∀ a b, (le a b || le b a) = true)
    (hanti : ∀ a b, le a b = true → le b a = true → a = b) {l l' : List α}
    (h : ∀ a, a ∈ l ↔ a ∈ l') : inOrder le l = inOrder le l' := by
  have hnodup := nodup_inOrder htrans htotal hanti
  have hperm : (inOrder le l).Perm (inOrder le l') := by
    refine (List.perm_ext_iff_of_nodup (hnodup l) (hnodup l')).2 ?_
    intro a
    show a ∈ inOrder le l ↔ a ∈ inOrder le l'
    rw [mem_inOrder, mem_inOrder, h]
  exact hperm.eq_of_pairwise (fun a b _ _ hab hba => hanti a b hab hba)
    (pairwise_inOrder htrans htotal l) (pairwise_inOrder htrans htotal l')

/-! ## Searching -/

omit [DecidableEq α] in
theorem findSome?_congr {β : Type} {f g : α → Option β} {l : List α} (h : ∀ a ∈ l, f a = g a) :
    l.findSome? f = l.findSome? g := by
  induction l with
  | nil => rfl
  | cons a l ih =>
    obtain ⟨ha, hl⟩ := List.forall_mem_cons.1 h
    rw [List.findSome?_cons, List.findSome?_cons, ha, ih hl]

omit [DecidableEq α] in
theorem findSome?_filter_isSome {β : Type} (f : α → Option β) (l : List α) :
    (l.filter fun a => (f a).isSome).findSome? f = l.findSome? f := by
  induction l with
  | nil => rfl
  | cons a l ih =>
    cases hf : f a with
    | none => rw [List.filter_cons_of_neg (by simp [hf]), ih, List.findSome?_cons, hf]
    | some b => rw [List.filter_cons_of_pos (by simp [hf]), List.findSome?_cons, List.findSome?_cons, hf]

omit [DecidableEq α] in
/-- Looking a key up is searching for the item of that key. -/
theorem lookup_map {β γ : Type} [DecidableEq β] (key : α → β) (value : α → γ) (l : List α) (k : β) :
    (l.map fun a => (key a, value a)).lookup k = (l.find? fun a => key a = k).map value := by
  induction l with
  | nil => rfl
  | cons a l ih =>
    rw [List.map_cons, List.lookup_cons, ih]
    by_cases h : key a = k
    · rw [List.find?_cons_of_pos (by simpa using h), beq_iff_eq.2 h.symm]
      rfl
    · rw [List.find?_cons_of_neg (by simpa using h), beq_eq_false_iff_ne.2 (Ne.symm h)]

omit [DecidableEq α] in
/-- Where the keys of items differ, a search for a key finds the item of that key. -/
theorem find?_key_eq_some {β : Type} [DecidableEq β] {key : α → β} {l : List α}
    (h : (l.map key).Nodup) {k : β} {a : α} :
    (l.find? fun b => key b = k) = some a ↔ a ∈ l ∧ key a = k := by
  constructor
  · intro hfind
    exact ⟨List.mem_of_find?_eq_some hfind, by simpa using List.find?_some hfind⟩
  · rintro ⟨ha, rfl⟩
    induction l with
    | nil => exact absurd ha (by simp)
    | cons b l ih =>
      obtain ⟨hfresh, hl⟩ := List.nodup_cons.1 h
      rcases List.mem_cons.1 ha with rfl | ha
      · exact List.find?_cons_of_pos (by simp)
      · have hne : key b ≠ key a := fun heq => hfresh (List.mem_map.2 ⟨a, ha, heq.symm⟩)
        rw [List.find?_cons_of_neg (by simpa using hne)]
        exact ih hl ha

omit [DecidableEq α] in
/-- Where the keys of items differ, their order makes no difference to a search for a key. -/
theorem find?_key_perm {β : Type} [DecidableEq β] {key : α → β} {l l' : List α} (h : l.Perm l')
    (hnodup : (l.map key).Nodup) (k : β) :
    (l'.find? fun a => key a = k) = l.find? fun a => key a = k := by
  refine Option.ext fun a => ?_
  rw [find?_key_eq_some hnodup, find?_key_eq_some ((h.map key).nodup hnodup), h.mem_iff]

omit [DecidableEq α] in
/-- Where the keys of items differ, what has the key of an item comes from that item. -/
theorem filter_flatMap_key {β γ : Type} [DecidableEq γ] {key : α → γ} {tag : β → γ} {f : α → List β}
    (htag : ∀ a, ∀ b ∈ f a, tag b = key a) {l : List α} (hnodup : (l.map key).Nodup) (k : γ) :
    (l.flatMap f).filter (fun b => tag b = k) = (l.find? fun a => key a = k).elim [] f := by
  induction l with
  | nil => rfl
  | cons a l ih =>
    obtain ⟨hfresh, hl⟩ := List.nodup_cons.1 hnodup
    rw [List.flatMap_cons, List.filter_append, ih hl]
    by_cases ha : key a = k
    · have hnone : (l.find? fun a => key a = k) = none := by
        refine List.find?_eq_none.2 fun b hb heq => hfresh (List.mem_map.2 ⟨b, hb, ?_⟩)
        exact (of_decide_eq_true heq).trans ha.symm
      have hall : (f a).filter (fun b => tag b = k) = f a :=
        List.filter_eq_self.2 fun b hb => decide_eq_true ((htag a b hb).trans ha)
      rw [hnone, hall, List.find?_cons_of_pos (by simpa using ha)]
      exact List.append_nil _
    · have hnone : (f a).filter (fun b => tag b = k) = [] :=
        List.filter_eq_nil_iff.2 fun b hb heq => ha ((htag a b hb).symm.trans (of_decide_eq_true heq))
      rw [hnone, List.find?_cons_of_neg (by simpa using ha), List.nil_append]

/-- A search through a list in order depends only on the items where something is found. -/
theorem findSome?_inOrder_congr {β : Type} {le : α → α → Bool}
    (htrans : ∀ a b c, le a b = true → le b c = true → le a c = true)
    (htotal : ∀ a b, (le a b || le b a) = true)
    (hanti : ∀ a b, le a b = true → le b a = true → a = b) {f : α → Option β} {l l' : List α}
    (h : ∀ a, (f a).isSome = true → (a ∈ l ↔ a ∈ l')) :
    (inOrder le l).findSome? f = (inOrder le l').findSome? f := by
  have hpairwise := fun l : List α => (pairwise_inOrder htrans htotal l).filter fun a => (f a).isSome
  have hnodup := fun l : List α =>
    (nodup_dropRepeats hanti (List.pairwise_mergeSort htrans htotal l)).filter fun a => (f a).isSome
  have hperm : ((inOrder le l).filter fun a => (f a).isSome).Perm
      ((inOrder le l').filter fun a => (f a).isSome) := by
    refine (List.perm_ext_iff_of_nodup (hnodup l) (hnodup l')).2 ?_
    intro a
    rw [List.mem_filter, List.mem_filter]
    refine and_congr_left fun hsome => ?_
    show a ∈ inOrder le l ↔ a ∈ inOrder le l'
    rw [mem_inOrder, mem_inOrder]
    exact h a hsome
  have hsame := hperm.eq_of_pairwise (fun a b _ _ hab hba => hanti a b hab hba) (hpairwise l) (hpairwise l')
  rw [← findSome?_filter_isSome, hsame, findSome?_filter_isSome]

/-! ## Related lists -/

section
variable {β : Type} {R : α → β → Prop} {l : List α} {l' : List β}

omit [DecidableEq α] in
theorem exists_of_mem_left (h : List.Forall₂ R l l') {a : α} (ha : a ∈ l) : ∃ b ∈ l', R a b := by
  induction h with
  | nil => exact absurd ha (by simp)
  | cons hfirst _ ih =>
    rcases List.mem_cons.1 ha with rfl | ha
    · exact ⟨_, List.mem_cons_self, hfirst⟩
    · obtain ⟨b, hb, hab⟩ := ih ha
      exact ⟨b, List.mem_cons_of_mem _ hb, hab⟩

omit [DecidableEq α] in
theorem exists_of_mem_right (h : List.Forall₂ R l l') {b : β} (hb : b ∈ l') : ∃ a ∈ l, R a b := by
  induction h with
  | nil => exact absurd hb (by simp)
  | cons hfirst _ ih =>
    rcases List.mem_cons.1 hb with rfl | hb
    · exact ⟨_, List.mem_cons_self, hfirst⟩
    · obtain ⟨a, ha, hab⟩ := ih hb
      exact ⟨a, List.mem_cons_of_mem _ ha, hab⟩

end

end PluginSandbox
