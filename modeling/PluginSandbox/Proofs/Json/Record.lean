import PluginSandbox.Json.Decoder
import PluginSandbox.Proofs.Json.Document

/-!
# Typed data that is written and read back

What each reader of typed data gives for the tree of a document that was written for it: one lemma for each
form of data.  A record is read field by field, whatever the fields hold (`fields?_parsed`), and a part that may be
absent is read as it is (`optional?_parsed`).
-/

namespace PluginSandbox
namespace Json

/-! ## Scalars -/

@[simp] theorem string?_parsed (s : String) : (parsed (.str s)).string? = some s :=
  decodeText_rawText s

theorem natBelow?_parsed {n bound : Nat} (h : n < bound) :
    (parsed (.nat n)).natBelow? bound = some n := by
  show (if n < bound then some n else none) = some n
  exact if_pos h

theorem count?_parsed {n : Nat} (h : n < 1 <<< 64) : (parsed (.nat n)).count? = some n :=
  natBelow?_parsed h

theorem int64_bounds (n : Int64) : -(1 <<< 63) ≤ n.toInt ∧ n.toInt ≤ (1 <<< 63) - 1 :=
  ⟨n.le_toInt, Int.le_sub_one_of_lt n.toInt_lt⟩

theorem int64?_parsed (n : Int64) : (parsed (.int n.toInt)).int64? = some n := by
  show Option.map Int64.ofInt (if -(1 <<< 63) ≤ n.toInt ∧ n.toInt ≤ (1 <<< 63) - 1 then some n.toInt else none)
    = some n
  rw [if_pos (int64_bounds n), Option.map_some, Int64.ofInt_toInt]

/-! ## Arrays and records -/

theorem list?_parsed {α : Type} {write : α → Json} {read : Parsed → Option α} {items : List α}
    (h : ∀ a ∈ items, read (parsed (write a)) = some a) :
    (parsed (.arr (items.map write))).list? read = some items := by
  show (parsedItems (items.map write)).mapM read = some items
  induction items with
  | nil => rfl
  | cons a items ih =>
    obtain ⟨ha, hitems⟩ := List.forall_mem_cons.1 h
    rw [List.map_cons, parsedItems, List.mapM_cons, ha, ih hitems]
    rfl

theorem members?_parsed (members : List (String × Json)) :
    (parsed (.obj members)).members? some = some (members.map fun m => (m.1, parsed m.2)) := by
  show (parsedMembers members).mapM _ = _
  induction members with
  | nil => rfl
  | cons m members ih =>
    obtain ⟨key, value⟩ := m
    rw [parsedMembers, List.mapM_cons, ih]
    simp only [decodeText_rawText]
    rfl

theorem named_cons (name : String) (m : String × Parsed) (rest : List (String × Parsed)) :
    Parsed.named name (m :: rest) =
      if m.1 = name then m.2 :: Parsed.named name rest else Parsed.named name rest := by
  rw [Parsed.named, List.filterMap_cons]
  by_cases h : m.1 = name
  · simp only [if_pos h]
    rfl
  · simp only [if_neg h]
    rfl

theorem named_eq_nil {name : String} {members : List (String × Parsed)}
    (h : name ∉ members.map Prod.fst) : Parsed.named name members = [] := by
  induction members with
  | nil => rfl
  | cons m rest ih =>
    rw [List.map_cons, List.mem_cons, not_or] at h
    rw [named_cons, if_neg (Ne.symm h.1), ih h.2]

/-- A name that occurs once among members has the value beside it. -/
theorem named_of_mem {members : List (String × Parsed)} (h : (members.map Prod.fst).Nodup)
    {m : String × Parsed} (hm : m ∈ members) : Parsed.named m.1 members = [m.2] := by
  induction members with
  | nil => exact absurd hm List.not_mem_nil
  | cons first rest ih =>
    rw [List.map_cons, List.nodup_cons] at h
    obtain ⟨hfirst, hrest⟩ := h
    rcases List.mem_cons.1 hm with rfl | hm
    · rw [named_cons, if_pos rfl, named_eq_nil hfirst]
    · have hne : first.1 ≠ m.1 := by
        intro heq
        exact hfirst (List.mem_map.2 ⟨m, hm, heq.symm⟩)
      rw [named_cons, if_neg hne]
      exact ih hrest hm

theorem select?_of_subset {members chosen : List (String × Parsed)}
    (h : (members.map Prod.fst).Nodup) (hsub : ∀ m ∈ chosen, m ∈ members) :
    Parsed.select? (chosen.map Prod.fst) members = some (chosen.map fun m => some m.2) := by
  induction chosen with
  | nil => rfl
  | cons m rest ih =>
    obtain ⟨hm, hrest⟩ := List.forall_mem_cons.1 hsub
    have hselect := ih hrest
    rw [Parsed.select?] at hselect ⊢
    rw [List.map_cons, List.mapM_cons, hselect, named_of_mem h hm]
    rfl

/-- A record with different names is read field by field. -/
theorem fields?_parsed (members : List (String × Json)) (h : (members.map Prod.fst).Nodup) :
    (parsed (.obj members)).fields? (members.map Prod.fst) =
      some (members.map fun m => some (parsed m.2)) := by
  have hnames : (members.map fun m => (m.1, parsed m.2)).map Prod.fst = members.map Prod.fst := by
    rw [List.map_map]
    rfl
  show ((parsed (.obj members)).members? some).bind (Parsed.select? (members.map Prod.fst)) = _
  rw [members?_parsed, Option.bind_some, ← hnames, select?_of_subset (by rw [hnames]; exact h)
    fun m hm => hm, List.map_map]
  rfl

/-! ## Variants -/

@[simp] theorem variant?_str (name : String) : (parsed (.str name)).variant? = some (name, none) := by
  show (decodeText (rawText name)).map _ = _
  rw [decodeText_rawText, Option.map_some]

@[simp] theorem variant?_tagged (name : String) (value : Json) :
    (parsed (.tagged name value)).variant? = some (name, some (parsed value)) := by
  show (decodeText (rawText name)).map _ = _
  rw [decodeText_rawText, Option.map_some]

@[simp] theorem bareVariant?_str (name : String) :
    (parsed (.str name)).bareVariant? = some name := by
  rw [Parsed.bareVariant?, variant?_str]
  rfl

/-! ## Optional parts -/

/-- An optional part is read as itself, if what is written for one that is there is not read as null. -/
theorem optional?_parsed {α : Type} {write : α → Json} {read : Parsed → Option α} {part : Option α}
    (hnull : ∀ a, parsed (write a) ≠ .null) (h : ∀ a ∈ part, read (parsed (write a)) = some a) :
    Parsed.optional? read (some (parsed (option write part))) = some part := by
  cases part with
  | none => rfl
  | some a =>
    rw [option, Parsed.optional?, Parsed.nullable?, h a rfl, Option.map_some]
    exact hnull a

/-! ## Documents that fit -/

theorem fits_nat {n : Nat} (h : n < 1 <<< 64) : (Json.nat n).Fits := by
  show IntFits n
  rw [IntFits]
  omega

theorem fits_int64 (n : Int64) : (Json.int n.toInt).Fits := by
  obtain ⟨hlow, hhigh⟩ := int64_bounds n
  show IntFits n.toInt
  rw [IntFits]
  omega

theorem fits_tagged {name : String} {value : Json} (h : value.Fits) : (tagged name value).Fits :=
  ⟨h, trivial⟩

theorem fits_arr {α : Type} {write : α → Json} {items : List α} (h : ∀ a ∈ items, (write a).Fits) :
    (Json.arr (items.map write)).Fits := by
  refine itemsFit_iff.2 ?_
  intro j hj
  obtain ⟨a, ha, rfl⟩ := List.mem_map.1 hj
  exact h a ha


theorem fits_option {α : Type} {write : α → Json} {part : Option α} (h : ∀ a ∈ part, (write a).Fits) :
    (option write part).Fits := by
  cases part with
  | none => exact trivial
  | some a => exact h a rfl

end Json
end PluginSandbox
