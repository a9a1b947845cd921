import Mathlib.Data.List.Induction
import PluginSandbox.Artifact

/-!
# Writing to artifacts

What a write to a store without sealed artifacts does: it succeeds, and puts the bytes at the end of the
artifact of its name.  So after any writes to a new store, an artifact exists for each name that was written
to and holds everything that was written to it (`bytes_outputs`).
-/

namespace PluginSandbox
namespace ArtifactStore

variable {s : ArtifactStore}

theorem get?_put (s : ArtifactStore) (a : Artifact) (name : String) :
    (s.put a).get? name = if a.name = name then some a else s.get? name := by
  rw [get?, put]
  show (s.byName.insert a.name a)[name]? = _
  rw [Std.TreeMap.getElem?_insert]
  simp only [Std.LawfulEqCmp.compare_eq_iff_eq]
  rfl

theorem get?_empty (name : String) : empty.get? name = none :=
  Std.TreeMap.getElem?_emptyc

theorem get?_sealAll (s : ArtifactStore) (name : String) :
    s.sealAll.get? name = (s.get? name).map Artifact.sealed := by
  rw [get?, sealAll]
  exact Std.TreeMap.getElem?_map

theorem contains_eq (s : ArtifactStore) (name : String) : s.contains name = (s.get? name).isSome :=
  Std.TreeMap.contains_eq_isSome_getElem?

/-- The names of a store are those that have an artifact. -/
theorem mem_names {name : String} : name ∈ s.names ↔ (s.get? name).isSome = true := by
  rw [names, Std.TreeMap.mem_keys, get?, Std.TreeMap.mem_iff_isSome_getElem?]

theorem nodup_names (s : ArtifactStore) : s.names.Nodup :=
  Std.TreeMap.nodup_keys

/-- Stores that hold artifacts of the same names list the same names. -/
theorem names_congr {s' : ArtifactStore} (h : ∀ name, (s'.get? name).isSome = (s.get? name).isSome) :
    s'.names = s.names := by
  have hperm : s'.names.Perm s.names := by
    refine (List.perm_ext_iff_of_nodup (nodup_names s') (nodup_names s)).2 fun name => ?_
    rw [mem_names, mem_names, h]
  refine hperm.eq_of_pairwise (fun a b _ _ hab hba => ?_) Std.TreeMap.ordered_keys Std.TreeMap.ordered_keys
  exact absurd (hab.symm.trans (Std.OrientedCmp.gt_of_lt hba)) (by simp)

theorem names_empty : empty.names = [] := by
  refine List.eq_nil_iff_forall_not_mem.2 fun name hname => ?_
  rw [mem_names, get?_empty] at hname
  exact absurd hname (by simp)

/-- Every artifact of a store is stored under its own name and can be written to. -/
def Open (s : ArtifactStore) : Prop :=
  ∀ name a, s.get? name = some a → a.name = name ∧ a.isSealed = false

theorem open_empty : Open empty := by
  intro name a h
  rw [get?_empty] at h
  exact absurd h (by simp)

theorem Open.obtain (h : s.Open) (name : String) :
    (s.obtain name).name = name ∧ (s.obtain name).isSealed = false := by
  rw [ArtifactStore.obtain]
  cases ha : s.get? name with
  | none => exact ⟨rfl, rfl⟩
  | some a => exact h name a ha

theorem Open.put (h : s.Open) {a : Artifact} (ha : a.isSealed = false) : (s.put a).Open := by
  intro name b hb
  rw [get?_put] at hb
  split at hb
  · next hname =>
    obtain rfl := Option.some.inj hb
    exact ⟨hname, ha⟩
  · exact h name b hb

theorem Open.ensure (h : s.Open) (name : String) : (s.ensure name).Open := by
  rw [ArtifactStore.ensure]
  split
  · exact h
  · exact h.put (h.obtain name).2

theorem obtain_ensure (h : s.Open) (name : String) : (s.ensure name).obtain name = s.obtain name := by
  rw [ensure]
  split
  · rfl
  · rw [obtain, get?_put, if_pos (h.obtain name).1]
    rfl

/-- A name has an artifact from the first request for it on, if that is stored under its own name. -/
theorem get?_ensure {name : String} (h : (s.obtain name).name = name) (other : String) :
    (s.ensure name).get? other = if name = other then some (s.obtain name) else s.get? other := by
  rw [ensure]
  split
  · next hcontains =>
    split
    · next heq =>
      subst heq
      rw [contains_eq] at hcontains
      obtain ⟨a, ha⟩ := Option.isSome_iff_exists.1 hcontains
      rw [obtain, ha]
      rfl
    · rfl
  · rw [get?_put, h]

/-- A write succeeds, and puts the bytes at the end of the artifact of its name. -/
theorem write_of_open (h : s.Open) (name : String) (data : ByteArray) :
    (s.write name data).1 = .ok () ∧ (s.write name data).2.Open ∧
      ∀ other, (s.write name data).2.get? other =
        if name = other then some ((s.obtain name).append data) else s.get? other := by
  rw [write]
  split
  · next hempty =>
    have hdata : data = ByteArray.empty := ByteArray.size_eq_zero_iff.1 (beq_iff_eq.1 hempty)
    refine ⟨rfl, h.ensure name, ?_⟩
    intro other
    rw [get?_ensure (h.obtain name).1, hdata, Artifact.append, ByteArray.append_empty]
  · split
    · next hsealed =>
      rw [(h.obtain name).2] at hsealed
      exact absurd hsealed (by simp)
    · refine ⟨rfl, h.put (h.obtain name).2, ?_⟩
      intro other
      rw [get?_put]
      show (if (s.obtain name).name = other then _ else _) = _
      rw [(h.obtain name).1]

/-- The store after a write to the output of a name, which exists from then on. -/
def output (s : ArtifactStore) (name : String) (data : ByteArray) : ArtifactStore :=
  ((s.ensure name).write name data).2

theorem Open.output (h : s.Open) (name : String) (data : ByteArray) : (s.output name data).Open :=
  (write_of_open (h.ensure name) name data).2.1

theorem get?_output (h : s.Open) (name other : String) (data : ByteArray) :
    (s.output name data).get? other =
      if name = other then some ((s.obtain name).append data) else s.get? other := by
  rw [ArtifactStore.output, (write_of_open (h.ensure name) name data).2.2, obtain_ensure h,
    get?_ensure (h.obtain name).1]
  split <;> rfl

theorem bytes_obtain (s : ArtifactStore) (name : String) :
    (s.obtain name).bytes = ((s.get? name).map Artifact.bytes).getD .empty := by
  rw [obtain]
  cases s.get? name <;> rfl

/-! ## Many writes -/

/-- The store after some writes, each to the output of a name. -/
def outputs (s : ArtifactStore) (writes : List (String × ByteArray)) : ArtifactStore :=
  writes.foldl (fun s write => s.output write.1 write.2) s

/-- Everything that is written to a name, one write after the other. -/
def bytesOf (writes : List (String × ByteArray)) (name : String) : ByteArray :=
  ((writes.filter fun write => write.1 = name).map Prod.snd).foldl (· ++ ·) .empty

theorem outputs_snoc (s : ArtifactStore) (writes : List (String × ByteArray)) (name : String)
    (data : ByteArray) : s.outputs (writes ++ [(name, data)]) = (s.outputs writes).output name data :=
  List.foldl_append

theorem bytesOf_snoc (writes : List (String × ByteArray)) (name other : String) (data : ByteArray) :
    bytesOf (writes ++ [(name, data)]) other =
      if name = other then bytesOf writes other ++ data else bytesOf writes other := by
  rw [bytesOf, List.filter_append]
  by_cases h : name = other
  · rw [if_pos h, List.filter_cons_of_pos (by simpa using h), List.map_append, List.foldl_append]
    rfl
  · rw [if_neg h, List.filter_cons_of_neg (by simpa using h), List.filter_nil, List.append_nil]
    rfl

theorem bytesOf_of_notMem {writes : List (String × ByteArray)} {name : String}
    (h : name ∉ writes.map Prod.fst) : bytesOf writes name = .empty := by
  have hnone : (writes.filter fun write => write.1 = name) = [] := by
    refine List.filter_eq_nil_iff.2 fun write hwrite heq => h ?_
    exact List.mem_map.2 ⟨write, hwrite, of_decide_eq_true heq⟩
  rw [bytesOf, hnone]
  rfl

theorem Open.outputs (h : s.Open) (writes : List (String × ByteArray)) : (s.outputs writes).Open := by
  induction writes generalizing s with
  | nil => exact h
  | cons write writes ih => exact ih (h.output write.1 write.2)

/-- After some writes to a new store, the names that were written to have artifacts, which hold all that was
written to them. -/
theorem bytes_outputs (writes : List (String × ByteArray)) (name : String) :
    ((empty.outputs writes).get? name).map Artifact.bytes =
      if name ∈ writes.map Prod.fst then some (bytesOf writes name) else none := by
  induction writes using List.reverseRecOn with
  | nil => rw [outputs, List.foldl_nil, get?_empty]; rfl
  | append_singleton writes write ih =>
    obtain ⟨other, data⟩ := write
    rw [outputs_snoc, get?_output (open_empty.outputs writes), bytesOf_snoc]
    simp only [List.map_append, List.mem_append, List.map_singleton, List.mem_singleton]
    by_cases heq : other = name
    · subst heq
      rw [if_pos rfl, if_pos rfl, if_pos (Or.inr rfl), Option.map_some, Artifact.append, bytes_obtain, ih]
      split
      · rfl
      · next hnone => rw [bytesOf_of_notMem hnone]; rfl
    · rw [if_neg heq, if_neg heq, ih]
      simp only [Ne.symm heq, or_false]

end ArtifactStore
end PluginSandbox
