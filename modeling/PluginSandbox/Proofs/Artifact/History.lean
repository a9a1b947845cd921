import PluginSandbox.Proofs.Artifact

/-!
# Histories of an artifact store

What a store holds after any actions on its artifacts, in any order and on any names: asking for an artifact, writing
to it, flushing it, sealing it, and sealing all artifacts that exist by then.

The second side of the statements is the history itself.  A name exists if an action has named it
(`Action.Creates`).  It is sealed from the first action on that seals it (`Action.Seals`), and sealing all artifacts
seals only those that exist: one that is created behind it can be written to.  What an artifact holds is what was
written to its name before that action (`writtenTo`).

* `ArtifactStore.Records`: a store holds exactly what a history says.
* `ArtifactStore.Continues`: what a later store still has of an earlier one.
* `ArtifactStore.Performs`: what one action may change.
-/

namespace PluginSandbox
namespace ArtifactStore

/-- An action on the artifacts of a store: asking for the artifact of a name, writing to it, flushing it, and sealing it
or all of them. -/
inductive Action where
  | request (name : String)
  | write (name : String) (data : ByteArray)
  | flush (name : String)
  | sealOne (name : String)
  | sealAll

/-- What an action on a store comes to, and the store behind it. -/
def perform (s : ArtifactStore) : Action → Except SealedArtifact Unit × ArtifactStore
  | .request name | .flush name => (.ok (), s.ensure name)
  | .write name data => s.write name data
  | .sealOne name => (.ok (), s.sealOne name)
  | .sealAll => (.ok (), s.sealAll)

/-- The store after some actions, whether they were refused or not. -/
def after (s : ArtifactStore) (history : List Action) : ArtifactStore :=
  history.foldl (fun s action => (s.perform action).2) s

@[simp] theorem after_nil (s : ArtifactStore) : s.after [] = s := rfl

theorem after_append (s : ArtifactStore) (history later : List Action) :
    s.after (history ++ later) = (s.after history).after later :=
  List.foldl_append

theorem after_snoc (s : ArtifactStore) (history : List Action) (action : Action) :
    s.after (history ++ [action]) = ((s.after history).perform action).2 :=
  List.foldl_append

/-! ## What a history says -/

namespace Action

/-- The name that an action is about; sealing all artifacts is about none. -/
def name? : Action → Option String
  | .request name | .write name _ | .flush name | .sealOne name => some name
  | .sealAll => none

/-- Some actions create the artifact of a name. -/
def Creates (history : List Action) (name : String) : Prop :=
  ∃ action ∈ history, action.name? = some name

instance (history : List Action) (name : String) : Decidable (Creates history name) :=
  inferInstanceAs (Decidable (∃ action ∈ history, _))

/-- An action behind some others seals the artifact of a name. -/
def Seals (before : List Action) (name : String) : Action → Prop
  | .sealOne other => other = name
  | .sealAll => Creates before name
  | .request _ | .write _ _ | .flush _ => False

instance (before : List Action) (name : String) : (action : Action) → Decidable (Seals before name action)
  | .sealOne other => inferInstanceAs (Decidable (other = name))
  | .sealAll => inferInstanceAs (Decidable (Creates before name))
  | .request _ | .write _ _ | .flush _ => inferInstanceAs (Decidable False)

/-- Some actions behind others seal the artifact of a name. -/
def SealedFrom (before history : List Action) (name : String) : Prop :=
  ∃ between action later, history = between ++ action :: later ∧ Seals (before ++ between) name action

/-- Some actions seal the artifact of a name. -/
def SealedBy (history : List Action) (name : String) : Prop :=
  SealedFrom [] history name

/-- The bytes that an action writes to a name. -/
def dataFor (name : String) : Action → ByteArray
  | .write other data => if other = name then data else .empty
  | _ => .empty

/-- The actions in front of the first one that seals the artifact of a name, where some others came before. -/
def unsealedPart (name : String) (before : List Action) : List Action → List Action
  | [] => []
  | action :: rest =>
    if Seals before name action then [] else action :: unsealedPart name (before ++ [action]) rest

/-- What some actions write to a name, in order, before its artifact is sealed. -/
def writtenTo (history : List Action) (name : String) : ByteArray :=
  ((unsealedPart name [] history).map (dataFor name)).foldl (· ++ ·) .empty

theorem creates_snoc {history : List Action} {action : Action} {name : String} :
    Creates (history ++ [action]) name ↔ Creates history name ∨ action.name? = some name := by
  simp [Creates, or_and_right, exists_or]

theorem not_sealedFrom_nil (before : List Action) (name : String) : ¬ SealedFrom before [] name := by
  rintro ⟨between, action, later, heq, _⟩
  exact absurd heq (by simp)

/-- The first of some actions seals an artifact, or the others do. -/
theorem sealedFrom_cons {before rest : List Action} {action : Action} {name : String} :
    SealedFrom before (action :: rest) name ↔
      Seals before name action ∨ SealedFrom (before ++ [action]) rest name := by
  constructor
  · rintro ⟨between, found, later, heq, hseals⟩
    cases between with
    | nil =>
      obtain ⟨rfl, rfl⟩ := List.cons.inj heq
      exact .inl (by simpa using hseals)
    | cons first between =>
      obtain ⟨rfl, rfl⟩ := List.cons.inj heq
      exact .inr ⟨between, found, later, rfl, by simpa using hseals⟩
  · rintro (hseals | ⟨between, found, later, rfl, hseals⟩)
    · exact ⟨[], action, rest, rfl, by simpa using hseals⟩
    · exact ⟨action :: between, found, later, rfl, by simpa using hseals⟩

/-- The last of some actions seals an artifact, or the others do. -/
theorem sealedBy_snoc {history : List Action} {action : Action} {name : String} :
    SealedBy (history ++ [action]) name ↔ SealedBy history name ∨ Seals history name action := by
  have hgeneral : ∀ before, SealedFrom before (history ++ [action]) name ↔
      SealedFrom before history name ∨ Seals (before ++ history) name action := by
    induction history with
    | nil =>
      intro before
      simp [sealedFrom_cons, not_sealedFrom_nil]
    | cons first history ih =>
      intro before
      rw [List.cons_append, sealedFrom_cons, sealedFrom_cons, ih, or_assoc, List.append_assoc]
      rfl
  exact hgeneral []

theorem sealedBy_snoc_of_not_seals {history : List Action} {action : Action} {name : String}
    (h : ¬ Seals history name action) : SealedBy (history ++ [action]) name ↔ SealedBy history name := by
  rw [sealedBy_snoc, or_iff_left h]

/-- Where some actions seal an artifact, the last of them is not in the part in front of that. -/
theorem unsealedPart_snoc {history : List Action} {action : Action} {name : String} {before : List Action}
    (h : SealedFrom before (history ++ [action]) name) :
    unsealedPart name before (history ++ [action]) = unsealedPart name before history := by
  induction history generalizing before with
  | nil => exact if_pos ((sealedFrom_cons.1 h).resolve_right (not_sealedFrom_nil _ _))
  | cons first history ih =>
    rw [List.cons_append, unsealedPart, unsealedPart]
    split
    · rfl
    · next hfirst => rw [ih ((sealedFrom_cons.1 h).resolve_left hfirst)]

/-- Where an artifact is not sealed, all actions are in the part in front of that. -/
theorem unsealedPart_of_open {history : List Action} {name : String} {before : List Action}
    (h : ¬ SealedFrom before history name) : unsealedPart name before history = history := by
  induction history generalizing before with
  | nil => rfl
  | cons first history ih =>
    rw [sealedFrom_cons, not_or] at h
    rw [unsealedPart, if_neg h.1, ih h.2]

/-- Nothing is added to what was written to a sealed artifact, and sealing it adds nothing. -/
theorem writtenTo_snoc_of_sealed {history : List Action} {action : Action} {name : String}
    (h : SealedBy (history ++ [action]) name) :
    writtenTo (history ++ [action]) name = writtenTo history name := by
  rw [writtenTo, unsealedPart_snoc h]
  rfl

/-- What an action writes to an artifact that is not sealed comes behind what was written to it. -/
theorem writtenTo_snoc_of_open {history : List Action} {action : Action} {name : String}
    (h : ¬ SealedBy (history ++ [action]) name) :
    writtenTo (history ++ [action]) name = writtenTo history name ++ dataFor name action := by
  have hbefore : ¬ SealedBy history name := fun hsealed => h (sealedBy_snoc.2 (.inl hsealed))
  rw [writtenTo, writtenTo, unsealedPart_of_open h, unsealedPart_of_open hbefore, List.map_append,
    List.foldl_append]
  rfl

end Action

/-! ## One action -/

/-- Every artifact of a store is stored under its own name, and no two of them have one identity. -/
structure WellFormed (s : ArtifactStore) : Prop where
  named : ∀ {name : String} {a : Artifact}, s.get? name = some a → a.name = name
  id_lt : ∀ {name : String} {a : Artifact}, s.get? name = some a → a.id < s.size
  ids : ∀ {name other : String} {a b : Artifact}, s.get? name = some a → s.get? other = some b →
    a.id = b.id → name = other

variable {s : ArtifactStore} {action : Action} {name other : String}

theorem wellFormed_empty : empty.WellFormed := by
  have hnone : ∀ {name a}, empty.get? name ≠ some a := by
    intro name a h
    rw [get?_empty] at h
    exact absurd h (by simp)
  exact ⟨fun h => (hnone h).elim, fun h => (hnone h).elim, fun h => (hnone h).elim⟩

theorem WellFormed.name_obtain (h : s.WellFormed) (name : String) : (s.obtain name).name = name := by
  rw [ArtifactStore.obtain]
  cases ha : s.get? name with
  | none => rfl
  | some a => exact h.named ha

theorem obtain_of_get? {a : Artifact} (h : s.get? name = some a) : s.obtain name = a := by
  rw [obtain, h]
  rfl

/-- What an action makes of an artifact that it is about. -/
def Action.acted (a : Artifact) : Action → Artifact
  | .write _ data => if a.isSealed then a else a.append data
  | .sealOne _ | .sealAll => a.sealed
  | .request _ | .flush _ => a

theorem Action.id_acted (action : Action) (a : Artifact) : (action.acted a).id = a.id := by
  cases action with
  | write _ data =>
    rw [acted]
    split <;> rfl
  | request _ | flush _ | sealOne _ | sealAll => rfl

theorem Action.name_acted (action : Action) (a : Artifact) : (action.acted a).name = a.name := by
  cases action with
  | write _ data =>
    rw [acted]
    split <;> rfl
  | request _ | flush _ | sealOne _ | sealAll => rfl

theorem WellFormed.get?_put_acted (h : s.WellFormed) (action : Action) (name other : String) :
    (s.put (action.acted (s.obtain name))).get? other =
      if name = other then some (action.acted (s.obtain name)) else s.get? other := by
  rw [get?_put, action.name_acted, h.name_obtain]

/-- Behind an action on a name, that name has an artifact, and all others have those they had. -/
theorem get?_perform (h : s.WellFormed) (haction : action.name? = some name) (other : String) :
    (s.perform action).2.get? other =
      if name = other then some (action.acted (s.obtain name)) else s.get? other := by
  have hname := h.name_obtain name
  cases action with
  | request _ | flush _ =>
    obtain rfl := Option.some.inj haction
    exact get?_ensure hname other
  | sealOne _ =>
    obtain rfl := Option.some.inj haction
    exact h.get?_put_acted (.sealOne _) _ other
  | write written data =>
    obtain rfl : written = name := Option.some.inj haction
    have hput := h.get?_put_acted (.write written data) written other
    rw [perform, write]
    rw [Action.acted] at hput ⊢
    by_cases hempty : data.isEmpty = true
    · -- Writing nothing leaves the artifact as it is.
      have hdata : data = ByteArray.empty := ByteArray.size_eq_zero_iff.1 (beq_iff_eq.1 hempty)
      rw [if_pos hempty, get?_ensure hname, hdata, Artifact.append, ByteArray.append_empty, ite_self]
    rw [if_neg hempty]
    by_cases hsealed : (s.obtain written).isSealed = true
    · rw [if_pos hsealed, if_pos hsealed]
      exact get?_ensure hname other
    · rw [if_neg hsealed] at hput
      rw [if_neg hsealed, if_neg hsealed]
      exact hput
  | sealAll => exact absurd haction (by simp [Action.name?])

theorem get?_perform_sealAll (s : ArtifactStore) (name : String) :
    (s.perform .sealAll).2.get? name = (s.get? name).map Artifact.sealed :=
  get?_sealAll s name

theorem size_put (s : ArtifactStore) (a : Artifact) :
    (s.put a).size = if (s.get? a.name).isSome = true then s.size else s.size + 1 := by
  rw [← contains_eq]
  exact Std.TreeMap.size_insert

theorem size_sealAll (s : ArtifactStore) : s.sealAll.size = s.size :=
  Std.TreeMap.size_map

theorem size_ensure (h : (s.obtain name).name = name) :
    (s.ensure name).size = if (s.get? name).isSome = true then s.size else s.size + 1 := by
  rw [ensure, contains_eq]
  split
  · rfl
  · next hnone => rw [size_put, h, if_neg hnone]

/-- An action on a name adds an artifact if there was none. -/
theorem size_perform (h : s.WellFormed) (haction : action.name? = some name) :
    (s.perform action).2.size = if (s.get? name).isSome = true then s.size else s.size + 1 := by
  have hname := h.name_obtain name
  cases action with
  | request _ | flush _ =>
    obtain rfl := Option.some.inj haction
    exact size_ensure hname
  | sealOne _ =>
    obtain rfl := Option.some.inj haction
    rw [perform, sealOne, size_put]
    show (if (s.get? (s.obtain _).name).isSome = true then _ else _) = _
    rw [hname]
  | write _ data =>
    obtain rfl := Option.some.inj haction
    rw [perform, write]
    split
    · exact size_ensure hname
    · split
      · exact size_ensure hname
      · rw [size_put]
        show (if (s.get? (s.obtain _).name).isSome = true then _ else _) = _
        rw [hname]
  | sealAll => exact absurd haction (by simp [Action.name?])

theorem Action.eq_sealAll (h : action.name? = none) : action = .sealAll := by
  cases action with
  | sealAll => rfl
  | request _ | write _ _ | flush _ | sealOne _ => exact absurd h (by simp [name?])

theorem size_le_perform (h : s.WellFormed) (action : Action) : s.size ≤ (s.perform action).2.size := by
  cases haction : action.name? with
  | some name =>
    rw [size_perform h haction]
    split <;> omega
  | none =>
    rw [Action.eq_sealAll haction]
    exact Nat.le_of_eq (size_sealAll s).symm

/-- What an action on one name or on all names makes of an artifact that is there. -/
theorem get?_perform_of_some (h : s.WellFormed) {a : Artifact} (ha : s.get? name = some a) :
    (s.perform action).2.get? name =
      some (if action.name? = some name ∨ action.name? = none then action.acted a else a) := by
  cases haction : action.name? with
  | some acted =>
    rw [get?_perform h haction]
    by_cases heq : acted = name
    · subst heq
      rw [if_pos rfl, if_pos (.inl rfl), obtain_of_get? ha]
    · rw [if_neg heq, ha, if_neg (by simpa using heq)]
  | none =>
    obtain rfl := Action.eq_sealAll haction
    rw [get?_perform_sealAll, ha, if_pos (.inr rfl)]
    rfl

/-- What an action makes of a name without an artifact. -/
theorem get?_perform_of_none (h : s.WellFormed) (hnone : s.get? name = none) :
    (s.perform action).2.get? name =
      if action.name? = some name then some (action.acted (s.obtain name)) else none := by
  cases haction : action.name? with
  | some acted =>
    rw [get?_perform h haction]
    by_cases heq : acted = name
    · subst heq
      rw [if_pos rfl, if_pos rfl]
    · rw [if_neg heq, hnone, if_neg (by simpa using heq)]
  | none =>
    obtain rfl := Action.eq_sealAll haction
    rw [get?_perform_sealAll, hnone, if_neg (by simp)]
    rfl

/-- An artifact behind an action was there before, or it is new and the action has named it. -/
theorem origin_of_get?_perform (h : s.WellFormed) {a : Artifact} (ha : (s.perform action).2.get? name = some a) :
    (∃ b, s.get? name = some b ∧ a.id = b.id ∧ a.name = b.name) ∨
      s.get? name = none ∧ action.name? = some name ∧ a.id = s.size ∧ a.name = name := by
  cases hb : s.get? name with
  | some b =>
    rw [get?_perform_of_some h hb] at ha
    obtain rfl := Option.some.inj ha
    refine .inl ⟨b, rfl, ?_⟩
    split
    · exact ⟨action.id_acted b, action.name_acted b⟩
    · exact ⟨rfl, rfl⟩
  | none =>
    rw [get?_perform_of_none h hb] at ha
    split at ha
    · next haction =>
      obtain rfl := Option.some.inj ha
      refine .inr ⟨rfl, haction, ?_, ?_⟩
      · rw [action.id_acted, obtain, hb]
        rfl
      · rw [action.name_acted, h.name_obtain]
    · exact absurd ha (by simp)

/-- An artifact that an action creates has an identity that none had before. -/
theorem WellFormed.perform (h : s.WellFormed) (action : Action) : (s.perform action).2.WellFormed := by
  have hsize := size_le_perform h action
  constructor
  · intro name a ha
    obtain ⟨b, hb, _, hname⟩ | ⟨_, _, _, hname⟩ := origin_of_get?_perform h ha
    · exact hname.trans (h.named hb)
    · exact hname
  · intro name a ha
    obtain ⟨b, hb, hid, _⟩ | ⟨hnone, haction, hid, _⟩ := origin_of_get?_perform h ha
    · have := h.id_lt hb
      omega
    · rw [size_perform h haction, if_neg (by simp [hnone])]
      omega
  · intro name other a b ha hb heq
    obtain ⟨a', ha', hida, _⟩ | ⟨_, hnewa, hida, _⟩ := origin_of_get?_perform h ha <;>
      obtain ⟨b', hb', hidb, _⟩ | ⟨_, hnewb, hidb, _⟩ := origin_of_get?_perform h hb
    · exact h.ids ha' hb' (by omega)
    · have := h.id_lt ha'
      omega
    · have := h.id_lt hb'
      omega
    · exact Option.some.inj (hnewa.symm.trans hnewb)

theorem WellFormed.after (h : s.WellFormed) (history : List Action) : (s.after history).WellFormed := by
  induction history generalizing s with
  | nil => exact h
  | cons action history ih => exact ih (h.perform action)

/-! ## What a store holds -/

/-- A store holds exactly what a history says.  Its names are those that were created, in order and each once, and
every one of them has one artifact, with an identity of its own.  That artifact holds what was written to the name
before it was sealed. -/
structure Records (s : ArtifactStore) (history : List Action) : Prop where
  sorted : s.names.Pairwise (· < ·)
  mem_names : ∀ name, name ∈ s.names ↔ Action.Creates history name
  size : s.size = s.names.length
  holds : ∀ name, Action.Creates history name → ∃ a, s.get? name = some a ∧ a.name = name ∧
    a.bytes = Action.writtenTo history name ∧ (a.isSealed = true ↔ Action.SealedBy history name)
  ids : ∀ name other a b, s.get? name = some a → s.get? other = some b → a.id = b.id → name = other

/-- A later store still has every artifact of an earlier one, with the same identity.  Bytes were only added to it,
and if it was sealed it is unchanged. -/
def Continues (s s' : ArtifactStore) : Prop :=
  ∀ name a, s.get? name = some a → ∃ b more, s'.get? name = some b ∧ b.id = a.id ∧ b.name = a.name ∧
    b.bytes = a.bytes ++ more ∧ (a.isSealed = true → b = a)

/-- What one action does to a store.  It is refused exactly if it writes something to a sealed artifact, and then it
changes nothing.  An action on one name leaves the artifacts of all others alone, and sealing all artifacts changes
nothing but that they are sealed. -/
structure Performs (s : ArtifactStore) (action : Action) : Prop where
  refused : ∀ e, (s.perform action).1 = .error e ↔
    ∃ name data a, action = .write name data ∧ data.isEmpty = false ∧ s.get? name = some a ∧
      a.isSealed = true ∧ e = ⟨name⟩
  unchanged : ∀ e, (s.perform action).1 = .error e → (s.perform action).2 = s
  others : ∀ name other, action.name? = some name → other ≠ name →
    (s.perform action).2.get? other = s.get? other
  all : action = .sealAll → ∀ name, (s.perform action).2.get? name = (s.get? name).map Artifact.sealed

theorem sorted_names (s : ArtifactStore) : s.names.Pairwise (· < ·) := by
  have hordered : s.names.Pairwise fun a b => compare a b = .lt := Std.TreeMap.ordered_keys
  exact hordered.imp fun hlt => compareOfLessAndEq_eq_lt.1 hlt

/-- A name has an artifact if it was created. -/
theorem isSome_get?_after (history : List Action) (name : String) :
    ((empty.after history).get? name).isSome = true ↔ Action.Creates history name := by
  induction history using List.reverseRecOn with
  | nil =>
    rw [after_nil, get?_empty]
    simp [Action.Creates]
  | append_singleton history action ih =>
    have h := wellFormed_empty.after history
    rw [after_snoc, Action.creates_snoc, ← ih]
    cases ha : (empty.after history).get? name with
    | some a =>
      rw [get?_perform_of_some h ha]
      simp
    | none =>
      rw [get?_perform_of_none h ha]
      split <;> simp_all

/-- An artifact holds what some actions wrote to a name, and is sealed if they sealed it. -/
structure Holds (a : Artifact) (history : List Action) (name : String) : Prop where
  bytes : a.bytes = Action.writtenTo history name
  isSealed : a.isSealed = true ↔ Action.SealedBy history name

/-- An action adds nothing to an artifact that it neither writes to nor seals. -/
theorem Holds.skip {a : Artifact} {history : List Action} (h : Holds a history name)
    (hseals : ¬ Action.Seals history name action) (hdata : Action.dataFor name action = .empty) :
    Holds a (history ++ [action]) name := by
  have hiff := Action.sealedBy_snoc_of_not_seals hseals
  refine ⟨h.bytes.trans ?_, h.isSealed.trans hiff.symm⟩
  by_cases hsealed : Action.SealedBy (history ++ [action]) name
  · exact (Action.writtenTo_snoc_of_sealed hsealed).symm
  · rw [Action.writtenTo_snoc_of_open hsealed, hdata, ByteArray.append_empty]

/-- An action on the artifact of a name, or on all of them, does to it what it says. -/
theorem Holds.acted {a : Artifact} {history : List Action} (h : Holds a history name)
    (haction : action.name? = some name ∨ action.name? = none ∧ Action.Creates history name) :
    Holds (action.acted a) (history ++ [action]) name := by
  have hsealing : Action.Seals history name action → Holds a.sealed (history ++ [action]) name := by
    intro hseals
    have hsealed := Action.sealedBy_snoc.2 (.inr hseals)
    exact ⟨h.bytes.trans (Action.writtenTo_snoc_of_sealed hsealed).symm, iff_of_true rfl hsealed⟩
  cases action with
  | request _ | flush _ => exact h.skip id rfl
  | sealOne other =>
    have hsame : other = name := by simpa [Action.name?] using haction
    exact hsealing hsame
  | sealAll => exact hsealing (haction.resolve_left (by simp [Action.name?])).2
  | write other data =>
    obtain rfl : other = name := by simpa [Action.name?] using haction
    rw [Action.acted]
    have hiff : Action.SealedBy (history ++ [.write other data]) other ↔ Action.SealedBy history other :=
      Action.sealedBy_snoc_of_not_seals id
    split
    · next hsealed =>
      have hafter := hiff.2 (h.isSealed.1 hsealed)
      exact ⟨h.bytes.trans (Action.writtenTo_snoc_of_sealed hafter).symm, iff_of_true hsealed hafter⟩
    · next hopen =>
      refine ⟨?_, h.isSealed.trans hiff.symm⟩
      rw [Action.writtenTo_snoc_of_open (fun hafter => hopen (h.isSealed.2 (hiff.1 hafter))), ← h.bytes,
        Action.dataFor, if_pos rfl]
      rfl

/-- An action on another name does nothing to an artifact. -/
theorem Holds.elsewhere {a : Artifact} {history : List Action} (h : Holds a history name)
    (haction : action.name? = some other) (hne : other ≠ name) : Holds a (history ++ [action]) name := by
  cases action with
  | request _ | flush _ => exact h.skip id rfl
  | sealOne _ =>
    obtain rfl := Option.some.inj haction
    exact h.skip hne rfl
  | write _ _ =>
    obtain rfl := Option.some.inj haction
    exact h.skip id (if_neg hne)
  | sealAll => exact absurd haction (by simp [Action.name?])

/-- Nothing was written to a name that was never created, and it was never sealed. -/
theorem holds_of_not_creates {history : List Action} (h : ¬ Action.Creates history name) {a : Artifact}
    (hbytes : a.bytes = .empty) (hopen : a.isSealed = false) : Holds a history name := by
  induction history using List.reverseRecOn with
  | nil => exact ⟨hbytes, iff_of_false (by simp [hopen]) (Action.not_sealedFrom_nil [] name)⟩
  | append_singleton history action ih =>
    rw [Action.creates_snoc, not_or] at h
    have hbefore := ih h.1
    cases haction : action.name? with
    | some other => exact hbefore.elsewhere haction fun heq => h.2 (heq ▸ haction)
    | none =>
      obtain rfl := Action.eq_sealAll haction
      exact hbefore.skip h.1 rfl

/-- An artifact holds what was written to its name. -/
theorem holds_of_get?_after (history : List Action) {a : Artifact}
    (ha : (empty.after history).get? name = some a) : Holds a history name := by
  induction history using List.reverseRecOn generalizing a with
  | nil =>
    rw [after_nil, get?_empty] at ha
    exact absurd ha (by simp)
  | append_singleton history action ih =>
    have h := wellFormed_empty.after history
    have hcreated := isSome_get?_after history name
    rw [after_snoc] at ha
    cases hb : (empty.after history).get? name with
    | some b =>
      rw [hb] at hcreated
      rw [get?_perform_of_some h hb] at ha
      obtain rfl := Option.some.inj ha
      split
      · next htouches => exact (ih hb).acted (htouches.imp_right fun hnone => ⟨hnone, hcreated.1 rfl⟩)
      · next hskips =>
        rw [not_or] at hskips
        obtain ⟨other, hother⟩ := Option.ne_none_iff_exists'.1 hskips.2
        exact (ih hb).elsewhere hother fun heq => hskips.1 (heq ▸ hother)
    | none =>
      rw [hb] at hcreated
      rw [get?_perform_of_none h hb] at ha
      split at ha
      · next haction =>
        obtain rfl := Option.some.inj ha
        have hnew : Holds ((empty.after history).obtain name) history name := by
          refine holds_of_not_creates (fun hcreates => absurd (hcreated.2 hcreates) (by simp)) ?_ ?_
          · rw [obtain, hb]
            rfl
          · rw [obtain, hb]
            rfl
        exact hnew.acted (.inl haction)
      · exact absurd ha (by simp)

theorem records_empty_after (history : List Action) : (empty.after history).Records history := by
  have h := wellFormed_empty.after history
  constructor
  · exact sorted_names _
  · intro name
    rw [mem_names, isSome_get?_after]
  · exact Std.TreeMap.length_keys.symm
  · intro name hcreated
    obtain ⟨a, ha⟩ := Option.isSome_iff_exists.1 ((isSome_get?_after history name).2 hcreated)
    have hholds := holds_of_get?_after history ha
    exact ⟨a, ha, h.named ha, hholds.bytes, hholds.isSealed⟩
  · exact fun _ _ _ _ ha hb hid => h.ids ha hb hid

/-! ## What comes later -/

theorem Continues.refl (s : ArtifactStore) : s.Continues s :=
  fun _ a ha => ⟨a, .empty, ha, rfl, rfl, ByteArray.append_empty.symm, fun _ => rfl⟩

theorem Continues.trans {s' s'' : ArtifactStore} (h : s.Continues s') (h' : s'.Continues s'') :
    s.Continues s'' := by
  intro name a ha
  obtain ⟨b, more, hb, hid, hname, hbytes, hsealed⟩ := h name a ha
  obtain ⟨c, more', hc, hid', hname', hbytes', hsealed'⟩ := h' name b hb
  refine ⟨c, more ++ more', hc, hid'.trans hid, hname'.trans hname, ?_, fun ha => ?_⟩
  · rw [hbytes', hbytes, ByteArray.append_assoc]
  · obtain rfl := hsealed ha
    exact hsealed' ha

/-- An action only adds to an artifact, and nothing to a sealed one. -/
theorem Action.acted_continues (action : Action) (a : Artifact) :
    ∃ more, (action.acted a).bytes = a.bytes ++ more ∧ (a.isSealed = true → action.acted a = a) := by
  cases action with
  | request _ | flush _ => exact ⟨.empty, ByteArray.append_empty.symm, fun _ => rfl⟩
  | sealOne _ | sealAll =>
    refine ⟨.empty, ByteArray.append_empty.symm, fun hsealed => ?_⟩
    show { a with isSealed := true } = a
    rw [← hsealed]
  | write _ data =>
    rw [acted]
    split
    · exact ⟨.empty, ByteArray.append_empty.symm, fun _ => rfl⟩
    · next hopen => exact ⟨data, rfl, fun hsealed => absurd hsealed hopen⟩

theorem WellFormed.continues_perform (h : s.WellFormed) (action : Action) :
    s.Continues (s.perform action).2 := by
  intro name a ha
  rw [get?_perform_of_some h ha]
  split
  · obtain ⟨more, hbytes, hsealed⟩ := action.acted_continues a
    exact ⟨_, more, rfl, action.id_acted a, action.name_acted a, hbytes, hsealed⟩
  · exact ⟨a, .empty, rfl, rfl, rfl, ByteArray.append_empty.symm, fun _ => rfl⟩

theorem WellFormed.continues_after (h : s.WellFormed) (later : List Action) : s.Continues (s.after later) := by
  induction later generalizing s with
  | nil => exact .refl s
  | cons action later ih => exact (h.continues_perform action).trans (ih (h.perform action))

/-- A write is refused exactly if it would add something to a sealed artifact. -/
theorem write_eq_error {data : ByteArray} {e : SealedArtifact} : (s.write name data).1 = .error e ↔
    data.isEmpty = false ∧ ∃ a, s.get? name = some a ∧ a.isSealed = true ∧ e = ⟨name⟩ := by
  rw [write]
  cases data.isEmpty with
  | true => simp
  | false =>
    cases ha : s.get? name with
    | none =>
      have hnew : (s.obtain name).isSealed = false := by
        rw [obtain, ha]
        rfl
      simp [hnew]
    | some a =>
      rw [obtain_of_get? ha]
      cases hsealed : a.isSealed with
      | true => simp [hsealed, eq_comm (a := e)]
      | false => simp [hsealed]

theorem WellFormed.performs (h : s.WellFormed) (action : Action) : s.Performs action := by
  have hrefused : ∀ e, (s.perform action).1 = .error e ↔
      ∃ name data a, action = .write name data ∧ data.isEmpty = false ∧ s.get? name = some a ∧
        a.isSealed = true ∧ e = ⟨name⟩ := by
    intro e
    cases action with
    | write name data => simp [ArtifactStore.perform, write_eq_error]
    | request _ | flush _ | sealOne _ | sealAll => simp [ArtifactStore.perform]
  refine ⟨hrefused, fun e he => ?_, fun name other haction hne => ?_, ?_⟩
  · obtain ⟨name, data, a, rfl, hdata, ha, hsealed, _⟩ := (hrefused e).1 he
    rw [ArtifactStore.perform, write, hdata, obtain_of_get? ha, hsealed, ensure, contains_eq, ha]
    rfl
  · rw [get?_perform h haction, if_neg (Ne.symm hne)]
  · rintro rfl name
    exact get?_perform_sealAll s name

/-- **The store over any history.** Whatever was done to a new store, it holds exactly what its history says: one
artifact for each name that was created, its names in order, and in each artifact what was written to its name before
it was sealed.  Whatever is done later, every artifact keeps its identity and its bytes, and a sealed one stays as it
is.  A write of some bytes to a sealed artifact, and nothing else, is refused and changes nothing, and an action on
one name leaves all other artifacts alone, except that sealing all of them seals them. -/
theorem records_history (history : List Action) :
    (empty.after history).Records history ∧
      (∀ later, (empty.after history).Continues (empty.after (history ++ later))) ∧
      ∀ action, (empty.after history).Performs action := by
  have h := wellFormed_empty.after history
  refine ⟨records_empty_after history, fun later => ?_, h.performs⟩
  rw [after_append]
  exact h.continues_after later

end ArtifactStore
end PluginSandbox
