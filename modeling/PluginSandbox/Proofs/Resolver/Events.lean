import PluginSandbox.Proofs.Audit.Event
import PluginSandbox.Proofs.Resolver.Operations

/-!
# The audit events of a resolver

The events that operations leave in the trail of a resolver tell of every listing and of every first binding, in order
(`told_eventsOf`), and they are stamped in that order (`stamped_after`).

* The listings carry their decisions, so the decisions can be read off the trail (`decisions_eventsOf`).
* No name is bound twice, and the names that are bound are those of the artifacts (`bound_eventsOf`).
-/

namespace PluginSandbox

/-- The store holds what it held before, and what is written to. -/
theorem ArtifactStore.contains_output {s : ArtifactStore} (h : s.Open) (name other : String) (data : ByteArray) :
    (s.output name data).contains other = true ↔ name = other ∨ s.contains other = true := by
  rw [contains_eq, contains_eq, get?_output h]
  by_cases heq : name = other
  · rw [if_pos heq]
    exact iff_of_true rfl (.inl heq)
  · rw [if_neg heq]
    exact ⟨.inr, fun hother => hother.resolve_left heq⟩

namespace Resolver

variable (r : Resolver)

theorem correlation_perform (op : Operation) : (r.perform op).correlation = r.correlation := by
  rw [perform_eq]

theorem clock_perform (op : Operation) : (r.perform op).clock = r.clock := by
  rw [perform_eq]

/-! ## What the events say -/

/-- Events tell of some operations on a resolver, one after the other: of every listing, how it was decided, and of
every output whose name was not bound yet, the name that was bound. -/
inductive Told : Resolver → List Operation → List AuditEvent → Prop
  | nil (r : Resolver) : Told r [] []
  | register {r : Resolver} {ops : List Operation} {events : List AuditEvent} (unit : PluginUnit) :
      Told (r.register unit) ops events → Told r (.register unit :: ops) events
  | list {r : Resolver} {ops : List Operation} {events : List AuditEvent} {e : AuditEvent} (location : Location)
      (package : String) (kinds : List EntryKind) : e.Decides r.correlation (r.decisionOn location package kinds) →
      Told (r.list location package kinds).2 ops events → Told r (.list location package kinds :: ops) (e :: events)
  | inferName {r : Resolver} {ops : List Operation} {events : List AuditEvent} (location : Location) (entry : Entry) :
      Told r ops events → Told r (.inferName location entry :: ops) events
  | binding {r : Resolver} {ops : List Operation} {events : List AuditEvent} {e : AuditEvent} (location : Location)
      (name : String) (sibling : PluginUnit) (data : ByteArray) : r.artifacts.contains name = false →
      e.Names r.correlation .outputBound name s!"Output for {name} bound from unit {sibling.qualifiedName}" →
      Told (r.output name sibling data).2 ops events → Told r (.output location name sibling data :: ops) (e :: events)
  | bound {r : Resolver} {ops : List Operation} {events : List AuditEvent} (location : Location) (name : String)
      (sibling : PluginUnit) (data : ByteArray) : r.artifacts.contains name = true →
      Told (r.output name sibling data).2 ops events → Told r (.output location name sibling data :: ops) events

/-- The events of some operations tell of them. -/
theorem told_eventsOf (ops : List Operation) : Told r ops (r.eventsOf ops) := by
  induction ops generalizing r with
  | nil => exact .nil r
  | cons op ops ih =>
    rw [eventsOf_cons]
    cases op with
    | register unit => exact .register unit (ih _)
    | list location package kinds =>
      exact .list location package kinds (AuditEvent.decides_resolution r.now r.correlation _) (ih _)
    | inferName location entry => exact .inferName location entry (ih _)
    | output location name sibling data =>
      cases hbound : r.artifacts.contains name with
      | true =>
        rw [event?, if_pos hbound]
        exact .bound location name sibling data hbound (ih _)
      | false =>
        rw [event?, if_neg (Bool.eq_false_iff.1 hbound)]
        exact .binding location name sibling data hbound (AuditEvent.names_outputBound r.now r.correlation name _)
          (ih _)

variable {r}

/-- Events that tell of operations belong to the session of the resolver. -/
theorem Told.correlation {ops : List Operation} {events : List AuditEvent} (h : Told r ops events) :
    ∀ e ∈ events, e.correlation = some r.correlation := by
  induction h with
  | nil => exact fun _ he => absurd he List.not_mem_nil
  | register _ _ ih | inferName _ _ _ ih => exact ih
  | list location package kinds htells _ ih => exact List.forall_mem_cons.2 ⟨htells.correlation, ih⟩
  | @binding r ops events e location name sibling data _ htells _ ih =>
    have hsame := r.correlation_perform (.output location name sibling data)
    exact List.forall_mem_cons.2 ⟨htells.correlation, fun e he => (ih e he).trans (congrArg some hsame)⟩
  | @bound r ops events location name sibling data _ _ ih =>
    have hsame := r.correlation_perform (.output location name sibling data)
    exact fun e he => (ih e he).trans (congrArg some hsame)

/-- What an operation leaves is stamped with the next reading of the clock. -/
theorem timestamp_event? {op : Operation} {e : AuditEvent} (h : r.event? op = some e) : e.timestamp = r.now := by
  cases op with
  | list location package kinds =>
    obtain rfl := Option.some.inj h
    rfl
  | output location name sibling data =>
    rw [event?] at h
    split at h
    · exact absurd h (by simp)
    · obtain rfl := Option.some.inj h
      rfl
  | register unit | inferName location entry => exact absurd h (by simp [event?])

theorem stamped_perform (h : AuditEvent.Stamped r.clock r.trail.toList) (op : Operation) :
    AuditEvent.Stamped (r.perform op).clock (r.perform op).trail.toList := by
  rw [perform_eq]
  cases hevent : r.event? op with
  | none => simpa using h
  | some e =>
    simp only [Option.toList_some, Array.toList_append]
    exact h.concat (timestamp_event? hevent)

/-- The events of a resolver are stamped with the readings of its clock, in order. -/
theorem stamped_after (h : AuditEvent.Stamped r.clock r.trail.toList) (ops : List Operation) :
    AuditEvent.Stamped r.clock (r.after ops).trail.toList := by
  induction ops generalizing r with
  | nil => exact h
  | cons op ops ih =>
    rw [after_cons, ← r.clock_perform op]
    exact ih (stamped_perform h op)

variable (r)

/-- The event of an operation carries its decision. -/
theorem decision_event? (op : Operation) : (r.event? op).bind AuditEvent.decision = r.decision? op := by
  cases op with
  | output location name sibling data =>
    rw [event?]
    split <;> rfl
  | _ => rfl

/-- The decisions that the events carry are those of the listings, in order. -/
theorem decisions_eventsOf (ops : List Operation) :
    (r.eventsOf ops).filterMap AuditEvent.decision = r.decisionsOf ops := by
  rw [eventsOf, List.filterMap_filterMap, decisionsOf]
  exact congrArg (fun f => (r.moments ops).filterMap f) (funext fun moment => moment.1.decision_event? moment.2)

/-- What one operation binds was not among the artifacts, and nothing else is added to them. -/
theorem bound_event? {r : Resolver} (h : r.artifacts.Open) (op : Operation) :
    (∀ name, (r.event? op).bind AuditEvent.bound? = some name → r.artifacts.contains name = false) ∧
      ∀ name, (r.perform op).artifacts.contains name = true ↔
        r.artifacts.contains name = true ∨ (r.event? op).bind AuditEvent.bound? = some name := by
  rw [perform_eq]
  cases op with
  | register unit | inferName location entry => simp [event?, Operation.written?, ArtifactStore.outputs]
  | list location package kinds =>
    have hnone := (AuditEvent.decides_resolution r.now r.correlation (r.decisionOn location package kinds)).bound?_eq
    simp [event?, Operation.written?, ArtifactStore.outputs, hnone]
  | output location name sibling data =>
    have hcontains : ∀ other, (r.artifacts.outputs [(name, data)]).contains other = true ↔ _ :=
      fun other => ArtifactStore.contains_output h name other data
    show _ ∧ ∀ other, (r.artifacts.outputs [(name, data)]).contains other = true ↔ _
    simp only [hcontains, event?]
    split
    · next hbound =>
      refine ⟨fun _ hnone => absurd hnone (by simp), fun other => ?_⟩
      constructor
      · rintro (rfl | hother)
        · exact .inl hbound
        · exact .inl hother
      · rintro (hother | hnone)
        · exact .inr hother
        · exact absurd hnone (by simp)
    · next hnew =>
      refine ⟨fun other hother => ?_, fun other => ?_⟩
      · obtain rfl := Option.some.inj hother
        exact Bool.eq_false_iff.2 hnew
      · constructor
        · rintro (rfl | hother)
          · exact .inr rfl
          · exact .inl hother
        · rintro (hother | hother)
          · exact .inr hother
          · exact .inl (Option.some.inj hother)

/-- No name is bound twice, and the names that are bound are those of the artifacts that are added. -/
theorem bound_eventsOf {r : Resolver} (h : r.artifacts.Open) (ops : List Operation) :
    ((r.eventsOf ops).filterMap AuditEvent.bound?).Nodup ∧
      (∀ name ∈ (r.eventsOf ops).filterMap AuditEvent.bound?, r.artifacts.contains name = false) ∧
      ∀ name, (r.after ops).artifacts.contains name = true ↔
        r.artifacts.contains name = true ∨ name ∈ (r.eventsOf ops).filterMap AuditEvent.bound? := by
  induction ops generalizing r with
  | nil =>
    exact ⟨List.nodup_nil, fun _ hname => absurd hname List.not_mem_nil, fun _ => by simp [eventsOf, moments]⟩
  | cons op ops ih =>
    obtain ⟨hnew, hadded⟩ := bound_event? h op
    have hopen : (r.perform op).artifacts.Open := by
      rw [perform_eq]
      exact h.outputs _
    obtain ⟨hnodup, hlater, hall⟩ := ih hopen
    have hfirst : ((r.event? op).toList.filterMap AuditEvent.bound?) =
        ((r.event? op).bind AuditEvent.bound?).toList := by
      cases r.event? op with
      | none => rfl
      | some e =>
        rw [Option.toList_some, List.filterMap_cons, Option.bind_some]
        cases e.bound? <;> rfl
    rw [eventsOf_cons, List.filterMap_append, hfirst, after_cons]
    refine ⟨List.nodup_append.2 ⟨by cases (r.event? op).bind AuditEvent.bound? <;> simp, hnodup, ?_⟩, ?_, ?_⟩
    · rintro name hname _ hother rfl
      have hcontained := (hadded name).2 (.inr (Option.mem_toList.1 hname))
      rw [hlater name hother] at hcontained
      exact absurd hcontained (by simp)
    · intro name hname
      rcases List.mem_append.1 hname with hname | hname
      · exact hnew name (Option.mem_toList.1 hname)
      · have hnone := hlater name hname
        rw [Bool.eq_false_iff] at hnone ⊢
        exact fun hcontained => hnone ((hadded name).2 (.inl hcontained))
    · intro name
      rw [hall, hadded, List.mem_append, Option.mem_toList, or_assoc]

end Resolver
end PluginSandbox
