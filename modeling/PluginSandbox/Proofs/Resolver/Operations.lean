import PluginSandbox.Proofs.Artifact
import PluginSandbox.Resolver

/-!
# Sequences of operations on a resolver

A host registers units with a resolver, and a toolchain lists packages, infers names and writes outputs.
`perform_eq` says what one of these operations changes, and `after_eq` what any number of them leave behind:

* the units are those that were registered, in order, and the platform and the policy are what they were;
* the artifacts are what was written;
* there is one decision for each listing, in order;
* there is one audit event for each listing and one for each first binding of an output, in order.

A listing is decided by the resolver as it stands at that moment, so decisions and events are read off the
operations together with the resolvers that they are performed on (`moments`).
-/

namespace PluginSandbox
namespace Resolver

/-- What a host or a toolchain does with a resolver: it registers a unit, lists a package at a location, infers the name
of an entry, or writes to the output of a name on behalf of a unit. -/
inductive Operation where
  | register (unit : PluginUnit)
  | list (location : Location) (package : String) (kinds : List EntryKind)
  | inferName (location : Location) (entry : Entry)
  | output (location : Location) (name : String) (sibling : PluginUnit) (data : ByteArray)

namespace Operation

/-- The unit that is registered. -/
def unit? : Operation → Option PluginUnit
  | register unit => some unit
  | _ => none

/-- What is written, and to which name. -/
def written? : Operation → Option (String × ByteArray)
  | output _ name _ data => some (name, data)
  | _ => none

end Operation

/-- A resolver that nothing has been done with. -/
def opened (catalogue : Catalogue) (policy : Policy) (correlation : Correlation) (clock : Clock) : Resolver :=
  { catalogue, policy, correlation, clock }

/-- The resolver behind an operation. -/
def perform (r : Resolver) : Operation → Resolver
  | .register unit => r.register unit
  | .list location package kinds => (r.list location package kinds).2
  | .inferName _ _ => r
  | .output _ name sibling data => (r.output name sibling data).2

/-- The resolver behind some operations. -/
def after (r : Resolver) (ops : List Operation) : Resolver :=
  ops.foldl perform r

/-- Some operations, each with the resolver that it is performed on. -/
def moments (r : Resolver) : List Operation → List (Resolver × Operation)
  | [] => []
  | op :: rest => (r, op) :: (r.perform op).moments rest

/-- The record of a listing. -/
def decisionOn (r : Resolver) (location : Location) (package : String) (kinds : List EntryKind) : Decision where
  realm := location.realm
  package := package
  kinds := kinds
  verdict := (r.decide location package kinds).1
  entries := (r.decide location package kinds).2.length

/-- The decision that an operation on a resolver leaves. -/
def decision? (r : Resolver) : Operation → Option Decision
  | .list location package kinds => some (r.decisionOn location package kinds)
  | _ => none

/-- The audit event that an operation on a resolver leaves. -/
def event? (r : Resolver) : Operation → Option AuditEvent
  | .list location package kinds => some (.resolution r.now r.correlation (r.decisionOn location package kinds))
  | .output _ name sibling _ =>
    if r.artifacts.contains name then none
    else some (.outputBound r.now r.correlation name sibling.qualifiedName)
  | _ => none

/-- The decisions that some operations leave. -/
def decisionsOf (r : Resolver) (ops : List Operation) : List Decision :=
  (r.moments ops).filterMap fun moment => moment.1.decision? moment.2

/-- The audit events that some operations leave. -/
def eventsOf (r : Resolver) (ops : List Operation) : List AuditEvent :=
  (r.moments ops).filterMap fun moment => moment.1.event? moment.2

/-! ## One operation -/

/-- Binding an output makes its artifact exist, and leaves an event if it did not. -/
theorem bindOutput_eq (r : Resolver) (location : Location) (name : String) (sibling : PluginUnit)
    (data : ByteArray) :
    r.bindOutput name sibling =
      { r with
        artifacts := r.artifacts.ensure name
        trail := r.trail ++ (r.event? (.output location name sibling data)).toList.toArray } := by
  rw [bindOutput, event?, ArtifactStore.ensure]
  split
  · simp
  · simp

/-- What one operation changes. -/
theorem perform_eq (r : Resolver) (op : Operation) :
    r.perform op =
      { r with
        units := r.units ++ op.unit?.toList
        artifacts := r.artifacts.outputs op.written?.toList
        decisions := r.decisions ++ (r.decision? op).toList.toArray
        trail := r.trail ++ (r.event? op).toList.toArray } := by
  cases op with
  | register unit =>
    simp [perform, register, Operation.unit?, Operation.written?, decision?, event?, ArtifactStore.outputs]
  | list location package kinds =>
    simp [perform, list, decisionOn, Operation.unit?, Operation.written?, decision?, event?,
      ArtifactStore.outputs]
  | inferName location entry =>
    simp [perform, Operation.unit?, Operation.written?, decision?, event?, ArtifactStore.outputs]
  | output location name sibling data =>
    rw [perform, output, bindOutput_eq r location name sibling data]
    simp [Operation.unit?, Operation.written?, decision?, ArtifactStore.outputs, ArtifactStore.output]

/-! ## Many operations -/

@[simp] theorem after_nil (r : Resolver) : r.after [] = r := rfl

@[simp] theorem after_cons (r : Resolver) (op : Operation) (ops : List Operation) :
    r.after (op :: ops) = (r.perform op).after ops := rfl

theorem after_append (r : Resolver) (ops ops' : List Operation) :
    r.after (ops ++ ops') = (r.after ops).after ops' :=
  List.foldl_append

theorem decisionsOf_cons (r : Resolver) (op : Operation) (ops : List Operation) :
    r.decisionsOf (op :: ops) = (r.decision? op).toList ++ (r.perform op).decisionsOf ops := by
  rw [decisionsOf, moments, List.filterMap_cons]
  cases r.decision? op <;> rfl

theorem eventsOf_cons (r : Resolver) (op : Operation) (ops : List Operation) :
    r.eventsOf (op :: ops) = (r.event? op).toList ++ (r.perform op).eventsOf ops := by
  rw [eventsOf, moments, List.filterMap_cons]
  cases r.event? op <;> rfl

/-- What some operations leave behind. -/
theorem after_eq (r : Resolver) (ops : List Operation) :
    r.after ops =
      { r with
        units := r.units ++ ops.filterMap Operation.unit?
        artifacts := r.artifacts.outputs (ops.filterMap Operation.written?)
        decisions := r.decisions ++ (r.decisionsOf ops).toArray
        trail := r.trail ++ (r.eventsOf ops).toArray } := by
  induction ops generalizing r with
  | nil => simp [decisionsOf, eventsOf, moments, ArtifactStore.outputs]
  | cons op ops ih =>
    have hunits : (op :: ops).filterMap Operation.unit? = op.unit?.toList ++ ops.filterMap Operation.unit? := by
      rw [List.filterMap_cons]
      cases op.unit? <;> rfl
    have hwritten : (op :: ops).filterMap Operation.written? =
        op.written?.toList ++ ops.filterMap Operation.written? := by
      rw [List.filterMap_cons]
      cases op.written? <;> rfl
    rw [after_cons, ih, decisionsOf_cons, eventsOf_cons, hunits, hwritten, perform_eq]
    simp only [ArtifactStore.outputs, List.foldl_append, List.append_assoc, Array.append_assoc,
      List.append_toArray]

section
variable (r : Resolver) (ops : List Operation)

theorem catalogue_after : (r.after ops).catalogue = r.catalogue := by
  rw [after_eq]

theorem policy_after : (r.after ops).policy = r.policy := by
  rw [after_eq]

theorem units_after : (r.after ops).units = r.units ++ ops.filterMap Operation.unit? := by
  rw [after_eq]

theorem decisions_after : (r.after ops).decisions.toList = r.decisions.toList ++ r.decisionsOf ops := by
  rw [after_eq, Array.toList_append]

theorem trail_after : (r.after ops).trail.toList = r.trail.toList ++ r.eventsOf ops := by
  rw [after_eq, Array.toList_append]

end

end Resolver
end PluginSandbox
