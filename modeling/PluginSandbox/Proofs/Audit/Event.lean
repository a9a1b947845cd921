import PluginSandbox.Audit.Event

/-!
# What audit events say

An event of a session tells how a listing was decided (`AuditEvent.Decides`), is about a name (`AuditEvent.Names`), or
tells which state the session is in (`AuditEvent.Reaches`).

Events that are made one after the other are stamped with the readings of a clock in their order
(`AuditEvent.Stamped`).
-/

namespace PluginSandbox

/-! ## Readings of a clock -/

namespace Clock

/-- The first readings of a clock. -/
def first (c : Clock) (count : Nat) : List Timestamp :=
  (List.range count).map c.reading

theorem first_add (c : Clock) (m n : Nat) : c.first (m + n) = c.first m ++ (c.behind m).first n := by
  rw [first, List.range_add, List.map_append, List.map_map]
  rfl

end Clock

namespace AuditEvent

/-! ## The parts of an event -/

/-- An event of a session tells how a listing was decided. -/
structure Decides (e : AuditEvent) (c : Correlation) (d : Decision) : Prop where
  kind : e.kind = match d.verdict with
    | .allowed => .resolutionAllowed
    | .contract => .resolutionContract
    | .denied => .resolutionDenied
  correlation : e.correlation = some c
  decision : e.decision = some d
  details : e.details =
    s!"{d.realm} package {d.package} kinds {EntryKind.listText d.kinds}: {d.entries} entries"

/-- An event of a session is about a name. -/
structure Names (e : AuditEvent) (c : Correlation) (kind : AuditKind) (name details : String) : Prop where
  kind : e.kind = kind
  correlation : e.correlation = some c
  symbol : e.symbol = some name
  decision : e.decision = none
  details : e.details = details

/-- An event of a session tells which state it is in. -/
structure Reaches (e : AuditEvent) (c : Correlation) (kind : AuditKind) (state : SessionState) (details : String) :
    Prop where
  kind : e.kind = kind
  correlation : e.correlation = some c
  state : e.state = some state
  decision : e.decision = none
  details : e.details = details

section
variable (now : Timestamp) (c : Correlation)

theorem decides_resolution (d : Decision) : (resolution now c d).Decides c d where
  kind := by
    show AuditKind.ofVerdict d.verdict = _
    cases d.verdict <;> rfl
  correlation := rfl
  decision := rfl
  details := rfl

theorem names_outputBound (name unit : String) :
    (outputBound now c name unit).Names c .outputBound name s!"Output for {name} bound from unit {unit}" :=
  ⟨rfl, rfl, rfl, rfl, rfl⟩

theorem names_materialized (name digest : String) :
    (materialized now c name digest).Names c .artifactMaterialized name s!"Materialized {name} (sha256 {digest})" :=
  ⟨rfl, rfl, rfl, rfl, rfl⟩

theorem names_loadRejected (name : String) :
    (loadRejected now c name).Names c .loadRejected name s!"{name} is not in this session's artifact set" :=
  ⟨rfl, rfl, rfl, rfl, rfl⟩

theorem names_linkRejected (name symbol : String) :
    (linkRejected now c name symbol).Names c .linkRejected symbol s!"{name} links forbidden symbol {symbol}" :=
  ⟨rfl, rfl, rfl, rfl, rfl⟩

theorem reaches_sessionStart (toolchain : String) :
    (sessionStart now c toolchain).Reaches c .sessionStart .pending s!"Session started with toolchain {toolchain}" :=
  ⟨rfl, rfl, rfl, rfl, rfl⟩

theorem reaches_compileFinished (state : SessionState) (errors : Nat) :
    (compileFinished now c state errors).Reaches c .compileFinished state
      s!"Compilation finished: {state.text} ({errors} errors)" :=
  ⟨rfl, rfl, rfl, rfl, rfl⟩

theorem reaches_executionEnd (state : SessionState) (details : String) :
    (executionEnd now c state details).Reaches c .executionEnd state details :=
  ⟨rfl, rfl, rfl, rfl, rfl⟩

end

/-! ## Bindings -/

/-- The name that was bound, if an event is that of a binding. -/
def bound? (e : AuditEvent) : Option String :=
  if e.kind = .outputBound then e.symbol else none

theorem Decides.bound?_eq {e : AuditEvent} {c : Correlation} {d : Decision} (h : e.Decides c d) :
    e.bound? = none := by
  refine if_neg fun hkind => ?_
  have hverdict := h.kind.symm.trans hkind
  cases hv : d.verdict <;> rw [hv] at hverdict <;> exact absurd hverdict (by decide)

/-! ## Stamps -/

/-- Events are stamped with the readings of a clock, one after the other. -/
def Stamped (clock : Clock) (events : List AuditEvent) : Prop :=
  events.map timestamp = clock.first events.length

variable {clock : Clock} {events more : List AuditEvent}

theorem stamped_nil (clock : Clock) : Stamped clock [] := rfl

theorem stamped_singleton {e : AuditEvent} (h : e.timestamp = clock.reading 0) : Stamped clock [e] :=
  congrArg (fun now => [now]) h

/-- What is made later is stamped with later readings. -/
theorem Stamped.append (h : Stamped clock events) (hmore : Stamped (clock.behind events.length) more) :
    Stamped clock (events ++ more) := by
  rw [Stamped] at *
  rw [List.map_append, h, hmore, List.length_append, Clock.first_add]

theorem Stamped.concat (h : Stamped clock events) {e : AuditEvent}
    (he : e.timestamp = clock.reading events.length) : Stamped clock (events ++ [e]) :=
  h.append (stamped_singleton he)

end AuditEvent
end PluginSandbox
