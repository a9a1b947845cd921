import PluginSandbox.Audit.Event
import PluginSandbox.Json.Decoder

/-!
# The written audit trail

An event is written as a compact JSON document on a line of its own (`AuditEvent.line`), with the moment at which it was
made in a format of the host (`TimeFormat`).  No string of an event can break its line, because line breaks are
escaped.
-/

namespace PluginSandbox

/-- The written form of a correlation. -/
def Correlation.toJson (c : Correlation) : Json :=
  .obj [("session_id", .str c.sessionId), ("request_id", .str c.requestId)]

namespace AuditEvent

/-- The written form of an event. -/
def toJson (format : TimeFormat) (e : AuditEvent) : Json :=
  .obj [("event_type", .str e.kind.name), ("severity", .str e.severity.name),
    ("timestamp", .str (format.text e.timestamp)), ("details", .str e.details),
    ("correlation", Json.option Correlation.toJson e.correlation),
    ("decision", Json.option Decision.toJson e.decision),
    ("symbol", Json.option Json.str e.symbol),
    ("state", Json.option (fun s => Json.str s.name) e.state)]

/-- The line that an event is written as, with its line break. -/
def line (format : TimeFormat) (e : AuditEvent) : String :=
  (e.toJson format).compact ++ "\n"

/-- The text that a sequence of events appends to the trail. -/
def lines (format : TimeFormat) (events : List AuditEvent) : String :=
  String.join (events.map (line format))

open Json.Parsed

/-- The decision that a part of a text stands for. -/
def decisionOfParsed? (p : Json.Parsed) : Option Decision := do
  match ← p.fields? ["realm", "package", "kinds", "verdict", "entries"] with
  | [realm, package, kinds, verdict, entries] =>
    let realm ← required? string? realm
    let package ← required? string? package
    let kinds ← required? (list? fun k => k.bareVariant?.bind EntryKind.ofName?) kinds
    let verdict ← required? (fun v => v.bareVariant?.bind Verdict.ofName?) verdict
    let entries ← required? count? entries
    return { realm, package, kinds, verdict, entries }
  | _ => none

/-- The correlation that a part of a text stands for. -/
def correlationOfParsed? (p : Json.Parsed) : Option Correlation := do
  match ← p.fields? ["session_id", "request_id"] with
  | [sessionId, requestId] =>
    let sessionId ← required? string? sessionId
    let requestId ← required? string? requestId
    return { sessionId, requestId }
  | _ => none

/-- The event that a part of a text stands for. -/
def ofParsed? (format : TimeFormat) (p : Json.Parsed) : Option AuditEvent := do
  let fields ← p.fields?
    ["event_type", "severity", "timestamp", "details", "correlation", "decision", "symbol", "state"]
  match fields with
  | [kind, severity, timestamp, details, correlation, decision, symbol, state] =>
    let kind ← required? (fun k => k.bareVariant?.bind AuditKind.ofName?) kind
    let severity ← required? (fun s => s.bareVariant?.bind AuditSeverity.ofName?) severity
    let timestamp ← required? (fun t => t.string?.bind format.read?) timestamp
    let details ← required? string? details
    let correlation ← optional? correlationOfParsed? correlation
    let decision ← optional? decisionOfParsed? decision
    let symbol ← optional? string? symbol
    let state ← optional? (fun s => s.bareVariant?.bind SessionState.ofName?) state
    return { kind, severity, timestamp, details, correlation, decision, symbol, state }
  | _ => none

/-- The event that a line stands for. -/
def ofLine? (format : TimeFormat) (line : String) : Option AuditEvent :=
  (Json.parse line.toUTF8.toList).bind (ofParsed? format)

end AuditEvent
end PluginSandbox
