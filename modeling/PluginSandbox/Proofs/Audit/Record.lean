import PluginSandbox.Audit.Record
import PluginSandbox.Proofs.Json.Record

/-!
# The written audit trail is framed and lossless

An event is read back from its line as itself, whatever its texts hold and whichever of its parts are absent, as long as
the host reads back what it writes for the moment of the event (`AuditEvent.ofLine?_compact`).  The text of its line
holds no control character, so that no text of an event ends a line or begins another one: cut at its line breaks, a
trail of events falls into one piece for each of them, which stands for it, and an empty piece behind the last line
break (`AuditEvent.framed_lines`).
-/

namespace PluginSandbox

open Json (parsed)

/-! ## Names -/

theorem EntryKind.ofName?_name (k : EntryKind) : EntryKind.ofName? k.name = some k := by
  cases k <;> rfl

theorem Verdict.ofName?_name (v : Verdict) : Verdict.ofName? v.name = some v := by
  cases v <;> rfl

theorem AuditKind.ofName?_name (k : AuditKind) : AuditKind.ofName? k.name = some k := by
  cases k <;> rfl

theorem AuditSeverity.ofName?_name (s : AuditSeverity) : AuditSeverity.ofName? s.name = some s := by
  cases s <;> rfl

theorem SessionState.ofName?_name (s : SessionState) : SessionState.ofName? s.name = some s := by
  cases s <;> rfl

/-- A moment is read back from what is written for it. -/
def TimeFormat.Reads (format : TimeFormat) (m : Timestamp) : Prop :=
  format.read? (format.text m) = some m

namespace AuditEvent

/-- The number of entries of a decision has 64 bits. -/
def Fits (e : AuditEvent) : Prop :=
  ∀ d ∈ e.decision, d.entries < 1 <<< 64

variable {format : TimeFormat}

/-! ## Reading what was written -/

theorem correlationOfParsed?_toJson (c : Correlation) : correlationOfParsed? (parsed c.toJson) = some c := by
  have hfields := Json.fields?_parsed [("session_id", .str c.sessionId), ("request_id", .str c.requestId)] (by simp)
  simp only [List.map_cons, List.map_nil] at hfields
  rw [correlationOfParsed?, Correlation.toJson]
  simp only [Option.bind_eq_bind, Option.bind_some, hfields, Json.Parsed.required?, Json.string?_parsed]
  rfl

theorem decisionOfParsed?_toJson {d : Decision} (h : d.entries < 1 <<< 64) :
    decisionOfParsed? (parsed d.toJson) = some d := by
  have hfields := Json.fields?_parsed [("realm", .str d.realm), ("package", .str d.package),
    ("kinds", .arr (d.kinds.map fun k => .str k.name)), ("verdict", .str d.verdict.name),
    ("entries", .nat d.entries)] (by simp)
  have hkinds : (parsed (.arr (d.kinds.map fun k => .str k.name))).list?
      (fun k => k.bareVariant?.bind EntryKind.ofName?) = some d.kinds := by
    refine Json.list?_parsed fun k _ => ?_
    rw [Json.bareVariant?_str, Option.bind_some, EntryKind.ofName?_name]
  simp only [List.map_cons, List.map_nil] at hfields
  rw [decisionOfParsed?, Decision.toJson]
  simp only [Option.bind_eq_bind, Option.bind_some, hfields, Json.Parsed.required?, Json.string?_parsed,
    hkinds, Option.bind_some, Json.bareVariant?_str, Verdict.ofName?_name, Json.count?_parsed h]
  rfl

/-- An event is read back as itself. -/
theorem ofParsed?_toJson {e : AuditEvent} (h : e.Fits) (htime : format.Reads e.timestamp) :
    ofParsed? format (parsed (e.toJson format)) = some e := by
  have hfields := Json.fields?_parsed [("event_type", .str e.kind.name),
    ("severity", .str e.severity.name), ("timestamp", .str (format.text e.timestamp)), ("details", .str e.details),
    ("correlation", Json.option Correlation.toJson e.correlation),
    ("decision", Json.option Decision.toJson e.decision), ("symbol", Json.option Json.str e.symbol),
    ("state", Json.option (fun s => Json.str s.name) e.state)] (by simp)
  have hread : format.read? (format.text e.timestamp) = some e.timestamp := htime
  have hcorrelation : Json.Parsed.optional? correlationOfParsed?
      (some (parsed (Json.option Correlation.toJson e.correlation))) = some e.correlation :=
    Json.optional?_parsed (fun c => by simp [Correlation.toJson, parsed]) fun c _ => correlationOfParsed?_toJson c
  have hdecision : Json.Parsed.optional? decisionOfParsed?
      (some (parsed (Json.option Decision.toJson e.decision))) = some e.decision :=
    Json.optional?_parsed (fun d => by simp [Decision.toJson, parsed]) fun d hd => decisionOfParsed?_toJson (h d hd)
  have hsymbol : Json.Parsed.optional? Json.Parsed.string?
      (some (parsed (Json.option Json.str e.symbol))) = some e.symbol :=
    Json.optional?_parsed (fun s => by simp [parsed]) fun s _ => Json.string?_parsed s
  have hstate : Json.Parsed.optional? (fun s => s.bareVariant?.bind SessionState.ofName?)
      (some (parsed (Json.option (fun s => Json.str s.name) e.state))) = some e.state := by
    refine Json.optional?_parsed (fun s => by simp [parsed]) fun s _ => ?_
    rw [Json.bareVariant?_str, Option.bind_some, SessionState.ofName?_name]
  simp only [List.map_cons, List.map_nil] at hfields
  rw [ofParsed?, toJson]
  simp only [Option.bind_eq_bind, Option.bind_some, hfields, Json.Parsed.required?, Json.string?_parsed,
    Json.bareVariant?_str, AuditKind.ofName?_name, AuditSeverity.ofName?_name, hread, hcorrelation, hdecision,
    hsymbol, hstate]
  rfl

theorem fits_toJson {e : AuditEvent} (h : e.Fits) : (e.toJson format).Fits := by
  have hcorrelation : (Json.option Correlation.toJson e.correlation).Fits :=
    Json.fits_option fun _ _ => ⟨trivial, trivial, trivial⟩
  have hdecision : (Json.option Decision.toJson e.decision).Fits := by
    refine Json.fits_option fun d hd => ⟨trivial, trivial, ?_, trivial, Json.fits_nat (h d hd), trivial⟩
    exact Json.fits_arr fun _ _ => trivial
  have hsymbol : (Json.option Json.str e.symbol).Fits := Json.fits_option fun _ _ => trivial
  have hstate : (Json.option (fun s => Json.str s.name) e.state).Fits := Json.fits_option fun _ _ => trivial
  exact ⟨trivial, trivial, trivial, trivial, hcorrelation, hdecision, hsymbol, hstate, trivial⟩

/-- An event is read back from its line as itself. -/
theorem ofLine?_compact {e : AuditEvent} (h : e.Fits) (htime : format.Reads e.timestamp) :
    ofLine? format (e.toJson format).compact = some e := by
  rw [ofLine?, Json.parse_compact (fits_toJson h), Option.bind_some, ofParsed?_toJson h htime]

/-! ## Lines -/

/-- The characters of an event's line, without its line break. -/
def lineChars (format : TimeFormat) (e : AuditEvent) : List Char :=
  (e.toJson format).chars

/-- No text of an event ends its line. -/
theorem lineBreak_not_mem (e : AuditEvent) : '\n' ∉ e.lineChars format := fun h =>
  absurd (Json.le_toNat_chars (e.toJson format) _ h) (by decide)

/-- Nothing stands for no event. -/
theorem ofLine?_empty (format : TimeFormat) : ofLine? format "" = none := by
  rw [ofLine?, Json.toList_toUTF8]
  rfl

theorem toList_lines (events : List AuditEvent) :
    (lines format events).toList = ['\n'].intercalate (events.map (lineChars format) ++ [[]]) := by
  induction events with
  | nil => simp [lines]
  | cons e events ih =>
    have hlines : lines format (e :: events) = e.line format ++ lines format events := by simp [lines]
    have hline : (e.line format).toList = e.lineChars format ++ ['\n'] := by
      rw [line, Json.compact, String.toList_append, String.toList_ofList]
      rfl
    have hne : events.map (lineChars format) ++ [[]] ≠ [] := List.append_ne_nil_of_right_ne_nil _ (List.cons_ne_nil _ _)
    rw [hlines, String.toList_append, ih, hline, List.map_cons, List.cons_append, List.intercalate_cons_of_ne_nil hne]

/-- The text of a trail falls into its lines. -/
theorem splitOn_lines (events : List AuditEvent) :
    (lines format events).toList.splitOn '\n' = events.map (lineChars format) ++ [[]] := by
  have hfree : ∀ chars ∈ events.map (lineChars format) ++ [[]], '\n' ∉ chars := by
    intro chars hchars
    obtain hmem | hmem := List.mem_append.1 hchars
    · obtain ⟨e, _, rfl⟩ := List.mem_map.1 hmem
      exact lineBreak_not_mem e
    · obtain rfl := List.mem_singleton.1 hmem
      exact List.not_mem_nil
  rw [toList_lines, List.splitOn_intercalate _ hfree]
  exact List.append_ne_nil_of_right_ne_nil _ (List.cons_ne_nil _ _)

/-- A text is the trail of some events. -/
structure Framed (format : TimeFormat) (text : String) (events : List AuditEvent) : Prop where
  /-- Cut at its line breaks, it is one line for each event, and nothing behind the last line break. -/
  cut : text.toList.splitOn '\n' = events.map (lineChars format) ++ [[]]
  /-- The lines hold no control characters. -/
  plain : ∀ line ∈ text.toList.splitOn '\n', ∀ c ∈ line, 32 ≤ c.toNat
  /-- Each line stands for its event. -/
  read : (text.toList.splitOn '\n').map (fun line => ofLine? format (String.ofList line)) = events.map some ++ [none]

/-- The lines of some events are their trail. -/
theorem framed_lines {events : List AuditEvent} (h : ∀ e ∈ events, e.Fits)
    (htimes : ∀ e ∈ events, format.Reads e.timestamp) : Framed format (lines format events) events := by
  refine ⟨splitOn_lines events, ?_, ?_⟩
  · rw [splitOn_lines, List.forall_mem_append, List.forall_mem_map]
    exact ⟨fun e _ => Json.le_toNat_chars (e.toJson format), by simp⟩
  · rw [splitOn_lines, List.map_append, List.map_map]
    congr 1
    · exact List.map_congr_left fun e he => ofLine?_compact (h e he) (htimes e he)
    · exact congrArg (fun e => [e]) (ofLine?_empty format)

end AuditEvent
end PluginSandbox
