import PluginSandbox.CommandLine.FileTree
import PluginSandbox.CommandLine.Perform
import PluginSandbox.Proofs.Audit.Timestamp

/-!
# Logging to a file

Writing at the end of a file keeps what it held and changes no path (`FileTree.find_append`).  So the events that are
written to a file one after the other stand in it, behind what it held, and each of them is read back as it was, with
the moment at which it was made (`Command.writeTrail_framed`), whatever their texts hold.
-/

namespace PluginSandbox
namespace FileTree

variable {t : FileTree} {names : List String} {bytes data : ByteArray}

theorem node?_put (node : FileNode) (others : List String) (h : names ≠ []) :
    (t.put names node).node? others = if others = names then some node else t.node? others := by
  rw [node?, node?, put, List.lookup_cons]
  by_cases hnames : others = names
  · rw [if_pos hnames, if_neg (hnames ▸ h), beq_iff_eq.2 hnames]
  · rw [if_neg hnames, beq_eq_false_iff_ne.2 hnames]

/-- What lies behind no names is a directory. -/
theorem ne_nil_of_file (h : t.node? names = some (.file bytes)) : names ≠ [] := by
  rintro rfl
  simp [node?] at h

/-- A file that takes the place of a file leaves every path as it was. -/
theorem walk_put (h : t.node? names = some (.file bytes)) (place rest : List String) :
    (t.put names (.file data)).walk place rest = t.walk place rest := by
  induction rest generalizing place with
  | nil => rfl
  | cons name rest ih =>
    rw [walk, walk, node?_put _ _ (ne_nil_of_file h)]
    by_cases hplace : place = names
    · rw [if_pos hplace, hplace, h]
    · rw [if_neg hplace]
      cases t.node? place with
      | none => rfl
      | some node =>
        cases node with
        | directory => simp only [ih]
        | file _ => rfl
        | sink => rfl

theorem resolve_put (h : t.node? names = some (.file bytes)) (path : String) :
    (t.put names (.file data)).resolve path = t.resolve path := by
  rw [resolve, resolve, walk_put h]
  rfl

theorem find_eq_ok {path : String} {node : FileNode} :
    t.find path = .ok node ↔ ∃ names, t.resolve path = .ok names ∧ t.node? names = some node := by
  rw [find]
  cases t.resolve path with
  | error e => simp [bind, Except.bind]
  | ok names =>
    cases hnode : t.node? names <;> simp [hnode, bind, Except.bind, throw, throwThe, MonadExceptOf.throw, pure,
      Except.pure]

/-- What is written at the end of a file stands behind what it held. -/
theorem find_append {path : String} (h : t.find path = .ok (.file bytes)) :
    (t.append path data).find path = .ok (.file (bytes ++ data)) := by
  obtain ⟨names, hresolve, hnode⟩ := find_eq_ok.1 h
  have happend : t.append path data = t.put names (.file (bytes ++ data)) := by
    rw [append, hresolve]
    simp only [hnode]
  rw [happend]
  refine find_eq_ok.2 ⟨names, (resolve_put hnode path).trans hresolve, ?_⟩
  rw [node?_put _ _ (ne_nil_of_file hnode), if_pos rfl]

end FileTree

namespace Command

variable {host : CommandHost (StateM FileTree)} {tree : FileTree} {trail : String} {before : ByteArray}

/-- Events that are written to a file one after the other stand behind what it held. -/
theorem find_forM_append (format : TimeFormat) (hopen : tree.find trail = .ok (.file before))
    (events : List AuditEvent) :
    ((events.forM fun event => FileTree.files.append trail (event.line format)).run tree).2.find trail =
      .ok (.file (before ++ (AuditEvent.lines format events).toUTF8)) := by
  induction events generalizing tree before with
  | nil =>
    have hnil : before ++ (AuditEvent.lines format []).toUTF8 = before := by simp [AuditEvent.lines]
    rwa [hnil]
  | cons event events ih =>
    have hnext : (tree.append trail (event.line format).toUTF8).find trail =
        .ok (.file (before ++ (event.line format).toUTF8)) := FileTree.find_append hopen
    have hlines : (AuditEvent.lines format (event :: events)).toUTF8 =
        (event.line format).toUTF8 ++ (AuditEvent.lines format events).toUTF8 := by
      simp [AuditEvent.lines]
    rw [hlines, ← ByteArray.append_assoc]
    exact ih hnext

/-- **Logged events are framed and lossless.**  Whatever events are written to an open trail, they stand behind what it
held before, one line for each, in order; no text of an event breaks its line, and each line stands for its event with
the moment at which that was made, if the host reads back what it writes for these moments. -/
theorem writeTrail_framed (host : CommandHost (StateM FileTree)) (configuration : Configuration)
    {events : List AuditEvent} (hfiles : host.files = FileTree.files) (htrail : configuration.auditLog = some trail)
    (hopen : tree.find trail = .ok (.file before)) (hevents : ∀ e ∈ events, e.Fits)
    (htimes : ∀ e ∈ events, host.times.Reads e.timestamp) :
    ((writeTrail host configuration events).run tree).2.find trail =
        .ok (.file (before ++ (AuditEvent.lines host.times events).toUTF8)) ∧
      AuditEvent.Framed host.times (AuditEvent.lines host.times events) events := by
  have hwrite : writeTrail host configuration events =
      events.forM fun event => FileTree.files.append trail (event.line host.times) := by
    rw [writeTrail, htrail, hfiles]
  refine ⟨?_, AuditEvent.framed_lines hevents htimes⟩
  rw [hwrite, find_forM_append host.times hopen]

/-- An event whose texts hold line breaks, quotes, control characters and what looks like another event. -/
def forgingEvent : AuditEvent where
  kind := .linkRejected
  severity := .critical
  timestamp := ⟨1767225599, 1500000000⟩
  details := "one\n\x7b\"event_type\":\"SessionStart\",\"details\":\"two\"\x7d\r\n\x00\x1b\\ é"
  correlation := some ⟨"a\nb", "\""⟩
  decision := some ⟨"class-path", "util\n", [.source, .native], .denied, 0⟩
  symbol := some "\n\n"
  state := some .executionFailed

/-- A host that writes to files in memory and whose clock stands still. -/
def stillHost : CommandHost (StateM FileTree) where
  files := FileTree.files
  freshId := pure "id"
  clock := pure (.still default)
  times := .utc

/-- The event that looks like another one, made in a leap second, and one that is made before it. -/
theorem writeTrail_framed_forging :
    ((writeTrail stillHost { Configuration.default with auditLog := some "trail" }
      [forgingEvent, .sessionStart ⟨1767225599, 123456000⟩ ⟨"a", "b"⟩ "t"]).run
        { nodes := [(["trail"], .file "before\n".toUTF8)] }).2.find "trail" =
      .ok (.file ("before\n".toUTF8 ++ (AuditEvent.lines .utc
        [forgingEvent, .sessionStart ⟨1767225599, 123456000⟩ ⟨"a", "b"⟩ "t"]).toUTF8)) ∧
    AuditEvent.Framed .utc
      (AuditEvent.lines .utc [forgingEvent, .sessionStart ⟨1767225599, 123456000⟩ ⟨"a", "b"⟩ "t"])
      [forgingEvent, .sessionStart ⟨1767225599, 123456000⟩ ⟨"a", "b"⟩ "t"] := by
  have hnul : ("trail".contains '\x00') = false := by simp
  have hroot : ("trail".startsWith "/") = false := by simp
  have hopen : FileTree.find { nodes := [(["trail"], .file "before\n".toUTF8)] } "trail" =
      .ok (.file "before\n".toUTF8) := by
    rw [FileTree.find, FileTree.resolve, hnul, hroot]
    rfl
  have hfits : ∀ e ∈ [forgingEvent, .sessionStart ⟨1767225599, 123456000⟩ ⟨"a", "b"⟩ "t"], e.Fits := by
    simp [AuditEvent.Fits, forgingEvent, AuditEvent.sessionStart, AuditEvent.ofKind]
  have htimes : ∀ e ∈ [forgingEvent, .sessionStart ⟨1767225599, 123456000⟩ ⟨"a", "b"⟩ "t"],
      stillHost.times.Reads e.timestamp := by
    refine List.forall_mem_cons.2 ⟨?_, List.forall_mem_singleton.2 ?_⟩
    · exact TimeFormat.utc_reads ⟨by decide, .inr ⟨rfl, by decide⟩⟩
    · exact TimeFormat.utc_reads ⟨by decide, .inl (by decide)⟩
  exact writeTrail_framed stillHost _ rfl rfl hopen hfits htimes

end Command
end PluginSandbox
