import PluginSandbox.Compiler.Builtin
import PluginSandbox.Proofs.Artifact
import PluginSandbox.Proofs.Compiler.Serve

/-!
# What compiling comes to

A compilation parses all units, checks them, and writes output if nothing was found to be an error.  What it
finds (`Builtin.findings`) depends on the units and on what names mean in the session, and on nothing else;
`Builtin.run_compile` says what it leaves behind.  The part behind the parser (`Builtin.lower`) is said for any parsed
units (`Builtin.run_lower`).
-/

namespace PluginSandbox
namespace Builtin

/-- Units with what their texts say. -/
def parsed (units : List PluginUnit) : List (PluginUnit × ParsedUnit) :=
  units.map fun u => (u, (ParsedUnit.ofSource u.source).1)

/-- The diagnostics of the syntax errors of some units. -/
def syntaxDiagnostics (units : List PluginUnit) : List Diagnostic :=
  units.flatMap fun u => (ParsedUnit.ofSource u.source).2.map (syntaxDiagnostic u)

/-- The functions of some units with the numbers of their parameters. -/
def signatures (units : List PluginUnit) : Signatures :=
  (parsed units).map fun (u, p) => (u.qualifiedName, p.signatures)

/-- The functions of parsed units with the numbers of their parameters. -/
def declared (members : List (PluginUnit × ParsedUnit)) : Signatures :=
  members.map fun (u, p) => (u.qualifiedName, p.signatures)

/-- The part of a compilation behind the parser. -/
def lower (members : List (PluginUnit × ParsedUnit)) : Compilation Bool := do
  let ((modules, _), _) ← ((Checker.units (declared members) members).run []).serve.run []
  writeAll modules

theorem compile_eq (units : List PluginUnit) : compile units = units.mapM parse >>= lower := rfl

/-- The compiled forms of parsed units under what names mean, and what the checker reports. -/
def lowered (m : Meaning) (members : List (PluginUnit × ParsedUnit)) :
    List (PluginUnit × Module) × List Diagnostic :=
  let outcome := ((Checker.units (declared members) members).run []).under m
  (outcome.1.1, outcome.2)

/-- The compiled forms of units under what names mean, and what the checker reports. -/
def checked (m : Meaning) (units : List PluginUnit) : List (PluginUnit × Module) × List Diagnostic :=
  let outcome := ((Checker.units (signatures units) (parsed units)).run []).under m
  (outcome.1.1, outcome.2)

/-- Everything that compiling units reports, in order. -/
def findings (m : Meaning) (units : List PluginUnit) : List Diagnostic :=
  syntaxDiagnostics units ++ (checked m units).2

/-- The store after the output of some modules was written. -/
def outputs (modules : List (PluginUnit × Module)) (s : ArtifactStore) : ArtifactStore :=
  modules.foldl (fun s m => s.output m.1.qualifiedName m.2.encode) s

/-! ## Parsing -/

theorem run_reports (u : PluginUnit) (errors : List SyntaxError) (w : Workspace) :
    (errors.forM fun e => do
        let _ ← Compilation.request (.report (syntaxDiagnostic u e))).run w =
      (.done (), { w with
        diagnostics := w.diagnostics ++ (errors.map (syntaxDiagnostic u)).toArray }) := by
  induction errors generalizing w with
  | nil => simp [List.forM]
  | cons e errors ih =>
    have hfirst : (Compilation.request (.report (syntaxDiagnostic u e))).run w =
        (.done (), { w with diagnostics := w.diagnostics.push (syntaxDiagnostic u e) }) := rfl
    rw [Compilation.forM_cons]
    refine (Compilation.run_bind_of_done hfirst _).trans ?_
    rw [ih, List.map_cons]
    simp

/-- Parsing a unit reports its syntax errors. -/
theorem run_parse (u : PluginUnit) (w : Workspace) :
    (parse u).run w =
      (.done (u, (ParsedUnit.ofSource u.source).1),
        { w with diagnostics := w.diagnostics ++
          ((ParsedUnit.ofSource u.source).2.map (syntaxDiagnostic u)).toArray }) := by
  rw [parse]
  exact Compilation.run_bind_of_done (run_reports u _ w) _

theorem run_parses (units : List PluginUnit) (w : Workspace) :
    (units.mapM parse).run w =
      (.done (parsed units),
        { w with diagnostics := w.diagnostics ++ (syntaxDiagnostics units).toArray }) := by
  induction units generalizing w with
  | nil =>
    rw [List.mapM_nil, Compilation.run_pure]
    simp [parsed, syntaxDiagnostics]
  | cons u units ih =>
    rw [List.mapM_cons, Compilation.run_bind_of_done (run_parse u w),
      Compilation.run_bind_of_done (ih _), Compilation.run_pure]
    simp [parsed, syntaxDiagnostics]

/-! ## Writing -/

/-- Writing bytes to an output only changes the store, and leaves an audit event behind. -/
theorem run_output (u : PluginUnit) (m : Module) (w : Workspace) :
    ∃ trail, (Compilation.request (.output .classOutput u.qualifiedName u m.encode)).run w =
      (.done (((w.resolver.artifacts.ensure u.qualifiedName).write u.qualifiedName m.encode).1.mapError .refusedWrite),
        { w with resolver := { w.resolver with
          artifacts := w.resolver.artifacts.output u.qualifiedName m.encode, trail } }) := by
  obtain ⟨trail, htrail⟩ : ∃ trail, w.resolver.bindOutput u.qualifiedName u =
      { w.resolver with artifacts := w.resolver.artifacts.ensure u.qualifiedName, trail } := by
    rw [Resolver.bindOutput, ArtifactStore.ensure]
    split
    · exact ⟨w.resolver.trail, rfl⟩
    · exact ⟨_, rfl⟩
  refine ⟨trail, ?_⟩
  rw [Compilation.run_request]
  simp only [Workspace.answer, Resolver.output, htrail]
  rfl

/-- Writing the output of a unit only changes the store, and leaves an audit event behind. -/
theorem run_write (u : PluginUnit) (m : Module) (w : Workspace) (h : w.resolver.artifacts.Open) :
    ∃ trail, (write u m).run w =
      (.done (), { w with resolver := { w.resolver with
        artifacts := w.resolver.artifacts.output u.qualifiedName m.encode, trail } }) := by
  obtain ⟨trail, houtput⟩ := run_output u m w
  rw [(ArtifactStore.write_of_open (h.ensure u.qualifiedName) u.qualifiedName m.encode).1] at houtput
  refine ⟨trail, ?_⟩
  rw [write, Compilation.run_bind_of_done houtput]
  rfl

theorem run_writes (modules : List (PluginUnit × Module)) (w : Workspace)
    (h : w.resolver.artifacts.Open) :
    ∃ trail, (modules.forM fun (u, m) => write u m).run w =
      (.done (), { w with resolver := { w.resolver with
        artifacts := outputs modules w.resolver.artifacts, trail } }) := by
  induction modules generalizing w with
  | nil => exact ⟨w.resolver.trail, rfl⟩
  | cons first modules ih =>
    obtain ⟨u, m⟩ := first
    obtain ⟨trail, hfirst⟩ := run_write u m w h
    obtain ⟨trail', hrest⟩ := ih { w with resolver := { w.resolver with
      artifacts := w.resolver.artifacts.output u.qualifiedName m.encode, trail } } (h.output _ _)
    refine ⟨trail', ?_⟩
    rw [Compilation.forM_cons]
    exact (Compilation.run_bind_of_done hfirst _).trans hrest

/-! ## What is written -/

/-- Writing the output of some units leaves the artifacts of all other names as they are. -/
theorem get?_outputs_of_notMem (modules : List (PluginUnit × Module)) {s : ArtifactStore} (h : s.Open)
    {name : String} (hname : name ∉ modules.map fun c => c.1.qualifiedName) :
    (outputs modules s).get? name = s.get? name := by
  induction modules generalizing s with
  | nil => rfl
  | cons first modules ih =>
    obtain ⟨hne, hrest⟩ := List.ne_and_not_mem_of_not_mem_cons hname
    have hskip := ih (h.output first.1.qualifiedName first.2.encode) hrest
    rw [ArtifactStore.get?_output h, if_neg (Ne.symm hne)] at hskip
    exact hskip

/-- The output of units with different names holds the compiled form of each of them. -/
theorem get?_outputs {modules : List (PluginUnit × Module)}
    (hnodup : (modules.map fun c => c.1.qualifiedName).Nodup) {s : ArtifactStore} (h : s.Open)
    (habsent : ∀ c ∈ modules, s.get? c.1.qualifiedName = none) {u : PluginUnit} {m : Module}
    (hmem : (u, m) ∈ modules) :
    ∃ a, (outputs modules s).get? u.qualifiedName = some a ∧ a.bytes = m.encode := by
  induction modules generalizing s with
  | nil => exact absurd hmem (by simp)
  | cons first modules ih =>
    obtain ⟨hfresh, hrest⟩ := List.nodup_cons.1 hnodup
    obtain ⟨hfirst, habsent⟩ := List.forall_mem_cons.1 habsent
    have hopen := h.output first.1.qualifiedName first.2.encode
    rcases List.mem_cons.1 hmem with rfl | hmem
    · -- No later write has the same name.
      have hkept := get?_outputs_of_notMem modules hopen hfresh
      rw [ArtifactStore.get?_output h, if_pos rfl] at hkept
      refine ⟨_, hkept, ?_⟩
      rw [ArtifactStore.obtain, hfirst]
      exact ByteArray.empty_append
    · refine ih hrest hopen (fun c hc => ?_) hmem
      have hne : first.1.qualifiedName ≠ c.1.qualifiedName :=
        fun heq => hfresh (List.mem_map.2 ⟨c, hc, heq.symm⟩)
      rw [ArtifactStore.get?_output h, if_neg hne]
      exact habsent c hc

/-! ## The whole task -/

theorem run_anyErrors (w : Workspace) :
    anyErrors.run w = (.done (hasErrors w.diagnostics), w) := rfl

/-- Output is written unless anything was found to be an error. -/
theorem run_writeAll (modules : List (PluginUnit × Module)) (w : Workspace)
    (h : w.resolver.artifacts.Open) :
    ∃ trail, (writeAll modules).run w =
      (.done (!hasErrors w.diagnostics), { w with resolver := { w.resolver with
        trail
        artifacts :=
          if hasErrors w.diagnostics then w.resolver.artifacts
          else outputs modules w.resolver.artifacts } }) := by
  cases herrors : hasErrors w.diagnostics with
  | true =>
    refine ⟨w.resolver.trail, ?_⟩
    rw [writeAll, Compilation.run_bind_of_done (run_anyErrors w), herrors]
    rfl
  | false =>
    obtain ⟨trail, hwrites⟩ := run_writes modules w h
    refine ⟨trail, ?_⟩
    rw [writeAll, Compilation.run_bind_of_done (run_anyErrors w), herrors]
    refine (Compilation.run_bind_of_done hwrites _).trans ?_
    rw [Compilation.run_bind_of_done (run_anyErrors _), Compilation.run_pure]
    simp only [herrors, Bool.false_eq_true, if_false]

/-! ## Writing that may be refused -/

/-- Writing an output leaves the same store behind and reports the same wherever it starts with one store. -/
theorem exists_run_write (u : PluginUnit) (m : Module) (s : ArtifactStore) :
    ∃ s' ds, ∀ w : Workspace, w.resolver.artifacts = s → ∃ trail, (write u m).run w =
      (.done (), { resolver := { w.resolver with artifacts := s', trail }, diagnostics := w.diagnostics ++ ds }) := by
  cases hresult : ((s.ensure u.qualifiedName).write u.qualifiedName m.encode).1 with
  | ok _ =>
    refine ⟨s.output u.qualifiedName m.encode, #[], ?_⟩
    rintro w rfl
    obtain ⟨trail, houtput⟩ := run_output u m w
    rw [hresult] at houtput
    refine ⟨trail, ?_⟩
    rw [write, Compilation.run_bind_of_done houtput, Array.append_empty]
    rfl
  | error e =>
    let refused : SandboxError := .refusedWrite e
    refine ⟨s.output u.qualifiedName m.encode,
      #[{ severity := .error, message := s!"failed to write output: {refused.message}", line := 1, column := 1
          unit := some u.qualifiedName }], ?_⟩
    rintro w rfl
    obtain ⟨trail, houtput⟩ := run_output u m w
    rw [hresult] at houtput
    refine ⟨trail, ?_⟩
    rw [write, Compilation.run_bind_of_done houtput, ← Array.push_eq_append]
    rfl

theorem exists_run_writes (modules : List (PluginUnit × Module)) (s : ArtifactStore) :
    ∃ s' ds, ∀ w : Workspace, w.resolver.artifacts = s → ∃ trail, (modules.forM fun (u, m) => write u m).run w =
      (.done (), { resolver := { w.resolver with artifacts := s', trail }, diagnostics := w.diagnostics ++ ds }) := by
  induction modules generalizing s with
  | nil =>
    refine ⟨s, #[], ?_⟩
    rintro w rfl
    exact ⟨w.resolver.trail, by rw [Array.append_empty]; rfl⟩
  | cons first modules ih =>
    obtain ⟨between, ds, hfirst⟩ := exists_run_write first.1 first.2 s
    obtain ⟨s', ds', hrest⟩ := ih between
    refine ⟨s', ds ++ ds', fun w hw => ?_⟩
    obtain ⟨trail, hfirst⟩ := hfirst w hw
    obtain ⟨trail', hrest⟩ := hrest
      { resolver := { w.resolver with artifacts := between, trail }, diagnostics := w.diagnostics ++ ds } rfl
    refine ⟨trail', ?_⟩
    rw [Compilation.forM_cons, Compilation.run_bind_of_done hfirst, ← Array.append_assoc]
    exact hrest

theorem hasErrors_append (ds ds' : Array Diagnostic) : hasErrors (ds ++ ds') = (hasErrors ds || hasErrors ds') := by
  simp [hasErrors]

/-- Where nothing was reported as an error, writing all output leaves the same store behind and reports the same
wherever it starts with one store. -/
theorem exists_run_writeAll (modules : List (PluginUnit × Module)) (s : ArtifactStore) :
    ∃ s' ds, ∀ w : Workspace, w.resolver.artifacts = s → hasErrors w.diagnostics = false →
      ∃ trail, (writeAll modules).run w = (.done (!hasErrors ds),
        { resolver := { w.resolver with artifacts := s', trail }, diagnostics := w.diagnostics ++ ds }) := by
  obtain ⟨s', ds, hwrites⟩ := exists_run_writes modules s
  refine ⟨s', ds, fun w hw herrors => ?_⟩
  obtain ⟨trail, hwrites⟩ := hwrites w hw
  have hends := hasErrors_append w.diagnostics ds
  rw [herrors, Bool.false_or] at hends
  refine ⟨trail, ?_⟩
  rw [writeAll, Compilation.run_bind_of_done (run_anyErrors w), herrors, ← hends]
  exact Compilation.run_bind_of_done hwrites _

/-- Checking parsed units reports what is found, and leaves the output to be written. -/
theorem run_lower (members : List (PluginUnit × ParsedUnit)) (w : Workspace) :
    ∃ decisions trail, (lower members).run w = (writeAll (lowered w.resolver.meaning members).1).run
      { resolver := { w.resolver with decisions, trail }
        diagnostics := w.diagnostics ++ (lowered w.resolver.meaning members).2.toArray } := by
  have hcheck := Query.gives_serve w.resolver ((Checker.units (declared members) members).run [])
  obtain ⟨r', listings, ⟨decisions, trail, rfl⟩, _, hserve⟩ := hcheck w [] (.refl w.resolver) Lookup.sound_nil
  exact ⟨decisions, trail, Compilation.run_bind_of_done hserve _⟩

/-- Parsing and checking report what is found, and leave the output to be written. -/
theorem run_compile_eq (units : List PluginUnit) (w : Workspace) :
    ∃ decisions trail, (compile units).run w = (writeAll (checked w.resolver.meaning units).1).run
      { resolver := { w.resolver with decisions, trail }
        diagnostics := w.diagnostics ++ (findings w.resolver.meaning units).toArray } := by
  obtain ⟨decisions, trail, hlower⟩ := run_lower (parsed units)
    { w with diagnostics := w.diagnostics ++ (syntaxDiagnostics units).toArray }
  have hfindings : w.diagnostics ++ (syntaxDiagnostics units).toArray ++
      (checked w.resolver.meaning units).2.toArray =
        w.diagnostics ++ (findings w.resolver.meaning units).toArray := by
    simp [findings]
  refine ⟨decisions, trail, ?_⟩
  rw [compile_eq, Compilation.run_bind_of_done (run_parses units w), hlower, ← hfindings]
  rfl

/-- Compiling units reports what is found, and writes the output of every unit if nothing is an error. -/
theorem run_compile (r : Resolver) (units : List PluginUnit) (h : r.artifacts.Open) :
    ∃ decisions trail, (compile units).run { resolver := r } =
      (.done (!hasErrors (findings r.meaning units).toArray),
        { resolver := { r with
            decisions, trail
            artifacts :=
              if hasErrors (findings r.meaning units).toArray then r.artifacts
              else outputs (checked r.meaning units).1 r.artifacts }
          diagnostics := (findings r.meaning units).toArray }) := by
  obtain ⟨decisions, trail, hcompile⟩ := run_compile_eq units { resolver := r }
  obtain ⟨trail', hwrite⟩ := run_writeAll (checked r.meaning units).1
    { resolver := { r with decisions, trail }, diagnostics := (findings r.meaning units).toArray } h
  refine ⟨decisions, trail', hcompile.trans ?_⟩
  rw [Array.empty_append]
  exact hwrite

end Builtin
end PluginSandbox
