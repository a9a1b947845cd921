import PluginSandbox.Proofs.Compiler.Apart
import PluginSandbox.Proofs.Compiler.Beside

/-!
# Where diagnostics point

Every diagnostic of a compilation names one of its units and points at a place of its text, with one exception: an
error about an escaped line break points at column zero of the next line (`Builtin.diagnostics_point`).  The errors
of a text come from the parser as they are, so they may point there.  What the checker finds stands in the tree,
which keeps to the places of the text, and a unit whose output cannot be written is pointed at in its first place.
-/

namespace PluginSandbox
namespace Builtin

variable {m : Meaning}

/-- Whatever the checker reports of a unit points into that unit. -/
theorem pointsInto_of_mem_outcome {siblings : Signatures} {u : PluginUnit} {d : Diagnostic}
    (h : d ∈ (outcome m siblings u).2) : d.PointsInto u :=
  (Checker.alike_ofSource u fun _ => rfl).reports m [] (fun _ hb => absurd hb List.not_mem_nil) d h

/-! ## Writing -/

/-- If the output of a unit cannot be written, its first place is pointed at. -/
theorem reported_write (u : PluginUnit) (compiled : Module) (w : Workspace) :
    ∃ resolver failed, (write u compiled).run w = (.done (), ⟨resolver, w.diagnostics ++ failed⟩) ∧
      ∀ d ∈ failed, d.PointsInto u := by
  obtain ⟨resolver, houtput⟩ : ∃ resolver,
      (w.answer (.output .classOutput u.qualifiedName u compiled.encode)).2 = ⟨resolver, w.diagnostics⟩ := ⟨_, rfl⟩
  have hask := Compilation.run_request (.output .classOutput u.qualifiedName u compiled.encode) w
  rw [houtput] at hask
  rw [write, Compilation.run_bind_of_done hask]
  cases (w.answer (.output .classOutput u.qualifiedName u compiled.encode)).1 with
  | ok => exact ⟨resolver, #[], by rw [Array.append_empty]; rfl, by simp⟩
  | error e =>
    refine ⟨resolver, #[_], rfl, fun d hd => ?_⟩
    obtain rfl := Array.mem_singleton.1 hd
    exact ⟨rfl, Position.isIn_first _⟩

theorem reported_writes (modules : List (PluginUnit × Module)) (w : Workspace) :
    ∃ resolver failed,
      (modules.forM fun (u, m) => write u m).run w = (.done (), ⟨resolver, w.diagnostics ++ failed⟩) ∧
        ∀ d ∈ failed, ∃ c ∈ modules, d.PointsInto c.1 := by
  induction modules generalizing w with
  | nil => exact ⟨w.resolver, #[], by rw [Array.append_empty]; rfl, by simp⟩
  | cons c modules ih =>
    obtain ⟨resolver, failed, hwrite, hfailed⟩ := reported_write c.1 c.2 w
    obtain ⟨resolver', failed', hwrites, hfailed'⟩ := ih ⟨resolver, w.diagnostics ++ failed⟩
    refine ⟨resolver', failed ++ failed', ?_, fun d hd => ?_⟩
    · rw [Compilation.forM_cons, ← Array.append_assoc]
      exact (Compilation.run_bind_of_done hwrite _).trans hwrites
    · rcases Array.mem_append.1 hd with hd | hd
      · exact ⟨c, List.mem_cons_self, hfailed d hd⟩
      · obtain ⟨c', hc', hd⟩ := hfailed' d hd
        exact ⟨c', List.mem_cons_of_mem _ hc', hd⟩

theorem reported_writeAll (modules : List (PluginUnit × Module)) (w : Workspace) :
    ∃ failed, ((writeAll modules).run w).2.diagnostics = w.diagnostics ++ failed ∧
      ∀ d ∈ failed, ∃ c ∈ modules, d.PointsInto c.1 := by
  rw [writeAll, Compilation.run_bind_of_done (run_anyErrors w)]
  split
  · exact ⟨#[], by rw [Array.append_empty]; rfl, by simp⟩
  · obtain ⟨resolver, failed, hwrites, hfailed⟩ := reported_writes modules w
    refine ⟨failed, ?_, hfailed⟩
    rw [Compilation.run_bind_of_done hwrites]
    rfl

/-! ## Compiling -/

/-- A compilation reports what is found, and then the units whose output cannot be written. -/
theorem reported_compile (units : List PluginUnit) (w : Workspace) :
    ∃ failed, ((compile units).run w).2.diagnostics =
        w.diagnostics ++ (findings w.resolver.meaning units).toArray ++ failed ∧
      ∀ d ∈ failed, ∃ u ∈ units, d.PointsInto u := by
  obtain ⟨decisions, trail, hcompile⟩ := run_compile_eq units w
  obtain ⟨failed, hwrite, hfailed⟩ := reported_writeAll (checked w.resolver.meaning units).1
    ⟨{ w.resolver with decisions, trail }, w.diagnostics ++ (findings w.resolver.meaning units).toArray⟩
  refine ⟨failed, ?_, fun d hd => ?_⟩
  · rw [hcompile]
    exact hwrite
  · obtain ⟨c, hc, hd⟩ := hfailed d hd
    rw [checked_eq] at hc
    obtain ⟨u, hu, hcompiled⟩ := List.mem_filterMap.1 hc
    obtain ⟨compiled, _, rfl⟩ := Option.map_eq_some_iff.1 hcompiled
    exact ⟨u, hu, hd⟩

/-- A diagnostic of a unit is about an escaped line break in its text. -/
def AtEscapedBreak (u : PluginUnit) (d : Diagnostic) : Prop :=
  ∃ e ∈ (ParsedUnit.ofSource u.source).2, e.problem = .unknownEscape '\n' ∧ d = syntaxDiagnostic u e

/-- Whatever is found in some units points into one of them or is about an escaped line break in it. -/
theorem pointsInto_of_mem_findings {units : List PluginUnit} {d : Diagnostic} (h : d ∈ findings m units) :
    ∃ u ∈ units, d.PointsInto u ∨ AtEscapedBreak u d := by
  rw [findings, checked_eq] at h
  rcases List.mem_append.1 h with h | h
  · obtain ⟨u, hu, h⟩ := List.mem_flatMap.1 h
    obtain ⟨e, he, rfl⟩ := List.mem_map.1 h
    refine ⟨u, hu, ?_⟩
    have hpoints := (ParsedUnit.placed_ofSource u.source).2 e he
    by_cases hbreak : e.problem = .unknownEscape '\n'
    · exact .inr ⟨e, he, hbreak, rfl⟩
    · rw [SyntaxError.Points, if_neg hbreak] at hpoints
      exact .inl ⟨rfl, hpoints⟩
  · obtain ⟨u, hu, h⟩ := List.mem_flatMap.1 h
    exact ⟨u, hu, .inl (pointsInto_of_mem_outcome h)⟩

/-- **Diagnostics point into the text.** Whatever a source text is, its lexical errors and its syntax errors point at
places of it, those about escaped line breaks apart, and the syntax errors come in the order of their places.
Whatever units are compiled in whatever session, every diagnostic that is reported names one of them and points at a
place of its text, unless it is about an escaped line break there. -/
theorem diagnostics_point (source : String) (units : List PluginUnit) (w : Workspace) :
    (∀ e ∈ (Lexed.ofSource source).errors, e.Points source.toList) ∧
    (∀ e ∈ (ParsedUnit.ofSource source).2, e.Points source.toList) ∧
    (ParsedUnit.ofSource source).2.Pairwise (fun e f => e.position.le f.position = true) ∧
    ∃ reported, ((compile units).run w).2.diagnostics = w.diagnostics ++ reported ∧
      ∀ d ∈ reported, ∃ u ∈ units, d.PointsInto u ∨ AtEscapedBreak u d := by
  obtain ⟨failed, hcompile, hfailed⟩ := reported_compile units w
  rw [Array.append_assoc] at hcompile
  refine ⟨Lexed.points_errors source, (ParsedUnit.placed_ofSource source).2, ParsedUnit.pairwise_errors source,
    _, hcompile, fun d hd => ?_⟩
  rcases Array.mem_append.1 hd with hd | hd
  · exact pointsInto_of_mem_findings (List.mem_toArray.1 hd)
  · obtain ⟨u, hu, hd⟩ := hfailed d hd
    exact ⟨u, hu, .inl hd⟩

/-- A string literal that breaks its line behind a backslash. -/
def brokenSource : String := "\"\\\n\""

/-- **An escaped line break is pointed at where nothing stands.** The error has column zero, with the lexer, with the
parser, and in the diagnostics of every unit with this text. -/
theorem exists_column_zero :
    ∃ e ∈ (Lexed.ofSource brokenSource).errors, e.position = ⟨2, 0⟩ ∧ ¬ e.position.IsIn brokenSource.toList ∧
      e ∈ (ParsedUnit.ofSource brokenSource).2 ∧
      ∀ (u : PluginUnit) (w : Workspace), u.source = brokenSource →
        syntaxDiagnostic u e ∈ ((compile [u]).run w).2.diagnostics := by
  have hlexed : (⟨.unknownEscape '\n', ⟨2, 0⟩⟩ : SyntaxError) ∈ (Lexed.ofSource brokenSource).errors := by
    decide +kernel
  have hparsed : (⟨.unknownEscape '\n', ⟨2, 0⟩⟩ : SyntaxError) ∈ (ParsedUnit.ofSource brokenSource).2 := by
    rw [ParsedUnit.ofSource]
    exact List.mem_mergeSort.2 (List.mem_append_left _ hlexed)
  refine ⟨_, hlexed, rfl, fun hin => absurd hin.column (by decide), hparsed, fun u w hu => ?_⟩
  obtain ⟨failed, hcompile, _⟩ := reported_compile [u] w
  rw [hcompile, findings, syntaxDiagnostics, List.flatMap_singleton, hu]
  simp only [Array.mem_append, List.mem_toArray, List.mem_append, List.mem_map]
  exact .inl (.inr (.inl ⟨_, hparsed, rfl⟩))

end Builtin
end PluginSandbox
