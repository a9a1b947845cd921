import PluginSandbox.Proofs.Compiler.Task
import PluginSandbox.Sandbox

/-!
# Compiled sessions

What a sandbox makes of some units.  They are refused if there are none or if two have one name
(`Sandbox.compile_eq`).  Otherwise the built-in toolchain compiles them in a session that knows the
configuration, the platform and the units, and `compiled_builtin` says what that session holds afterwards.
-/

namespace PluginSandbox

/-- The first name of some units that is taken already. -/
def repeated? (taken : List String) : List PluginUnit → Option String
  | [] => none
  | u :: rest =>
    if u.qualifiedName ∈ taken then some u.qualifiedName
    else repeated? (taken ++ [u.qualifiedName]) rest

/-- No name is taken twice exactly if the names differ. -/
theorem repeated?_eq_none {units : List PluginUnit} {taken : List String} (h : taken.Nodup) :
    repeated? taken units = none ↔ (taken ++ units.map PluginUnit.qualifiedName).Nodup := by
  induction units generalizing taken with
  | nil => simp [repeated?, h]
  | cons u rest ih =>
    rw [repeated?]
    split
    · next hmem =>
      refine iff_of_false (by simp) ?_
      intro hnodup
      obtain ⟨_, _, hdisjoint⟩ := List.nodup_append.1 hnodup
      exact hdisjoint _ hmem _ (by simp) rfl
    · next hmem =>
      have htaken : (taken ++ [u.qualifiedName]).Nodup :=
        List.nodup_append.2 ⟨h, by simp, by rintro a ha b hb rfl; simp at hb; exact hmem (hb ▸ ha)⟩
      rw [ih htaken, List.append_assoc, List.map_cons, List.singleton_append]

namespace Sandbox

/-- The session of a sandbox in which some units have been registered. -/
def pending (b : Sandbox) (correlation : Correlation) (toolchain : Toolchain)
    (units : List PluginUnit) : PendingSession where
  correlation := correlation
  configuration := b.configuration
  toolchain := toolchain
  clock := b.clock
  resolver :=
    { catalogue := b.catalogue, policy := .ofConfiguration b.configuration, correlation, clock := b.clock.behind 1
      units }
  history := [.pending]
  trail := [.sessionStart (b.clock.reading 0) correlation toolchain.name]

variable {b : Sandbox} {correlation : Correlation} {toolchain : Toolchain}

theorem register_pending (u : PluginUnit) (units : List PluginUnit) :
    register (b.pending correlation toolchain units) u =
      if u.qualifiedName ∈ units.map PluginUnit.qualifiedName then
        .error ⟨.duplicateUnit u.qualifiedName, [.sessionStart (b.clock.reading 0) correlation toolchain.name]⟩
      else .ok (b.pending correlation toolchain (units ++ [u])) := by
  have hany : (units.any fun other => other.qualifiedName = u.qualifiedName) = true ↔
      u.qualifiedName ∈ units.map PluginUnit.qualifiedName := by
    simp [List.any_eq_true]
  rw [register, PendingSession.register]
  show Except.mapError _ (if (units.any fun other => other.qualifiedName = u.qualifiedName) = true then
    _ else _) = _
  by_cases h : u.qualifiedName ∈ units.map PluginUnit.qualifiedName
  · rw [if_pos (hany.2 h), if_pos h]
    rfl
  · rw [if_neg (fun h' => h (hany.1 h')), if_neg h]
    rfl

theorem registerAll (units seen : List PluginUnit) :
    units.foldlM register (b.pending correlation toolchain seen) =
      match repeated? (seen.map PluginUnit.qualifiedName) units with
      | some name => .error ⟨.duplicateUnit name, [.sessionStart (b.clock.reading 0) correlation toolchain.name]⟩
      | none => .ok (b.pending correlation toolchain (seen ++ units)) := by
  induction units generalizing seen with
  | nil =>
    rw [List.append_nil]
    rfl
  | cons u rest ih =>
    rw [List.foldlM_cons, register_pending, repeated?]
    split
    · rfl
    · show rest.foldlM register (b.pending correlation toolchain (seen ++ [u])) = _
      rw [ih, List.map_append, List.append_assoc, List.singleton_append]
      rfl

/-- What a sandbox makes of some units. -/
theorem compile_eq (h : b.toolchain = some toolchain) (units : List PluginUnit) :
    b.compile correlation units =
      match units with
      | [] => .error ⟨.config .noUnits, []⟩
      | first :: _ =>
        match repeated? [] units with
        | some name => .error ⟨.duplicateUnit name, [.sessionStart (b.clock.reading 0) correlation toolchain.name]⟩
        | none =>
          .ok (first.qualifiedName, (b.pending correlation toolchain units).compile) := by
  cases units with
  | nil => rfl
  | cons first rest =>
    have hstart : b.start correlation = .ok (b.pending correlation toolchain []) := by
      rw [start, h]
      rfl
    have hall : (first :: rest).foldlM register (b.pending correlation toolchain []) = _ :=
      registerAll (first :: rest) []
    rw [compile, hstart]
    show (do
      let session ← (first :: rest).foldlM register (b.pending correlation toolchain [])
      return (first.qualifiedName, session.compile)) = _
    rw [hall]
    show (match repeated? [] (first :: rest) with | some name => _ | none => _) >>= _ = _
    cases repeated? [] (first :: rest) <;> rfl

/-! ## The built-in toolchain -/

/-- What names mean in the sessions of a sandbox in which some units are registered. -/
def meaning (b : Sandbox) (units : List PluginUnit) : Meaning :=
  (b.pending default Builtin.toolchain units).resolver.meaning

/-- The output of a session, before it is sealed: there is none if anything was found to be an error. -/
def written (b : Sandbox) (units : List PluginUnit) : ArtifactStore :=
  if hasErrors (Builtin.findings (b.meaning units) units).toArray then .empty
  else Builtin.outputs (Builtin.checked (b.meaning units) units).1 .empty

/-- What a session holds after the built-in toolchain has compiled its units. -/
structure CompiledBy (b : Sandbox) (correlation : Correlation) (units : List PluginUnit)
    (s : CompiledSession) : Prop where
  configuration : s.configuration = b.configuration
  correlation : s.correlation = correlation
  diagnostics : s.diagnostics = (Builtin.findings (b.meaning units) units).toArray
  state : s.state =
    if hasErrors (Builtin.findings (b.meaning units) units).toArray then .compiledFailed
    else .compiledOk
  registered : s.units = units
  catalogue : s.resolver.catalogue = b.catalogue
  policy : s.resolver.policy = .ofConfiguration b.configuration
  artifacts : s.artifacts = (b.written units).sealAll

theorem compiledBy_builtin (b : Sandbox) (correlation : Correlation) (units : List PluginUnit) :
    b.CompiledBy correlation units (b.pending correlation Builtin.toolchain units).compile := by
  obtain ⟨decisions, trail, hrun⟩ := Builtin.run_compile
    (b.pending correlation Builtin.toolchain units).resolver units ArtifactStore.open_empty
  have hmeaning : (b.pending correlation Builtin.toolchain units).resolver.meaning =
      b.meaning units := rfl
  rw [hmeaning] at hrun
  have hcompile : (Builtin.toolchain.compile units).run
      { resolver := (b.pending correlation Builtin.toolchain units).resolver } = _ := hrun
  have hunits : (b.pending correlation Builtin.toolchain units).units = units := rfl
  have htoolchain : (b.pending correlation Builtin.toolchain units).toolchain = Builtin.toolchain := rfl
  rw [PendingSession.compile, hunits, htoolchain, hcompile]
  refine ⟨rfl, rfl, rfl, ?state, rfl, rfl, rfl, rfl⟩
  show (if _ ∧ _ then SessionState.compiledOk else .compiledFailed) = _
  cases herrors : hasErrors (Builtin.findings (b.meaning units) units).toArray <;>
    simp [PendingSession.diagnosticsOf, herrors]

/-- A session succeeds if nothing was found to be an error. -/
theorem CompiledBy.succeeded_iff {units : List PluginUnit} {s : CompiledSession}
    (h : b.CompiledBy correlation units s) :
    s.Succeeded ↔ hasErrors (Builtin.findings (b.meaning units) units).toArray = false := by
  rw [CompiledSession.Succeeded, h.state]
  cases hasErrors (Builtin.findings (b.meaning units) units).toArray <;> simp

/-- The compiled session of some units has what the built-in toolchain makes of them. -/
theorem compiledBy_of_compile (ht : b.toolchain = some Builtin.toolchain) {units : List PluginUnit}
    {entry : String} {s : CompiledSession} (h : b.compile correlation units = .ok (entry, s)) :
    (units.map PluginUnit.qualifiedName).Nodup ∧ entry ∈ units.map PluginUnit.qualifiedName ∧
      b.CompiledBy correlation units s := by
  rw [compile_eq ht] at h
  cases units with
  | nil => exact absurd h (by simp)
  | cons first rest =>
    dsimp only at h
    cases hrepeated : repeated? [] (first :: rest) with
    | some name =>
      rw [hrepeated] at h
      exact absurd h (by simp)
    | none =>
      rw [hrepeated] at h
      obtain ⟨rfl, rfl⟩ := Prod.mk.inj (Except.ok.inj h)
      refine ⟨?_, by simp, compiledBy_builtin b correlation (first :: rest)⟩
      have hnodup := (repeated?_eq_none List.nodup_nil).1 hrepeated
      exact hnodup

end Sandbox

/-- A unit that prints a line. -/
def PluginUnit.hello : PluginUnit where
  qualifiedName := "contract.Hello"
  shortName := "Hello"
  package := "contract"
  source := "import io.print; plugin Hello: Plugin \x7b fn execute() \x7b print(\"hello\"); \x7d \x7d"
  isDotted := by decide +kernel
  parts_eq := by decide +kernel
  source_le := by decide +kernel

end PluginSandbox
