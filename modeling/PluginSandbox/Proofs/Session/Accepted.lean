import PluginSandbox.Proofs.Compiler.Apart
import PluginSandbox.Proofs.Compiler.Decided
import PluginSandbox.Proofs.Session.Modules

/-!
# Which units are accepted

Units of different names are accepted exactly if their texts are free of syntax errors and each of them is well
formed beside the others (`Builtin.accepts_iff`).  Then every unit has an artifact, which holds a module that
presents it, and there is no other; if an error was found, there is no artifact at all (`Builtin.allOrNothing`).

So a unit cannot be left out of the output unnoticed: the checks decide the static rules, and a unit that passes
them has a module.
-/

namespace PluginSandbox

/-- What a supertype means is the answer to a question. -/
theorem Meaning.supertype_eq_some {m : Meaning} {unit : PluginUnit} {imports : List Import}
    {path : List String} {found : Location × Entry} (h : m.supertype unit imports path = some found) :
    ∃ question, m question = some found := by
  rw [supertype.eq_def] at h
  split at h
  · obtain ⟨package, hon | hin⟩ := own_eq_some h
    · exact ⟨_, hon⟩
    · exact ⟨_, hin⟩
  · exact ⟨_, h⟩

namespace Program

variable {r : Resolver} {units : List PluginUnit}

theorem signatures_ofUnits : (ofUnits r units).signatures = Builtin.signatures units := by
  show (units.map Member.ofUnit).map _ = (units.map _).map _
  rw [List.map_map, List.map_map]
  rfl

end Program

namespace Builtin

variable {r : Resolver} {units : List PluginUnit}

/-- The checks of a unit beside others decide whether it is well formed. -/
theorem decides_unit (hnodup : (units.map PluginUnit.qualifiedName).Nodup) {u : PluginUnit} (hu : u ∈ units) :
    Checker.Decides r.meaning (fun _ => True)
      (Checker.unit u (signatures units) (ParsedUnit.ofSource u.source).1)
      (∃ contract, ValidUnit (.ofUnits r units) (.ofUnit u) contract)
      (fun compiled => ∃ m, compiled = some m ∧ m.Presents (.ofUnit u)) fun _ => True := by
  rw [← Program.signatures_ofUnits (r := r)]
  have hself : (Program.ofUnits r units).member? (Member.ofUnit u).unit.qualifiedName = some (.ofUnit u) :=
    Program.member?_of_units rfl hnodup hu
  exact Checker.decides_unit hself

/-- **What the checker accepts.** Compiling units of different names reports no error exactly if their texts are
free of syntax errors and each of them is well formed beside the others.  In a session with a valid configuration,
the contract type that they implement is the one of the configuration.

A session seals its artifacts when the toolchain has returned, so all of them can still be written to: a refused
write would be an error as well. -/
theorem accepts_iff (r : Resolver) (units : List PluginUnit) (hopen : r.artifacts.Open)
    (hnodup : (units.map PluginUnit.qualifiedName).Nodup) :
    (hasErrors ((compile units).run { resolver := r }).2.diagnostics = false ↔
      ∀ u ∈ units, (ParsedUnit.ofSource u.source).2 = [] ∧
        ∃ contract, ValidUnit (.ofUnits r units) (.ofUnit u) contract) ∧
    ∀ configuration : Configuration, configuration.IsValid → r.policy = .ofConfiguration configuration →
      ∀ u contract, ValidUnit (.ofUnits r units) (.ofUnit u) contract → contract = configuration.contract := by
  constructor
  · obtain ⟨decisions, trail, hrun⟩ := run_compile r units hopen
    rw [hrun, hasErrors_findings_eq_false]
    refine forall₂_congr fun u hu => and_congr_right fun _ => ?_
    exact (decides_unit hnodup hu).passes_iff trivial
  · intro configuration hvalid hpolicy u contract hunit
    obtain ⟨decl, _, hplugin⟩ := hunit.plugin
    obtain ⟨location, hsupertype⟩ := hplugin.supertype
    obtain ⟨question, hquestion⟩ := Meaning.supertype_eq_some hsupertype
    exact Resolver.contract_of_meaning hvalid hpolicy hquestion

/-- What is compiled of units that are accepted: a module for each of them. -/
theorem exists_outcome (hnodup : (units.map PluginUnit.qualifiedName).Nodup)
    (hquiet : hasErrors (findings r.meaning units).toArray = false) {u : PluginUnit} (hu : u ∈ units) :
    ∃ m, (outcome r.meaning (signatures units) u).1 = some m ∧ m.Presents (.ofUnit u) := by
  obtain ⟨_, compiled, bs, hpasses⟩ := (hasErrors_findings_eq_false r.meaning units).1 hquiet u hu
  obtain ⟨m, rfl, hpresents⟩ := ((decides_unit hnodup hu).keeps trivial hpasses).1
  refine ⟨m, ?_, hpresents⟩
  rw [outcome, hpasses.1]

/-- Every unit that is accepted is compiled, in order. -/
theorem map_checked_fst (hnodup : (units.map PluginUnit.qualifiedName).Nodup)
    (hquiet : hasErrors (findings r.meaning units).toArray = false) :
    (checked r.meaning units).1.map Prod.fst = units := by
  have hall : ∀ u ∈ units,
      ((outcome r.meaning (signatures units) u).1.map (u, ·)).map Prod.fst = some u := by
    intro u hu
    obtain ⟨m, hm, _⟩ := exists_outcome hnodup hquiet hu
    rw [hm]
    rfl
  rw [checked_eq, List.map_filterMap, List.filterMap_congr hall, List.filterMap_some]

/-- The output of units that are accepted: an artifact for each of them, and no other. -/
theorem isSome_outputs_iff (hnodup : (units.map PluginUnit.qualifiedName).Nodup)
    (hquiet : hasErrors (findings r.meaning units).toArray = false) {name : String} :
    ((outputs (checked r.meaning units).1 .empty).get? name).isSome = true ↔
      name ∈ units.map PluginUnit.qualifiedName := by
  have hnames := congrArg (List.map PluginUnit.qualifiedName) (map_checked_fst hnodup hquiet)
  rw [List.map_map] at hnames
  constructor
  · intro hsome
    by_contra hname
    rw [get?_outputs_of_notMem _ ArtifactStore.open_empty (hnames.symm ▸ hname), ArtifactStore.get?_empty]
      at hsome
    exact absurd hsome (by simp)
  · intro hname
    rw [← hnames] at hname
    obtain ⟨⟨u, m⟩, hmem, rfl⟩ := List.mem_map.1 hname
    obtain ⟨a, ha, _⟩ := get?_outputs (nodup_checked hnodup) ArtifactStore.open_empty
      (fun _ _ => ArtifactStore.get?_empty _) hmem
    exact Option.isSome_iff_exists.2 ⟨a, ha⟩

/-- **All or nothing.** Compiling units of different names into an empty store succeeds exactly if no error was
reported.  Then there is one artifact for each unit, which holds a module that presents it; otherwise there is no
artifact. -/
theorem allOrNothing (r : Resolver) (units : List PluginUnit) (hempty : r.artifacts = .empty)
    (hnodup : (units.map PluginUnit.qualifiedName).Nodup) :
    ∃ (ok : Bool) (w : Workspace), (compile units).run { resolver := r } = (.done ok, w) ∧
      (ok = true ↔ hasErrors w.diagnostics = false) ∧
      (ok = false → w.resolver.artifacts.names = []) ∧
      (ok = true → w.resolver.artifacts.names.Perm (units.map PluginUnit.qualifiedName) ∧
        ∀ u ∈ units, ∃ (a : Artifact) (m : Module),
          w.resolver.artifacts.get? u.qualifiedName = some a ∧ a.bytes = m.encode ∧
            m.Presents (.ofUnit u)) := by
  have hopen : r.artifacts.Open := hempty ▸ ArtifactStore.open_empty
  obtain ⟨decisions, trail, hrun⟩ := run_compile r units hopen
  refine ⟨_, _, hrun, by simp, ?_, ?_⟩
  · intro herrors
    rw [Bool.not_eq_false'] at herrors
    dsimp only
    rw [if_pos herrors, hempty, ArtifactStore.names_empty]
  · intro hok
    rw [Bool.not_eq_true'] at hok
    dsimp only
    rw [if_neg (by rw [hok]; simp), hempty]
    constructor
    · refine (List.perm_ext_iff_of_nodup (ArtifactStore.nodup_names _) hnodup).2 fun name => ?_
      rw [ArtifactStore.mem_names, isSome_outputs_iff hnodup hok]
    · intro u hu
      obtain ⟨m, hm, hpresents⟩ := exists_outcome hnodup hok hu
      have hmem : (u, m) ∈ (checked r.meaning units).1 := by
        rw [checked_eq]
        exact List.mem_filterMap.2 ⟨u, hu, by rw [hm]; rfl⟩
      obtain ⟨a, ha, hbytes⟩ := get?_outputs (nodup_checked hnodup) ArtifactStore.open_empty
        (fun _ _ => ArtifactStore.get?_empty _) hmem
      exact ⟨a, m, ha, hbytes, hpresents⟩

/-! ## A unit that prints a line -/

/-- The resolver of a session with a unit that prints a line. -/
def helloResolver : Resolver :=
  ((Sandbox.ofConfiguration .default .empty).pending default toolchain [.hello]).resolver

/-- A unit that prints a line is accepted, and implements the contract type of its configuration. -/
theorem accepts_hello : ∃ contract, ValidUnit (.ofUnits helloResolver [.hello]) (.ofUnit .hello) contract ∧
    contract = Configuration.default.contract := by
  have haccepts := accepts_iff helloResolver [.hello] ArtifactStore.open_empty (by decide)
  obtain ⟨decisions, trail, hrun⟩ := run_compile helloResolver [.hello] ArtifactStore.open_empty
  have hquiet : hasErrors ((compile [.hello]).run { resolver := helloResolver }).2.diagnostics = false := by
    rw [hrun]
    exact Sandbox.findings_hello
  obtain ⟨_, contract, hvalid⟩ := haccepts.1.1 hquiet .hello List.mem_cons_self
  exact ⟨contract, hvalid, haccepts.2 .default (by decide +kernel) rfl _ _ hvalid⟩

/-- A unit that prints a line is compiled to one artifact. -/
theorem allOrNothing_hello : ∃ w, (compile [.hello]).run { resolver := helloResolver } = (.done true, w) ∧
    w.resolver.artifacts.names = [PluginUnit.hello.qualifiedName] := by
  obtain ⟨ok, w, hrun, hiff, _, hsome⟩ := allOrNothing helloResolver [.hello] rfl (by decide)
  obtain ⟨decisions, trail, hrun'⟩ := run_compile helloResolver [.hello] ArtifactStore.open_empty
  have hok : ok = true := by
    obtain ⟨_, rfl⟩ := Prod.mk.inj (hrun'.symm.trans hrun)
    exact hiff.2 Sandbox.findings_hello
  subst hok
  exact ⟨w, hrun, List.perm_singleton.1 (hsome rfl).1⟩

end Builtin
end PluginSandbox
