import PluginSandbox.Proofs.Compiler.Compiled
import PluginSandbox.Proofs.Compiler.Found
import PluginSandbox.Proofs.Compiler.Generated
import PluginSandbox.Proofs.Loader.Memory
import PluginSandbox.Proofs.Session.Compile

/-!
# The modules of a session

In a session that succeeded, every unit has passed the checks, and what was written for it is its compiled
form.  So the loader of the session gives the compiled form of every unit, and lets it be linked to the very
functions of the platform that the names in it mean (`LoadSource.Implements`).

## Why loading succeeds

* A compiled form is read back from its bytes, since no count in it exceeds the number of bytes that a text
  can have.
* It passes the structural checks, since every operation refers to what its function and its module have.
* It can be linked, since a name means a function of the platform only where the policy makes the package
  visible, which is what the loader asks for.
-/

namespace PluginSandbox

/-- A source gives the compiled form of every unit of a program, and lets it be linked to every function of
the platform that a name in the program means. -/
structure LoadSource.Implements (s : LoadSource) (p : Program) : Prop where
  /-- Every unit has a module, which is its compiled form. -/
  gives : ∀ owner ∈ p.members, ∃ m contract, s.materialize owner.unit.qualifiedName = .ok m ∧
    ModuleCode p owner contract m.module
  /-- Nothing else has a module. -/
  only : ∀ name m, s.materialize name = .ok m → ∃ owner ∈ p.members, owner.unit.qualifiedName = name
  /-- Every unit has an entry operation, which takes no arguments. -/
  entry : ∀ owner ∈ p.members, ∃ decl,
    owner.parsed.function? ContractType.entryOperation = some decl ∧ decl.params = []
  /-- Every unit is as small as a text has to be. -/
  small : ∀ owner ∈ p.members, FunctionsWithin owner.parsed.functions PluginUnit.mostBytes
  /-- Whatever function of the platform a name means may be linked. -/
  native : ∀ (owner : Member) (name : String) (location : Location) (symbol : LibrarySymbol),
    isIdentifier name = true →
    p.meaning.callee owner.unit owner.parsed.imports name = some (location, .library symbol) →
    ∃ f, p.catalogue.function? location symbol = some f ∧
      s.linkable? location symbol.qualifiedName = some f

/-- A unit that a name means is one of the program. -/
theorem Program.mem_of_member? {p : Program} {name : String} {owner : Member}
    (h : p.member? name = some owner) : owner ∈ p.members ∧ owner.unit.qualifiedName = name :=
  ⟨List.mem_of_find?_eq_some h, by simpa using List.find?_some h⟩

/-- A compiled form is loaded when it stands in the output of its unit, its contract is that of the policy, and
whatever it calls may be linked. -/
theorem ModuleCode.materialize {p : Program} {owner : Member} {contract : String} {m : Module}
    (h : ModuleCode p owner contract m) {s : LoadSource} {a : Artifact}
    (ha : s.artifacts.get? owner.unit.qualifiedName = some a) (hbytes : a.bytes = m.encode)
    (hcontract : contract = s.policy.contract.qualifiedName)
    (hsmall : FunctionsWithin owner.parsed.functions PluginUnit.mostBytes)
    (hnative : ∀ callee location symbol argc,
      CallsTo p owner callee argc (.callNative location symbol argc) →
      (s.linkable? location symbol).isSome = true) :
    ∃ loaded, s.materialize owner.unit.qualifiedName = .ok loaded ∧ loaded.module = m := by
  have hdecode : Module.decode? a.bytes = some m := by
    rw [hbytes]
    exact Module.decode?_encode (h.fits hsmall)
  have hflaw : s.flaw? owner.unit.qualifiedName m = none := by
    rw [LoadSource.flaw?, if_neg (not_not.2 h.formatVersion), if_neg (not_not.2 h.name),
      if_neg (not_not.2 (h.contract.trans hcontract)), h.firstFlaw?_eq_none]
    rfl
  have hlinkable : ∀ r ∈ m.nativeImports, (s.linkable? r.1 r.2).isSome = true := by
    rintro ⟨location, symbol⟩ hr
    obtain ⟨f, hf, argc, hop⟩ := Module.mem_nativeImports.1 hr
    obtain ⟨most, hplaced⟩ := h.placed (Array.mem_toList_iff.2 hf)
    obtain ⟨_, callee, hcalls⟩ := hplaced _ (Array.mem_toList_iff.2 hop)
    exact hnative callee location symbol argc hcalls
  obtain ⟨links, hlinks⟩ := LoadSource.exists_link_ok hlinkable
  exact ⟨_, LoadSource.materialize_of_decode? ha hdecode hflaw hlinks, rfl⟩

/-- What names mean if the modules of the platform are some locations. -/
def Resolver.meaningIn (r : Resolver) (modules : List Location) : Meaning
  | .onClassPath package name => r.foundAt package name .classPath
  | .inModules package name => modules.findSome? (r.foundAt package name)

theorem Resolver.meaning_eq_meaningIn {r : Resolver} {modules : List Location}
    (h : r.moduleLocations = modules) : r.meaning = r.meaningIn modules := by
  subst h
  funext question
  cases question <;> rfl

/-- Units with different names are found by their names. -/
theorem Program.member?_of_units {p : Program} {units : List PluginUnit} (hmembers : p.members = units.map Member.ofUnit)
    (hnodup : (units.map PluginUnit.qualifiedName).Nodup) {u : PluginUnit} (hu : u ∈ units) :
    p.member? u.qualifiedName = some (.ofUnit u) := by
  have hnames : ((units.map Member.ofUnit).map fun m => m.unit.qualifiedName).Nodup := by
    rw [List.map_map]
    exact hnodup
  rw [member?, hmembers]
  exact (find?_key_eq_some hnames).2 ⟨List.mem_map_of_mem hu, rfl⟩

namespace Sandbox

variable {b : Sandbox} {correlation : Correlation} {units : List PluginUnit} {s : CompiledSession}

/-- The program that some units are in the sessions of a sandbox. -/
def program (b : Sandbox) (units : List PluginUnit) : Program :=
  .ofResolver (b.pending default Builtin.toolchain units).resolver

theorem mem_program {owner : Member} :
    owner ∈ (b.program units).members ↔ ∃ u ∈ units, owner = .ofUnit u := by
  show owner ∈ units.map Member.ofUnit ↔ _
  simp [eq_comm]

/-- The functions of a unit are plain and small. -/
theorem functionsWithin_ofUnit (u : PluginUnit) :
    FunctionsWithin (Member.ofUnit u).parsed.functions PluginUnit.mostBytes := by
  obtain ⟨hsize, hplain⟩ := ParsedUnit.functionsWithin u.source
  exact ⟨Nat.le_trans hsize u.source_le, hplain⟩

/-- In a session that succeeded every unit has passed, and what it was compiled to is its compiled form. -/
theorem CompiledBy.passed (h : b.CompiledBy correlation units s) (hok : s.Succeeded)
    (hnodup : (units.map PluginUnit.qualifiedName).Nodup) :
    List.Forall₂ (fun owner c => c.1 = owner.unit ∧
      (∃ contract, (b.meaning units).MeansContract contract ∧
        ModuleCode (b.program units) owner contract.qualifiedName c.2) ∧
      ∃ decl, owner.parsed.function? ContractType.entryOperation = some decl ∧ decl.params = [])
      (b.program units).members (Builtin.checked (b.meaning units) units).1 := by
  have hquiet := h.succeeded_iff.1 hok
  rw [hasErrors, List.any_toArray, List.any_eq_false] at hquiet
  have hparsed : Builtin.parsed units =
      (b.program units).members.map fun owner => (owner.unit, owner.parsed) := by
    show _ = (units.map Member.ofUnit).map _
    rw [List.map_map]
    rfl
  have hsignatures : Builtin.signatures units = (b.program units).signatures := by
    rw [Builtin.signatures, hparsed, List.map_map]
    rfl
  have hpasses : Checker.Passes (b.program units).meaning
      (Checker.units (b.program units).signatures
        ((b.program units).members.map fun owner => (owner.unit, owner.parsed))) []
      (Builtin.checked (b.meaning units) units).1
      (((Checker.units (Builtin.signatures units) (Builtin.parsed units)).run []).under
        (b.meaning units)).1.2 := by
    rw [← hparsed, ← hsignatures]
    refine ⟨rfl, fun d hd => ?_⟩
    have hfine := hquiet d (List.mem_append_right _ hd)
    simpa using hfine
  refine Checker.passes_units _ ?_ ?_ hpasses
  · intro owner howner
    obtain ⟨u, hu, rfl⟩ := mem_program.1 howner
    exact Program.member?_of_units rfl hnodup hu
  · intro owner howner
    obtain ⟨u, hu, rfl⟩ := mem_program.1 howner
    exact (functionsWithin_ofUnit u).2

/-- The compiled forms of the units of a session that succeeded implement the contract type of its configuration, if
that is valid. -/
theorem CompiledBy.compiled (h : b.CompiledBy correlation units s) (hok : s.Succeeded)
    (hvalid : b.configuration.IsValid) (hnodup : (units.map PluginUnit.qualifiedName).Nodup) :
    List.Forall₂ (fun owner c => c.1 = owner.unit ∧
      ModuleCode (b.program units) owner b.configuration.contract.qualifiedName c.2 ∧
      ∃ decl, owner.parsed.function? ContractType.entryOperation = some decl ∧ decl.params = [])
      (b.program units).members (Builtin.checked (b.meaning units) units).1 := by
  refine (h.passed hok hnodup).imp ?_
  rintro owner c ⟨hunit, ⟨contract, ⟨question, location, hcontract⟩, hcode⟩, hentry⟩
  rw [Resolver.contract_of_meaning hvalid rfl hcontract] at hcode
  exact ⟨hunit, hcode, hentry⟩

/-- The loader of a session that succeeded. -/
theorem CompiledBy.source_loader (h : b.CompiledBy correlation units s) :
    s.loader.source.artifacts = (b.written units).sealAll ∧
      s.loader.source.policy = .ofConfiguration b.configuration ∧
      s.loader.source.catalogue = b.catalogue :=
  ⟨h.artifacts, h.policy, h.catalogue⟩

/-- The units of a session that succeeded have compiled forms, in order. -/
theorem CompiledBy.names (h : b.CompiledBy correlation units s) (hok : s.Succeeded)
    (hnodup : (units.map PluginUnit.qualifiedName).Nodup) :
    ((Builtin.checked (b.meaning units) units).1.map fun c => c.1.qualifiedName) =
      units.map PluginUnit.qualifiedName := by
  have hsame : (b.program units).members.map Member.unit =
      (Builtin.checked (b.meaning units) units).1.map Prod.fst := by
    rw [← List.forall₂_eq_eq_eq, List.forall₂_map_left_iff, List.forall₂_map_right_iff]
    exact (h.passed hok hnodup).imp fun _ _ hc => hc.1.symm
  have hunits : (b.program units).members.map Member.unit = units := by
    show (units.map Member.ofUnit).map Member.unit = units
    rw [List.map_map]
    exact List.map_id units
  have hnames := congrArg (List.map PluginUnit.qualifiedName) (hunits.symm.trans hsame)
  rw [List.map_map] at hnames
  exact hnames.symm

/-- An artifact of a session that succeeded holds what was written under its name. -/
theorem CompiledBy.get?_artifacts (h : b.CompiledBy correlation units s) (hok : s.Succeeded)
    (name : String) :
    s.loader.source.artifacts.get? name =
      ((Builtin.outputs (Builtin.checked (b.meaning units) units).1 .empty).get? name).map
        Artifact.sealed := by
  rw [h.source_loader.1, ArtifactStore.get?_sealAll, written, h.succeeded_iff.1 hok,
    if_neg Bool.false_ne_true]

/-- The output of a session that succeeded holds the compiled form of every unit. -/
theorem CompiledBy.exists_artifact (h : b.CompiledBy correlation units s) (hok : s.Succeeded)
    (hnodup : (units.map PluginUnit.qualifiedName).Nodup)
    {u : PluginUnit} {m : Module} (hm : (u, m) ∈ (Builtin.checked (b.meaning units) units).1) :
    ∃ a, s.loader.source.artifacts.get? u.qualifiedName = some a ∧ a.bytes = m.encode := by
  obtain ⟨a, ha, hbytes⟩ := Builtin.get?_outputs ((h.names hok hnodup).symm ▸ hnodup)
    ArtifactStore.open_empty (fun _ _ => ArtifactStore.get?_empty _) hm
  refine ⟨a.sealed, ?_, hbytes⟩
  rw [h.get?_artifacts hok, ha]
  rfl

/-- The output of a session that succeeded holds nothing else. -/
theorem CompiledBy.mem_of_artifact (h : b.CompiledBy correlation units s) (hok : s.Succeeded)
    (hnodup : (units.map PluginUnit.qualifiedName).Nodup)
    {name : String} {a : Artifact} (ha : s.loader.source.artifacts.get? name = some a) :
    ∃ u ∈ units, u.qualifiedName = name := by
  rw [h.get?_artifacts hok] at ha
  by_contra habsent
  have hname : name ∉ (Builtin.checked (b.meaning units) units).1.map fun c => c.1.qualifiedName := by
    rw [h.names hok hnodup]
    intro hmem
    exact habsent (List.mem_map.1 hmem)
  rw [Builtin.get?_outputs_of_notMem _ ArtifactStore.open_empty hname, ArtifactStore.get?_empty] at ha
  exact absurd ha (by simp)

/-- The loader of a session that succeeded gives the compiled forms of the units. -/
theorem CompiledBy.implements (h : b.CompiledBy correlation units s) (hok : s.Succeeded)
    (hvalid : b.configuration.IsValid) (hnodup : (units.map PluginUnit.qualifiedName).Nodup) :
    s.loader.source.Implements (b.program units) := by
  obtain ⟨hartifacts, hpolicy, hcatalogue⟩ := h.source_loader
  have hcompiled := h.compiled hok hvalid hnodup
  have hsmall : ∀ owner ∈ (b.program units).members,
      FunctionsWithin owner.parsed.functions PluginUnit.mostBytes := by
    intro owner howner
    obtain ⟨u, _, rfl⟩ := mem_program.1 howner
    exact functionsWithin_ofUnit u
  have hnative : ∀ (owner : Member) (name : String) (location : Location) (symbol : LibrarySymbol),
      isIdentifier name = true →
      (b.program units).meaning.callee owner.unit owner.parsed.imports name =
        some (location, .library symbol) →
      ∃ f, (b.program units).catalogue.function? location symbol = some f ∧
        s.loader.source.linkable? location symbol.qualifiedName = some f := by
    intro owner name location symbol hname hfound
    obtain ⟨f, hf, _, _, hlinkable⟩ := Resolver.linkable?_of_meaning
      (r := (b.pending default Builtin.toolchain units).resolver) hvalid rfl hname hfound
      (s := s.loader.source) hcatalogue hpolicy
    exact ⟨f, hf, hlinkable⟩
  refine ⟨fun owner howner => ?_, fun name m hm => ?_, fun owner howner => ?_, hsmall, hnative⟩
  · obtain ⟨⟨u, m⟩, hmem, rfl, hcode, _⟩ := exists_of_mem_left hcompiled howner
    obtain ⟨a, ha, hbytes⟩ := h.exists_artifact hok hnodup hmem
    obtain ⟨loaded, hloaded, rfl⟩ := hcode.materialize (s := s.loader.source) (a := a) ha hbytes
      (by rw [hpolicy]; rfl) (hsmall owner howner) (fun callee location symbol argc hcalls => by
        cases hcalls with
        | native hname hfound =>
          obtain ⟨f, _, hf⟩ := hnative owner _ _ _ hname hfound
          rw [hf]
          rfl)
    exact ⟨loaded, _, hloaded, hcode⟩
  · obtain ⟨a, ha, _⟩ := LoadSource.materialize_eq_ok.1 hm
    obtain ⟨u, hu, rfl⟩ := h.mem_of_artifact hok hnodup ha
    exact ⟨.ofUnit u, mem_program.2 ⟨u, hu, rfl⟩, rfl⟩
  · obtain ⟨_, _, _, _, hentry⟩ := exists_of_mem_left hcompiled howner
    exact hentry

/-! ## A unit that prints a line -/

/-- Nothing is wrong with a unit that prints a line. -/
theorem findings_hello : hasErrors
    (Builtin.findings ((ofConfiguration .default .empty).meaning [.hello]) [.hello]).toArray = false := by
  have hmodules : ((ofConfiguration .default .empty).pending default Builtin.toolchain
      [.hello]).resolver.moduleLocations = [.systemModule baseModule, .systemModule loggingModule] :=
    Catalogue.moduleLocations_standard Configuration.default.contract
  rw [meaning, Resolver.meaning_eq_meaningIn hmodules]
  decide +kernel

/-- A unit that prints a line is compiled. -/
theorem compile_hello : ∃ s, (ofConfiguration .default .empty).compile default [.hello] =
    .ok (PluginUnit.hello.qualifiedName, s) ∧ s.Succeeded := by
  have hcompiled := compiledBy_builtin (ofConfiguration .default .empty) default [.hello]
  exact ⟨_, rfl, hcompiled.succeeded_iff.2 findings_hello⟩

end Sandbox
end PluginSandbox
