import Mathlib.Data.Option.Basic
import PluginSandbox.Proofs.Compiler.Listed
import PluginSandbox.Proofs.Compiler.Pointing
import PluginSandbox.Proofs.Order
import PluginSandbox.Proofs.Session.Compile

/-!
# The order of registration

Registering the units of a session in another order makes no difference to what becomes of it
(`Sandbox.registration_order`).

* The listing of the units of a session has another order, but their names differ, so every name is found to mean the
  same (`Resolver.Permuted.meaning`).
* What the checker makes of a unit depends on that and on how the functions of the other units are found, which is by
  name again (`Builtin.outcome_perm`).  So another order of the units only puts the compiled forms and the reports in
  another order, unit by unit.
* A package is listed if a question for some unit makes it necessary, whichever unit comes first.
-/

namespace PluginSandbox

/-! ## What names mean -/

namespace Resolver

variable {r r' : Resolver}

/-- The units of one resolver are those of another one in another order. -/
structure Permuted (r r' : Resolver) : Prop where
  catalogue : r'.catalogue = r.catalogue
  policy : r'.policy = r.policy
  units : r.units.Perm r'.units
  distinct : (r.units.map PluginUnit.qualifiedName).Nodup

/-- The listing of the units and the contract type has another order.  Where a unit is named like the contract type,
it stands in front of that in any order. -/
theorem Permuted.contractListing (h : r.Permuted r') (kinds : List EntryKind) (name : String) :
    (r.contractListing kinds).Perm (r'.contractListing kinds) ∧
      ((r'.contractListing kinds).find? fun e => e.qualifiedName = name) =
        (r.contractListing kinds).find? fun e => e.qualifiedName = name := by
  have hunits : ((r.units.map Entry.unit).filter fun e => e.kind ∈ kinds).Perm
      ((r'.units.map Entry.unit).filter fun e => e.kind ∈ kinds) :=
    (h.units.map Entry.unit).filter _
  have hdistinct : (((r.units.map Entry.unit).filter fun e => e.kind ∈ kinds).map Entry.qualifiedName).Nodup := by
    refine List.Nodup.sublist ((List.filter_sublist).map Entry.qualifiedName) ?_
    rw [List.map_map]
    exact h.distinct
  rw [Resolver.contractListing, Resolver.contractListing, h.policy, List.filter_append, List.filter_append,
    List.find?_append, List.find?_append, find?_key_perm hunits hdistinct]
  exact ⟨hunits.append_right _, rfl⟩

theorem Permuted.decide (h : r.Permuted r') (location : Location) (package : String) (kinds : List EntryKind)
    (name : String) :
    (r'.decide location package kinds).1 = (r.decide location package kinds).1 ∧
      (r.decide location package kinds).2.Perm (r'.decide location package kinds).2 ∧
      ((r'.decide location package kinds).2.find? fun e => e.qualifiedName = name) =
        (r.decide location package kinds).2.find? fun e => e.qualifiedName = name := by
  rw [Resolver.decide, Resolver.decide, h.policy, h.catalogue]
  split
  · exact ⟨rfl, h.contractListing kinds name⟩
  · split
    · exact ⟨rfl, .refl _, rfl⟩
    · exact ⟨rfl, .refl _, rfl⟩

theorem Permuted.foundAt (h : r.Permuted r') (package name : String) :
    r'.foundAt package name = r.foundAt package name := by
  funext location
  rw [Resolver.foundAt, Resolver.foundAt, (h.decide location package _ _).2.2]

theorem Permuted.moduleLocations (h : r.Permuted r') : r'.moduleLocations = r.moduleLocations := by
  rw [Resolver.moduleLocations, h.catalogue, Resolver.moduleLocations]

/-- Every name means the same. -/
theorem Permuted.meaning (h : r.Permuted r') : r'.meaning = r.meaning := by
  funext question
  cases question with
  | onClassPath package name => exact congrFun (h.foundAt package name) .classPath
  | inModules package name => rw [Resolver.meaning, Resolver.meaning, h.moduleLocations, h.foundAt]

theorem Permuted.consulted (h : r.Permuted r') : r'.consulted = r.consulted := by
  have hamong : ∀ (package name : String) (locations : List Location),
      r'.consultedAmong package name locations = r.consultedAmong package name locations := by
    intro package name locations
    induction locations with
    | nil => rfl
    | cons location rest ih => rw [consultedAmong, consultedAmong, h.foundAt, ih]
  funext question
  cases question with
  | onClassPath package name => rfl
  | inModules package name => rw [Resolver.consulted, Resolver.consulted, h.moduleLocations, hamong]

theorem Permuted.decision (h : r.Permuted r') : r'.decision = r.decision := by
  funext key
  obtain ⟨hverdict, hentries, _⟩ := h.decide key.1 key.2 (Lookup.kindsAt key.1) ""
  rw [Resolver.decision, Resolver.decision, hverdict, hentries.length_eq]

end Resolver

/-! ## What becomes of the units -/

namespace Builtin

variable {m : Meaning} {units units' : List PluginUnit}

/-- The functions of a unit are found alike. -/
theorem lookup_signatures_perm (hperm : units.Perm units') (hnodup : (units.map PluginUnit.qualifiedName).Nodup)
    (name : String) : (signatures units).lookup name = (signatures units').lookup name := by
  have hsignatures : ∀ units : List PluginUnit, signatures units =
      units.map fun u => (u.qualifiedName, (ParsedUnit.ofSource u.source).1.signatures) := by
    intro units
    show (units.map _).map _ = _
    rw [List.map_map]
    rfl
  rw [hsignatures, hsignatures, lookup_map, lookup_map, find?_key_perm hperm hnodup]

theorem unit_perm (hperm : units.Perm units') (hnodup : (units.map PluginUnit.qualifiedName).Nodup)
    (u : PluginUnit) :
    Checker.unit u (signatures units') (ParsedUnit.ofSource u.source).1 =
      Checker.unit u (signatures units) (ParsedUnit.ofSource u.source).1 :=
  (Checker.alike_ofSource u (lookup_signatures_perm hperm hnodup)).same.symm

/-- What the checker makes of a unit does not depend on the order of the units. -/
theorem outcome_perm (hperm : units.Perm units') (hnodup : (units.map PluginUnit.qualifiedName).Nodup) :
    outcome m (signatures units') = outcome m (signatures units) := by
  funext u
  rw [outcome, unit_perm hperm hnodup, outcome]

theorem questions_perm (hperm : units.Perm units') (hnodup : (units.map PluginUnit.qualifiedName).Nodup) :
    questions m (signatures units') = questions m (signatures units) := by
  funext u
  rw [questions, unit_perm hperm hnodup, questions]

/-- The findings are put in another order. -/
theorem findings_perm (hperm : units.Perm units') (hnodup : (units.map PluginUnit.qualifiedName).Nodup) :
    (findings m units).Perm (findings m units') := by
  rw [findings, findings, checked_eq, checked_eq, outcome_perm hperm hnodup]
  exact (hperm.flatMap_right _).append (hperm.flatMap_right _)

theorem hasErrors_findings_perm (hperm : units.Perm units') (hnodup : (units.map PluginUnit.qualifiedName).Nodup) :
    hasErrors (findings m units').toArray = hasErrors (findings m units).toArray := by
  rw [hasErrors, hasErrors, List.any_toArray, List.any_toArray]
  exact (findings_perm hperm hnodup).symm.any_eq

/-- The findings in a unit keep their order. -/
theorem filter_findings_perm (hperm : units.Perm units') (hnodup : (units.map PluginUnit.qualifiedName).Nodup)
    (unit : Option String) :
    (findings m units').filter (fun d => d.unit = unit) = (findings m units).filter fun d => d.unit = unit := by
  have hnames : (units.map fun u => some u.qualifiedName).Nodup := by
    have hmap := hnodup.map (Option.some_injective String)
    rwa [List.map_map] at hmap
  have hnames' := (hperm.map fun u => some u.qualifiedName).nodup hnames
  have htexts : ∀ u : PluginUnit, ∀ d ∈ (ParsedUnit.ofSource u.source).2.map (syntaxDiagnostic u),
      d.unit = some u.qualifiedName := by
    intro u d hd
    obtain ⟨e, _, rfl⟩ := List.mem_map.1 hd
    rfl
  have houtcomes : ∀ u : PluginUnit, ∀ d ∈ (outcome m (signatures units) u).2, d.unit = some u.qualifiedName :=
    fun u d hd => (pointsInto_of_mem_outcome hd).unit
  rw [findings, findings, checked_eq, checked_eq, outcome_perm hperm hnodup, List.filter_append,
    List.filter_append, syntaxDiagnostics, syntaxDiagnostics, filter_flatMap_key htexts hnames,
    filter_flatMap_key htexts hnames', filter_flatMap_key houtcomes hnames,
    filter_flatMap_key houtcomes hnames', find?_key_perm hperm hnames]

/-- The compiled forms are put in another order. -/
theorem checked_perm (hperm : units.Perm units') (hnodup : (units.map PluginUnit.qualifiedName).Nodup) :
    (checked m units).1.Perm (checked m units').1 := by
  rw [checked_eq, checked_eq, outcome_perm hperm hnodup]
  exact hperm.filterMap _

/-- The bytes of the output of units with different names. -/
theorem bytes_outputs {modules : List (PluginUnit × Module)}
    (hnodup : (modules.map fun c => c.1.qualifiedName).Nodup) (name : String) :
    ((outputs modules .empty).get? name).map Artifact.bytes =
      (modules.find? fun c => c.1.qualifiedName = name).map fun c => c.2.encode := by
  cases hfind : modules.find? fun c => c.1.qualifiedName = name with
  | none =>
    have hname : name ∉ modules.map fun c => c.1.qualifiedName := by
      intro hmem
      obtain ⟨c, hc, rfl⟩ := List.mem_map.1 hmem
      exact List.find?_eq_none.1 hfind c hc (by simp)
    rw [get?_outputs_of_notMem _ ArtifactStore.open_empty hname, ArtifactStore.get?_empty]
    rfl
  | some c =>
    obtain ⟨hmem, rfl⟩ := (find?_key_eq_some hnodup).1 hfind
    obtain ⟨a, ha, hbytes⟩ := get?_outputs hnodup ArtifactStore.open_empty
      (fun _ _ => ArtifactStore.get?_empty _) (u := c.1) (m := c.2) hmem
    rw [ha]
    exact congrArg some hbytes

end Builtin

/-! ## Sessions -/

/-- Two compiled sessions have the same state and artifacts of the same names and bytes, report the same of every
unit, in the same order, and have made the same decisions. -/
structure CompiledSession.Agrees (s s' : CompiledSession) : Prop where
  state : s'.state = s.state
  names : s'.artifacts.names = s.artifacts.names
  bytes : ∀ name, (s'.artifacts.get? name).map Artifact.bytes = (s.artifacts.get? name).map Artifact.bytes
  diagnostics : ∀ unit,
    s'.diagnostics.filter (fun d => d.unit = unit) = s.diagnostics.filter fun d => d.unit = unit
  decisions : s.decisions.toList.Perm s'.decisions.toList

namespace Sandbox

variable {b : Sandbox} {units units' : List PluginUnit}

theorem permuted_pending (correlation correlation' : Correlation) (hperm : units.Perm units')
    (hnodup : (units.map PluginUnit.qualifiedName).Nodup) :
    (b.pending correlation Builtin.toolchain units).resolver.Permuted
      (b.pending correlation' Builtin.toolchain units').resolver :=
  ⟨rfl, rfl, hperm, hnodup⟩

/-- What is written has the same bytes under every name. -/
theorem bytes_written_perm (hperm : units.Perm units') (hnodup : (units.map PluginUnit.qualifiedName).Nodup)
    (name : String) :
    ((b.written units').get? name).map Artifact.bytes = ((b.written units).get? name).map Artifact.bytes := by
  have hmeaning : b.meaning units' = b.meaning units := (permuted_pending default default hperm hnodup).meaning
  rw [written, written, hmeaning, Builtin.hasErrors_findings_perm hperm hnodup]
  split
  · rfl
  · have hperm' := Builtin.checked_perm (m := b.meaning units) hperm hnodup
    rw [Builtin.bytes_outputs (Builtin.nodup_checked hnodup),
      Builtin.bytes_outputs (Builtin.nodup_checked ((hperm.map _).nodup hnodup)),
      find?_key_perm hperm' (Builtin.nodup_checked hnodup)]

theorem decisions_perm (correlation correlation' : Correlation) (hperm : units.Perm units')
    (hnodup : (units.map PluginUnit.qualifiedName).Nodup) :
    (b.pending correlation Builtin.toolchain units).compile.decisions.toList.Perm
      (b.pending correlation' Builtin.toolchain units').compile.decisions.toList := by
  have hpermuted := permuted_pending (b := b) correlation correlation' hperm hnodup
  obtain ⟨keys, hkeys, hmem, hdecisions⟩ := Builtin.decisions_compile units
    { resolver := (b.pending correlation Builtin.toolchain units).resolver }
  obtain ⟨keys', hkeys', hmem', hdecisions'⟩ := Builtin.decisions_compile units'
    { resolver := (b.pending correlation' Builtin.toolchain units').resolver }
  have hsame : keys.Perm keys' := by
    refine (List.perm_ext_iff_of_nodup hkeys hkeys').2 fun key => ?_
    rw [hmem, hmem', hpermuted.meaning, hpermuted.consulted, Builtin.questions_perm hperm hnodup]
    exact ((hperm.flatMap_right _).flatMap_right _).mem_iff
  show ((Builtin.compile units).run _).2.resolver.decisions.toList.Perm
    ((Builtin.compile units').run _).2.resolver.decisions.toList
  rw [hdecisions, hdecisions', Array.toList_append, Array.toList_append, hpermuted.decision]
  -- Neither session has decided anything before.
  exact (hsame.map _).append_left []

/-- Units with different names can be registered in a session that is opened for them. -/
theorem register_units (ht : b.toolchain = some Builtin.toolchain) (correlation : Correlation)
    (hnodup : (units.map PluginUnit.qualifiedName).Nodup) :
    (b.start correlation >>= fun session => units.foldlM register session) =
      .ok (b.pending correlation Builtin.toolchain units) := by
  have hstart : b.start correlation = .ok (b.pending correlation Builtin.toolchain []) := by
    rw [start, ht]
    rfl
  rw [hstart]
  show units.foldlM register (b.pending correlation Builtin.toolchain []) = _
  rw [registerAll, List.map_nil, (repeated?_eq_none List.nodup_nil).2 hnodup, List.nil_append]

/-- **Registration order does not matter.** Two sessions of one configuration and platform in which the same units
are registered, in any two orders, agree after the built-in toolchain has compiled them. -/
theorem registration_order (ht : b.toolchain = some Builtin.toolchain) (correlation correlation' : Correlation)
    (hperm : units.Perm units') (hnodup : (units.map PluginUnit.qualifiedName).Nodup) :
    ∃ s s' : PendingSession, (b.start correlation >>= fun session => units.foldlM register session) = .ok s ∧
      (b.start correlation' >>= fun session => units'.foldlM register session) = .ok s' ∧
      s.compile.Agrees s'.compile := by
  refine ⟨_, _, register_units ht correlation hnodup,
    register_units ht correlation' ((hperm.map _).nodup hnodup), ?_⟩
  have hs := compiledBy_builtin b correlation units
  have hs' := compiledBy_builtin b correlation' units'
  have hmeaning : b.meaning units' = b.meaning units := (permuted_pending default default hperm hnodup).meaning
  have hbytes := bytes_written_perm (b := b) hperm hnodup
  constructor
  · rw [hs.state, hs'.state, hmeaning, Builtin.hasErrors_findings_perm hperm hnodup]
  · rw [hs.artifacts, hs'.artifacts]
    refine ArtifactStore.names_congr fun name => ?_
    have hsome := congrArg Option.isSome (hbytes name)
    rw [Option.isSome_map, Option.isSome_map] at hsome
    rw [ArtifactStore.get?_sealAll, ArtifactStore.get?_sealAll, Option.isSome_map, Option.isSome_map, hsome]
  · intro name
    rw [hs.artifacts, hs'.artifacts, ArtifactStore.get?_sealAll, ArtifactStore.get?_sealAll, Option.map_map,
      Option.map_map]
    exact hbytes name
  · intro unit
    rw [hs.diagnostics, hs'.diagnostics, hmeaning, List.filter_toArray, List.filter_toArray,
      Builtin.filter_findings_perm hperm hnodup]
  · exact decisions_perm correlation correlation' hperm hnodup

/-- A unit that prints a line and one without a plugin, in both orders. -/
theorem registration_order_hello :
    ∃ s s' : PendingSession, ((ofConfiguration .default .empty).start default >>= fun session =>
        [PluginUnit.hello, default].foldlM register session) = .ok s ∧
      ((ofConfiguration .default .empty).start default >>= fun session =>
        [default, PluginUnit.hello].foldlM register session) = .ok s' ∧
      s.compile.Agrees s'.compile :=
  registration_order rfl default default (.swap _ _ _) (by decide)

end Sandbox
end PluginSandbox
