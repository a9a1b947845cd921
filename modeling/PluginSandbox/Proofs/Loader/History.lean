import PluginSandbox.Machine.Plugin
import PluginSandbox.Proofs.Loader.Alone
import PluginSandbox.Proofs.Loader.Attempts
import PluginSandbox.Proofs.Machine.Ending
import PluginSandbox.Proofs.Visibility

/-!
# Everything that one loader is asked for

A loader is asked for names by whoever holds it, and by the machines that run with it, whose operations may
call functions of other units.  `Loader.History` follows one loader through all of that, from the moment it
has loaded nothing, with each name it was asked for and what it answered.

What a loader remembers never shows (`Loader.History.as_fresh`): each answer is the one that a loader gives that
has loaded nothing, a module that was loaded stands for exactly the bytes of its artifact and is linked to
exactly what its operations refer to, the number of modules is the number of different names that were loaded,
and an attempt that fails leaves nothing behind that another attempt could notice.
-/

namespace PluginSandbox

/-- A name that a loader was asked for, and what it answered. -/
abbrev LoadCall :=
  String × Except SandboxError LoadedModule

/-- A loaded module is what an artifact holds: it was decoded from the bytes of the artifact, bears their digest
and their number, and has one link for each platform function that its operations refer to. -/
structure LoadedModule.StandsFor (m : LoadedModule) (a : Artifact) : Prop where
  decoded : Module.decode? a.bytes = some m.module
  digest : m.digest = sha256Hex a.bytes
  size : m.size = a.bytes.size
  /-- There is a link exactly for what an operation refers to. -/
  linked : ∀ location symbol, (location, symbol) ∈ m.links.map (fun link => (link.location, link.symbol)) ↔
    ∃ f ∈ m.module.functions, ∃ argc, Op.callNative location symbol argc ∈ f.code
  /-- No two links are for the same. -/
  nodup : (m.links.map fun link => (link.location, link.symbol)).Nodup

/-! ## The links of a module -/

namespace Module

theorem referenceLe_iff {a b : Location × String} :
    referenceLe a b = true ↔ (a.1 = b.1 ∧ a.2 ≤ b.2) ∨ (a.1 ≠ b.1 ∧ a.1.le b.1 = true) := by
  rw [referenceLe]
  split
  · next heq =>
    rw [Bool.not_eq_true', decide_eq_false_iff_not, String.not_lt]
    simp only [heq, ne_eq, not_true, true_and, false_and, or_false]
  · next hne => simp only [hne, ne_eq, not_false_iff, true_and, false_and, false_or]

/-- Every reference is listed once. -/
theorem nodup_nativeImports (m : Module) : m.nativeImports.Nodup := by
  refine nodup_inOrder ?_ ?_ ?_ _
  · intro a b c hab hbc
    rw [referenceLe_iff] at *
    rcases hab with ⟨hab, hab'⟩ | ⟨hab, hab'⟩ <;> rcases hbc with ⟨hbc, hbc'⟩ | ⟨hbc, hbc'⟩
    · exact .inl ⟨hab.trans hbc, Std.le_trans hab' hbc'⟩
    · exact .inr ⟨hab ▸ hbc, hab ▸ hbc'⟩
    · exact .inr ⟨hbc ▸ hab, hbc ▸ hab'⟩
    · refine .inr ⟨fun heq => hab ?_, Location.le_trans _ _ _ hab' hbc'⟩
      exact Location.le_antisymm _ _ hab' (heq ▸ hbc')
  · intro a b
    rw [Bool.or_eq_true, referenceLe_iff, referenceLe_iff]
    by_cases heq : a.1 = b.1
    · rcases Std.le_total (a := a.2) (b := b.2) with h | h
      · exact .inl (.inl ⟨heq, h⟩)
      · exact .inr (.inl ⟨heq.symm, h⟩)
    · rcases Bool.or_eq_true _ _ ▸ Location.le_total a.1 b.1 with h | h
      · exact .inl (.inr ⟨heq, h⟩)
      · exact .inr (.inr ⟨Ne.symm heq, h⟩)
  · intro a b hab hba
    rw [referenceLe_iff] at hab hba
    rcases hab with ⟨hab, hab'⟩ | ⟨hab, hab'⟩ <;> rcases hba with ⟨hba, hba'⟩ | ⟨hba, hba'⟩
    · exact Prod.ext hab (Std.le_antisymm hab' hba')
    · exact absurd hab.symm hba
    · exact absurd hba.symm hab
    · exact absurd (Location.le_antisymm _ _ hab' hba') hab

end Module

namespace LoadSource

variable {s : LoadSource}

/-- The links of some references are for these references, in their order. -/
theorem references_of_link {refs : List (Location × String)} {links : List Link}
    (h : s.link refs = .ok links) : links.map (fun link => (link.location, link.symbol)) = refs := by
  induction refs generalizing links with
  | nil =>
    obtain rfl : links = [] := by simpa [link, eq_comm] using h
    rfl
  | cons r rest ih =>
    obtain ⟨location, symbol⟩ := r
    obtain ⟨f, more, _, hmore, rfl⟩ := link_cons_ok.1 h
    rw [List.map_cons, ih hmore]

/-- A module that can be loaded stands for the artifact of its name. -/
theorem standsFor_of_materialize {name : String} {m : LoadedModule}
    (h : s.materialize name = .ok m) : ∃ a, s.artifacts.get? name = some a ∧ m.StandsFor a := by
  obtain ⟨a, ha, hdecode, _, hlink, hdigest, hsize⟩ := materialize_eq_ok.1 h
  have hreferences := references_of_link hlink
  refine ⟨a, ha, hdecode, hdigest, hsize, fun location symbol => ?_, ?_⟩
  · rw [hreferences, Module.mem_nativeImports]
  · rw [hreferences]
    exact m.module.nodup_nativeImports

end LoadSource

namespace Loader

/-- What a loader of a source is asked for from its beginning on, and how it stands then: it is asked for a name,
or a machine that has it makes a step. -/
inductive History (s : LoadSource) : List LoadCall → Loader → Prop
  | fresh : History s [] { source := s }
  | load {calls : List LoadCall} {l : Loader} (name : String) : History s calls l →
      History s (calls ++ [(name, (l.load name).1)]) (l.load name).2
  | step {calls : List LoadCall} {m : Machine} (setting : MachineSetting) : History s calls m.loader →
      History s (calls ++ m.loadCall?.toList.map fun name => (name, (m.loader.load name).1))
        (m.step setting).effects.1

variable {s : LoadSource} {calls : List LoadCall} {l : Loader}

/-! ## Runs of machines and plugins -/

/-- A run of a machine asks its loader for what the machines of the run call. -/
theorem History.run (setting : MachineSetting) (steps : Nat) {m : Machine} (h : History s calls m.loader) :
    ∃ more, History s (calls ++ more) (m.run setting steps).effects.1 ∧
      more.map Prod.fst = m.loads setting steps := by
  induction steps generalizing calls m with
  | zero =>
    refine ⟨[], ?_, rfl⟩
    rw [List.append_nil]
    exact h
  | succ steps ih =>
    have hstep := h.step setting
    have hnames : (m.loadCall?.toList.map fun name => (name, (m.loader.load name).1)).map Prod.fst =
        m.loadCall?.toList := by
      rw [List.map_map]
      exact List.map_id _
    rw [Machine.run_succ, Machine.loads]
    cases hs : m.step setting with
    | next m' =>
      rw [hs] at hstep
      obtain ⟨more, hmore, hloads⟩ := ih hstep
      rw [List.append_assoc] at hmore
      refine ⟨_, hmore, ?_⟩
      rw [List.map_append, hnames, hloads]
    | done e =>
      rw [hs] at hstep
      refine ⟨_, hstep, ?_⟩
      rw [hnames]
      exact (List.append_nil _).symm

/-- An execution of a plugin goes on with the history of the loader that it is given. -/
theorem History.execute (h : History s calls l) (plugin : Plugin) (host : Host) (limit : Limit) :
    ∃ more, History s (calls ++ more) (plugin.execute host l limit).loader := by
  by_cases hover : Frame.Overflows plugin.entry
  · rw [Plugin.execute_of_overflows hover]
    refine ⟨[], ?_⟩
    rw [List.append_nil]
    exact h
  · obtain ⟨n, hn⟩ := Machine.exists_run_of_runWithin (plugin.setting host) limit (plugin.machine l)
    obtain ⟨more, hmore, _⟩ := History.run (plugin.setting host) n (m := plugin.machine l) h
    refine ⟨more, ?_⟩
    rw [Plugin.execute_of_fits hover, hn, Plugin.loader_behind]
    exact hmore

/-! ## What a loader remembers of its history -/

/-- The names of the modules that a loader remembers. -/
def names (l : Loader) : List String :=
  l.loaded.map Prod.fst

theorem isSome_lookup_iff {name : String} : (l.loaded.lookup name).isSome = true ↔ name ∈ l.names := by
  rw [List.lookup_isSome_iff, names, List.mem_map]
  refine exists_congr fun p => and_congr_right fun _ => ?_
  rw [beq_iff_eq, eq_comm]

/-- A load answers from memory, or remembers and counts a new module, or fails and changes neither. -/
theorem load_cases (l : Loader) (name : String) :
    (name ∈ l.names ∧ ∃ m, (l.load name).1 = .ok m ∧ (l.load name).2 = l) ∨
      (name ∉ l.names ∧ ∃ m, (l.load name).1 = .ok m ∧ (l.load name).2.loaded = (name, m) :: l.loaded ∧
        (l.load name).2.count = l.count + 1) ∨
      (name ∉ l.names ∧ ∃ e, (l.load name).1 = .error e ∧ (l.load name).2.loaded = l.loaded ∧
        (l.load name).2.count = l.count) := by
  cases hlookup : l.loaded.lookup name with
  | some m =>
    refine .inl ⟨isSome_lookup_iff.1 (Option.isSome_of_eq_some hlookup), m, ?_⟩
    simp [load, hlookup]
  | none =>
    have hname : name ∉ l.names := fun h => by simp [hlookup, ← isSome_lookup_iff] at h
    cases hm : l.source.materialize name with
    | ok m => exact .inr (.inl ⟨hname, m, by simp [load, hlookup, hm]⟩)
    | error e => exact .inr (.inr ⟨hname, e, by simp [load, hlookup, hm]⟩)

/-- What is remembered after a load was remembered before, or is what was loaded. -/
theorem mem_names_load {name other : String} :
    other ∈ (l.load name).2.names ↔ other ∈ l.names ∨ other = name ∧ ∃ m, (l.load name).1 = .ok m := by
  rcases l.load_cases name with ⟨hname, m, hm, hsame⟩ | ⟨_, m, hm, hloaded, _⟩ | ⟨_, e, he, hloaded, _⟩
  · rw [hsame, or_iff_left_of_imp]
    rintro ⟨rfl, _⟩
    exact hname
  · rw [names, hloaded, List.map_cons, List.mem_cons, hm, or_comm]
    simp [names]
  · rw [names, hloaded, he]
    simp [names]

theorem nodup_names_load (h : l.names.Nodup) (name : String) : (l.load name).2.names.Nodup := by
  rcases l.load_cases name with ⟨_, _, _, hsame⟩ | ⟨hname, _, _, hloaded, _⟩ | ⟨_, _, _, hloaded, _⟩
  · rw [hsame]
    exact h
  · rw [names, hloaded]
    exact List.nodup_cons.2 ⟨hname, h⟩
  · rw [names, hloaded]
    exact h

/-- The counter of a loader is the number of modules that it remembers. -/
theorem count_load (h : l.count = l.names.length) (name : String) :
    (l.load name).2.count = (l.load name).2.names.length := by
  rcases l.load_cases name with ⟨_, _, _, hsame⟩ | ⟨_, _, _, hloaded, hcount⟩ | ⟨_, _, _, hloaded, hcount⟩
  · rw [hsame, h]
  · rw [hcount, h, names, names, hloaded, List.map_cons, List.length_cons]
  · rw [hcount, h, names, names, hloaded]

/-- How a loader stands that has answered some calls. -/
structure Answered (s : LoadSource) (calls : List LoadCall) (l : Loader) : Prop where
  source : l.source = s
  faithful : l.Faithful
  /-- Each answer is what the source gives. -/
  answers : ∀ call ∈ calls, call.2 = s.materialize call.1
  nodup : l.names.Nodup
  counted : l.count = l.names.length
  /-- The names that it remembers are those that were loaded. -/
  remembers : ∀ name, name ∈ l.names ↔ ∃ m, (name, .ok m) ∈ calls

theorem answered_fresh (s : LoadSource) : Answered s [] { source := s } where
  source := rfl
  faithful := faithful_fresh s
  answers := by simp
  nodup := List.nodup_nil
  counted := rfl
  remembers := by simp [names]

/-- A loader that has answered some calls gives what its source gives. -/
theorem Answered.load_fst (h : Answered s calls l) (name : String) : (l.load name).1 = s.materialize name := by
  rw [Loader.load_fst h.faithful, h.source]

/-- One more answer. -/
theorem Answered.load (h : Answered s calls l) (name : String) :
    Answered s (calls ++ [(name, (l.load name).1)]) (l.load name).2 where
  source := (load_source l name).trans h.source
  faithful := h.faithful.load name
  answers := by
    intro call hcall
    rcases List.mem_append.1 hcall with hcall | hcall
    · exact h.answers call hcall
    · obtain rfl := List.mem_singleton.1 hcall
      exact h.load_fst name
  nodup := nodup_names_load h.nodup name
  counted := count_load h.counted name
  remembers := by
    intro other
    rw [mem_names_load, h.remembers, ← exists_and_left, ← exists_or]
    refine exists_congr fun m => ?_
    rw [List.mem_append, List.mem_singleton, Prod.mk.injEq, eq_comm (a := Except.ok m)]

/-- How a loader stands at the end of its history. -/
theorem History.answered (h : History s calls l) : Answered s calls l := by
  induction h with
  | fresh => exact answered_fresh s
  | load name _ ih => exact ih.load name
  | @step calls m setting _ ih =>
    rw [Machine.step_loader]
    cases m.loadCall? with
    | none => simpa [afterLoading] using ih
    | some name => exact ih.load name

/-- **What a loader was asked for before never shows.** Whatever the artifacts hold, and whatever the policy and
the platform are: after any calls of one loader, those of the machines that run with it included,

* every answer so far, and the answer to any further call, is the one of a loader that has loaded nothing;
* every module that was loaded stands for exactly the artifact of its name;
* the number of modules is the number of different names that were loaded;
* a call that fails changes neither the modules nor their number, and fails again in the same way. -/
theorem History.as_fresh (h : History s calls l) :
    (∀ name answer, (name, answer) ∈ calls → answer = (Loader.load { source := s } name).1) ∧
    (∀ name, (l.load name).1 = (Loader.load { source := s } name).1) ∧
    (∀ name m, (name, .ok m) ∈ calls ∨ (l.load name).1 = .ok m →
      ∃ a, s.artifacts.get? name = some a ∧ m.StandsFor a) ∧
    (∃ names : List String, names.Nodup ∧ (∀ name, name ∈ names ↔ ∃ m, (name, .ok m) ∈ calls) ∧
      l.count = names.length) ∧
    ∀ name e, (l.load name).1 = .error e →
      (l.load name).2.loaded = l.loaded ∧ (l.load name).2.count = l.count ∧
        ((l.load name).2.load name).1 = .error e := by
  have hanswered := h.answered
  have hfresh : ∀ name, (Loader.load { source := s } name).1 = s.materialize name := (answered_fresh s).load_fst
  refine ⟨?_, ?_, ?_, ?_, ?_⟩
  · intro name answer hcall
    rw [hfresh]
    exact hanswered.answers _ hcall
  · intro name
    rw [hfresh, hanswered.load_fst]
  · intro name m hm
    refine LoadSource.standsFor_of_materialize ?_
    rcases hm with hm | hm
    · exact (hanswered.answers _ hm).symm
    · rw [← hanswered.load_fst]
      exact hm
  · exact ⟨l.names, hanswered.nodup, hanswered.remembers, hanswered.counted⟩
  · intro name e he
    have hsame : (l.load name).2.loaded = l.loaded ∧ (l.load name).2.count = l.count := by
      rcases l.load_cases name with ⟨_, m, hm, _⟩ | ⟨_, m, hm, _⟩ | ⟨_, _, _, hsame⟩
      · rw [hm] at he
        exact absurd he (by simp)
      · rw [hm] at he
        exact absurd he (by simp)
      · exact hsame
    refine ⟨hsame.1, hsame.2, ?_⟩
    rw [(hanswered.load name).load_fst, ← hanswered.load_fst]
    exact he

end Loader

/-- A module, written by hand, whose entry operation calls itself through the loader before it prints a line. -/
def selfCalling : Module where
  formatVersion := Module.currentVersion
  name := "contract.SelfCalling"
  contract := defaultContract.qualifiedName
  functions :=
    #[{ name := ContractType.entryOperation, arity := 0, locals := 0
        code :=
          #[.callUnit "contract.SelfCalling" ContractType.entryOperation 0, .pop, .const (.str "hello"),
            .callNative (.systemModule baseModule) "io.print" 1, .ret] }]

/-- A loader that is asked for a name without an artifact, then for the module that calls itself, and then by that
module. -/
theorem Loader.History.as_fresh_selfCalling :
    ∃ (m : LoadedModule) (l : Loader),
      Loader.History (.alone selfCalling)
        [("contract.Missing", .error (.notInSession "contract.Missing")), (selfCalling.name, .ok m),
          (selfCalling.name, .ok m)] l ∧
        l.count = 1 ∧ m.StandsFor selfCalling.artifact ∧
        (l.load "contract.Missing").2.count = 1 ∧
        ((l.load "contract.Missing").2.load "contract.Missing").1 = .error (.notInSession "contract.Missing") := by
  have hfits : selfCalling.Fits := ⟨by decide, by simp [selfCalling, Function.fits_iff, Op.Fits]⟩
  have hload := LoadSource.load_alone_printing hfits (by decide +kernel) (by decide +kernel)
  have hne : "contract.Missing" ≠ selfCalling.name := by decide
  have hmissing := LoadSource.load_alone_of_ne hne
  -- The third call is the first step of the module's entry operation.
  let start := Machine.start ((LoadSource.alone selfCalling).afterLoading ["contract.Missing", selfCalling.name])
    default default selfCalling.functions[0]
  have hcall : start.loadCall? = some selfCalling.name := rfl
  -- Said of any source, so that nothing is loaded where the two forms of its loader are compared.
  have hloads : ∀ s : LoadSource, Loader.History s
      ([] ++ [("contract.Missing", ((s.afterLoading []).load "contract.Missing").1)] ++
        [(selfCalling.name, ((s.afterLoading ["contract.Missing"]).load selfCalling.name).1)])
      (s.afterLoading ["contract.Missing", selfCalling.name]) :=
    fun _ => (Loader.History.fresh.load "contract.Missing").load selfCalling.name
  have hhistory := (hloads (.alone selfCalling)).step (m := start) { host := .empty, maxCallDepth := 8 }
  have hlast : (start.loader.load selfCalling.name).1 = _ := hload ["contract.Missing", selfCalling.name]
  rw [hcall, Option.toList_some, List.map_singleton, hmissing, hload, hlast] at hhistory
  simp only [List.nil_append, List.cons_append] at hhistory
  obtain ⟨_, hfresh, hstands, ⟨names, hnodup, hnames, hcount⟩, hfails⟩ := Loader.History.as_fresh hhistory
  have hperm : names.Perm [selfCalling.name] := by
    refine (List.perm_ext_iff_of_nodup hnodup (by simp)).2 fun name => ?_
    rw [hnames]
    simp
  have hone := hcount.trans hperm.length_eq
  obtain ⟨hloaded, hsame, hagain⟩ := hfails "contract.Missing" _ ((hfresh _).trans (hmissing []))
  obtain ⟨a, ha, hstandsFor⟩ := hstands _ _ (.inl (List.mem_cons_of_mem _ List.mem_cons_self))
  have hartifact : (LoadSource.alone selfCalling).artifacts.get? selfCalling.name = some selfCalling.artifact :=
    Std.TreeMap.getElem?_insert_self
  obtain rfl := Option.some.inj (ha.symm.trans hartifact)
  exact ⟨_, _, hhistory, hone, hstandsFor, hsame.trans hone, hagain⟩

end PluginSandbox
