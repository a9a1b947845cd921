import PluginSandbox.Proofs.Loader.Alone
import PluginSandbox.Proofs.Machine.Ending
import PluginSandbox.Proofs.Machine.Likeness
import PluginSandbox.Proofs.Machine.Output

/-!
# Executing a plugin again

A plugin keeps what it has printed and logged from one execution to the next, and the loader that it runs with remembers
the modules that were loaded.  Neither shows.  Two executions of a plugin that both end do the same
(`Plugin.exists_performance`): on loaders of one source that remember different modules the machine goes the same way,
and whatever had been printed before stands in front of what an execution prints (`LoadSource.repetition`).

So the replies to any number of executions, with the lines taken and other names loaded in between, are those that the
first execution determines (`Plugin.repeats`).
-/

namespace PluginSandbox

/-! ## Uses of a plugin -/

/-- What a host does with a plugin and with the loader that the plugin runs with: it executes the plugin within a limit,
takes the lines that were printed, or loads a module. -/
inductive PluginUse where
  | execute (limit : Limit)
  | takeOutput
  | load (name : String)
  deriving DecidableEq

/-- What comes of a use.  The result of an execution is there if it has ended. -/
inductive PluginReply where
  | executed (result : Option (Except PluginFailure Unit))
  | taken (lines : Array String)
  | loaded (result : Except SandboxError LoadedModule)

namespace Plugin

/-- A use of a plugin. -/
def use (host : Host) (p : Plugin) (loader : Loader) : PluginUse → PluginReply × Plugin × Loader
  | .execute limit =>
    let execution := p.execute host loader limit
    (.executed execution.result, execution.plugin, execution.loader)
  | .takeOutput =>
    let (lines, p) := p.takeOutput
    (.taken lines, p, loader)
  | .load name =>
    let (result, loader) := loader.load name
    (.loaded result, p, loader)

/-- Uses of a plugin, one after the other: what comes of them, and the plugin and the loader behind them. -/
def uses (host : Host) (p : Plugin) (loader : Loader) : List PluginUse → List PluginReply × Plugin × Loader
  | [] => ([], p, loader)
  | use :: rest =>
    let (reply, p, loader) := p.use host loader use
    let (replies, p, loader) := p.uses host loader rest
    (reply :: replies, p, loader)

theorem uses_execute (host : Host) (p : Plugin) (l : Loader) (limit : Limit) (rest : List PluginUse) :
    p.uses host l (.execute limit :: rest) =
      (.executed (p.execute host l limit).result ::
          ((p.execute host l limit).plugin.uses host (p.execute host l limit).loader rest).1,
        ((p.execute host l limit).plugin.uses host (p.execute host l limit).loader rest).2) := rfl

theorem uses_takeOutput (host : Host) (p : Plugin) (l : Loader) (rest : List PluginUse) :
    p.uses host l (.takeOutput :: rest) =
      (.taken p.output :: (p.takeOutput.2.uses host l rest).1, (p.takeOutput.2.uses host l rest).2) := rfl

theorem uses_load (host : Host) (p : Plugin) (l : Loader) (name : String) (rest : List PluginUse) :
    p.uses host l (.load name :: rest) =
      (.loaded (l.load name).1 :: (p.uses host (l.load name).2 rest).1, (p.uses host (l.load name).2 rest).2) := rfl

end Plugin

/-- What an execution does: its result, and the lines that it prints and logs. -/
structure Performance where
  result : Except PluginFailure Unit
  output : Array String
  log : Array (LogLevel × String)

namespace Performance

/-- What has been left behind once a plugin has done this. -/
def after (f : Performance) (c : PluginContext) : PluginContext :=
  { c with output := c.output ++ f.output, log := c.log ++ f.log }

/-- What has been left behind by a plugin that does this at each execution. -/
def left (f : Performance) : PluginContext → List PluginUse → PluginContext
  | c, [] => c
  | c, .execute _ :: rest => f.left (f.after c) rest
  | c, .takeOutput :: rest => f.left { c with output := #[] } rest
  | c, .load _ :: rest => f.left c rest

/-- The replies of a plugin that does this at each execution, from the lines that were printed and not taken. -/
def replies (f : Performance) (s : LoadSource) : Array String → List PluginUse → List PluginReply
  | _, [] => []
  | lines, .execute _ :: rest => .executed (some f.result) :: f.replies s (lines ++ f.output) rest
  | lines, .takeOutput :: rest => .taken lines :: f.replies s #[] rest
  | lines, .load name :: rest => .loaded (s.materialize name) :: f.replies s lines rest

end Performance

/-! ## Likeness of different histories -/

/-- What has been left behind, with something else in front of it. -/
def PluginContext.onto (base c : PluginContext) : PluginContext :=
  { c with output := base.output ++ c.output, log := base.log ++ c.log }

theorem PluginContext.onto_fresh (base : PluginContext) : base.onto { plugin := base.plugin } = base := by
  unfold onto
  rw [Array.append_empty, Array.append_empty]

/-- A function that does not look at the lines that are there already does the same behind others, and leaves the plugin
its name. -/
theorem Native.IgnoresLines.run_onto {f : Native} (h : f.IgnoresLines) (host : Host) (args : List Value)
    (base c : PluginContext) :
    f.run host args (base.onto c) = ((f.run host args c).1, base.onto (f.run host args c).2) ∧
      (f.run host args c).2.plugin = c.plugin := by
  obtain ⟨result, lines, logged, hreply⟩ := h host args c.plugin
  have hafter : f.reply host args c.toNativeContext = _ := hreply c.output
  simp [run, hafter, hreply, PluginContext.onto, Array.append_assoc]

/-- A loader remembers nothing but what a source gives. -/
def LoadSource.Feeds (s : LoadSource) (l : Loader) : Prop :=
  l.source = s ∧ l.Faithful

theorem LoadSource.Feeds.load {s : LoadSource} {l : Loader} (h : s.Feeds l) (name : String) :
    s.Feeds (l.load name).2 :=
  ⟨(Loader.load_source l name).trans h.1, h.2.load name⟩

/-- The loader behind an execution. -/
theorem LoadSource.Feeds.execute {s : LoadSource} {l : Loader} (h : s.Feeds l) (p : Plugin) (host : Host)
    (limit : Limit) : s.Feeds (p.execute host l limit).loader := by
  by_cases hover : Frame.Overflows p.entry
  · rw [Plugin.execute_of_overflows hover]
    exact h
  · obtain ⟨n, hn⟩ := Machine.exists_run_of_runWithin (p.setting host) limit (p.machine l)
    rw [Plugin.execute_of_fits hover, hn, Plugin.loader_behind, Machine.run_loader]
    obtain ⟨rfl, hl⟩ := h
    exact hl.afterLoading _

/-- Loaders of one source are alike, whatever they remember; and what is left behind is alike if it only differs in what
stands in front, where the functions that are called do not look at that. -/
def LoadSource.repetition (s : LoadSource) (base : PluginContext) : Likeness where
  Loaders l l' := s.Feeds l ∧ s.Feeds l'
  Contexts c c' := c.plugin = base.plugin ∧ c' = base.onto c
  answers := by
    rintro l l' ⟨⟨rfl, hl⟩, hsource, hl'⟩ name
    rw [Loader.load_fst hl, Loader.load_fst hl', hsource]
  load := fun ⟨h, h'⟩ name => ⟨h.load name, h'.load name⟩
  Admits := Native.IgnoresLines
  run := by
    rintro c _ ⟨hplugin, rfl⟩ f hf host args
    obtain ⟨honto, hname⟩ := hf.run_onto host args base c
    rw [honto]
    exact ⟨rfl, hname.trans hplugin, rfl⟩

namespace Plugin

/-- The plugin with nothing left behind. -/
def fresh (p : Plugin) : Plugin :=
  { p with context := { plugin := p.context.plugin } }

/-- A plugin that has left something behind, with a loader that remembers something, goes the same way as from the
start. -/
theorem run_repetition (p : Plugin) (host : Host) {s : LoadSource} (hmodule : p.module.Calls Native.IgnoresLines)
    (hoffers : s.catalogue.Offers Native.IgnoresLines) {c : PluginContext} {l : Loader} (n : Nat)
    (hc : c.plugin = p.context.plugin) (hl : s.Feeds l) :
    Step.Like (s.repetition c) ((p.fresh.machine { source := s }).run (p.setting host) n)
      ((({ p with context := c } : Plugin).machine l).run (p.setting host) n) := by
  have hcontext : c = c.onto p.fresh.context := by
    rw [fresh, ← hc, c.onto_fresh]
  have hcalls : (p.fresh.machine { source := s }).Calls Native.IgnoresLines :=
    Machine.calls_start ((Loader.faithful_fresh s).calls hoffers) hmodule _ _
  exact Machine.run_like (k := s.repetition c) ⟨⟨rfl, Loader.faithful_fresh s⟩, hl⟩ ⟨hc.symm, hcontext⟩ hcalls n

/-- Every execution of a plugin that ends does the same, whatever has been left behind and whatever the loader
remembers. -/
def Performs (p : Plugin) (host : Host) (s : LoadSource) (f : Performance) : Prop :=
  ∀ (c : PluginContext) (l : Loader) (limit : Limit) (r : Except PluginFailure Unit),
    c.plugin = p.context.plugin → s.Feeds l → ({ p with context := c }.execute host l limit).result = some r →
      r = f.result ∧ ({ p with context := c }.execute host l limit).plugin = { p with context := f.after c }

theorem exists_performance (p : Plugin) (host : Host) {s : LoadSource} (hmodule : p.module.Calls Native.IgnoresLines)
    (hoffers : s.catalogue.Offers Native.IgnoresLines) : ∃ f, p.Performs host s f := by
  by_cases hover : Frame.Overflows p.entry
  · refine ⟨⟨.error (.crashed .capacityOverflow), #[], #[]⟩, fun c l limit r _ _ hr => ?_⟩
    rw [execute_of_overflows (p := { p with context := c }) hover] at hr ⊢
    obtain rfl := Option.some.inj hr
    rw [Performance.after, Array.append_empty, Array.append_empty]
    exact ⟨rfl, rfl⟩
  by_cases hends : ∃ n e, (p.fresh.machine { source := s }).run (p.setting host) n = .done e
  · obtain ⟨n, e, he⟩ := hends
    refine ⟨⟨e.result.map fun _ => (), e.context.output, e.context.log⟩, fun c l limit r hc hl hr => ?_⟩
    obtain ⟨n', e', he', rfl, hplugin⟩ := exists_run_of_execute (p := { p with context := c }) hover hr
    have hlike := p.run_repetition host hmodule hoffers (max n n') hc hl
    have hend : ({ p with context := c }.machine l).run (p.setting host) (max n n') = .done e' :=
      Machine.run_of_done he' (Nat.le_max_right n n')
    rw [Machine.run_of_done he (Nat.le_max_left n n'), hend] at hlike
    rw [hplugin]
    cases hlike with
    | done _ hcontext =>
      obtain ⟨hname, rfl⟩ := hcontext
      refine ⟨rfl, ?_⟩
      rw [PluginContext.onto, hname]
      rfl
  · -- an execution that ends ends from the start as well
    refine ⟨⟨.ok (), #[], #[]⟩, fun c l limit r hc hl hr => ?_⟩
    obtain ⟨n, e, he, _⟩ := exists_run_of_execute (p := { p with context := c }) hover hr
    have hlike := p.run_repetition host hmodule hoffers n hc hl
    have hend : ({ p with context := c }.machine l).run (p.setting host) n = .done e := he
    rw [hend] at hlike
    generalize hstart : (p.fresh.machine { source := s }).run (p.setting host) n = outcome at hlike
    cases hlike with
    | done _ _ => exact absurd ⟨n, _, hstart⟩ hends

/-- A plugin that does the same at each execution answers accordingly, however it is used. -/
theorem Performs.uses_eq {p : Plugin} {host : Host} {s : LoadSource} {f : Performance} (hf : p.Performs host s f)
    (uses : List PluginUse) {c : PluginContext} {l : Loader} (hc : c.plugin = p.context.plugin) (hl : s.Feeds l)
    (hended : ∀ reply ∈ (({ p with context := c } : Plugin).uses host l uses).1, reply ≠ .executed none) :
    (({ p with context := c } : Plugin).uses host l uses).1 = f.replies s c.output uses ∧
      (({ p with context := c } : Plugin).uses host l uses).2.1 = { p with context := f.left c uses } := by
  induction uses generalizing c l with
  | nil => exact ⟨rfl, rfl⟩
  | cons use rest ih =>
    cases use with
    | execute limit =>
      rw [uses_execute] at hended ⊢
      obtain ⟨hfirst, hrest⟩ := List.forall_mem_cons.1 hended
      cases hresult : (({ p with context := c } : Plugin).execute host l limit).result with
      | none => exact absurd (congrArg PluginReply.executed hresult) hfirst
      | some r =>
        obtain ⟨rfl, hplugin⟩ := hf c l limit r hc hl hresult
        rw [hplugin] at hrest ⊢
        obtain ⟨hreplies, hleft⟩ := ih (c := f.after c) hc (hl.execute _ host limit) hrest
        exact ⟨congrArg _ hreplies, hleft⟩
    | takeOutput =>
      rw [uses_takeOutput] at hended ⊢
      obtain ⟨_, hrest⟩ := List.forall_mem_cons.1 hended
      obtain ⟨hreplies, hleft⟩ := ih (c := { c with output := #[] }) hc hl hrest
      exact ⟨congrArg _ hreplies, hleft⟩
    | load name =>
      rw [uses_load] at hended ⊢
      obtain ⟨_, hrest⟩ := List.forall_mem_cons.1 hended
      obtain ⟨hreplies, hleft⟩ := ih hc (hl.load name) hrest
      have hanswer : (l.load name).1 = s.materialize name := by rw [Loader.load_fst hl.2, hl.1]
      rw [hanswer]
      exact ⟨congrArg _ hreplies, hleft⟩

/-- **Executions do not depend on what was executed before.**  For each plugin there is what it does: whatever names its
loader was asked for, and however often it is executed while its lines are taken and further names are loaded, each
execution has this result, prints these lines and logs these lines, as long as all of them end and no function that it
can call looks at the lines that are there already. -/
theorem repeats (p : Plugin) (host : Host) (s : LoadSource) (hmodule : p.module.Calls Native.IgnoresLines)
    (hoffers : s.catalogue.Offers Native.IgnoresLines) :
    ∃ f : Performance, ∀ (names : List String) (uses : List PluginUse),
      (∀ reply ∈ (p.uses host (s.afterLoading names) uses).1, reply ≠ .executed none) →
        (p.uses host (s.afterLoading names) uses).1 = f.replies s p.output uses ∧
          (p.uses host (s.afterLoading names) uses).2.1 = { p with context := f.left p.context uses } := by
  obtain ⟨f, hf⟩ := p.exists_performance host hmodule hoffers
  exact ⟨f, fun names uses => hf.uses_eq uses rfl (s.afterLoading_faithful names)⟩

/-- A module, written by hand, whose entry operation prints a line and then calls a unit that there is not. -/
def asking : Module where
  formatVersion := Module.currentVersion
  name := "contract.Asking"
  contract := defaultContract.qualifiedName
  functions :=
    #[{ name := ContractType.entryOperation, arity := 0, locals := 0
        code :=
          #[.const (.str "asking"), .callNative (.systemModule baseModule) "io.print" 1, .pop,
            .callUnit "contract.Missing" "help" 0, .ret] }]

/-- The module that asks for what there is not, as it is loaded. -/
def askingLoaded : LoadedModule where
  module := asking
  digest := asking.artifact.digest
  size := asking.encode.size
  links := [LoadSource.printLink]

/-- An execution of the module that asks for what there is not. -/
theorem execute_asking (c : PluginContext) {l : Loader} (hl : (LoadSource.alone asking).Feeds l) (n : Nat) :
    (⟨askingLoaded, asking.functions[0], 8, c⟩ : Plugin).execute .empty l (.steps (n + 4)) =
      ⟨some (.error (.fault (.notLoaded (.notInSession "contract.Missing")))),
        ⟨askingLoaded, asking.functions[0], 8, { c with output := c.output.push "asking" }⟩,
        (l.load "contract.Missing").2⟩ := by
  have hfirst := LoadSource.load_alone_of_ne (m := asking) (show "contract.Missing" ≠ asking.name by decide) []
  have hmissing : (l.load "contract.Missing").1 = .error (.notInSession "contract.Missing") := by
    rw [Loader.load_fst hl.2, hl.1]
    exact (Loader.load_fst (Loader.faithful_fresh _) _).symm.trans hfirst
  let printed : PluginContext := { c with output := c.output.push "asking" }
  let last : Machine :=
    { Machine.start l printed askingLoaded asking.functions[0] with
      frame := { Frame.enter askingLoaded asking.functions[0] [] 0 with pc := 3 } }
  have hthree : ((⟨askingLoaded, asking.functions[0], 8, c⟩ : Plugin).machine l).run ⟨.empty, 8⟩ 3 = .next last := rfl
  have hlast : last.step ⟨.empty, 8⟩ =
      .done ⟨.error (.fault (.notLoaded (.notInSession "contract.Missing"))), (l.load "contract.Missing").2,
        printed⟩ := by
    show last.advanced.callUnit ⟨.empty, 8⟩ "contract.Missing" "help" [] = _
    rw [Machine.callUnit, show last.advanced.loader = l from rfl]
    dsimp only
    rw [hmissing]
    rfl
  have hrun := Machine.run_add hthree (n + 1)
  rw [Machine.run_succ, hlast] at hrun
  have hfits : ¬ Frame.Overflows asking.functions[0] := by decide
  rw [execute_of_fits (p := ⟨askingLoaded, asking.functions[0], 8, c⟩) hfits]
  show behind _ (((⟨askingLoaded, asking.functions[0], 8, c⟩ : Plugin).machine l).run ⟨.empty, 8⟩ (n + 4)) = _
  rw [show n + 4 = 3 + (n + 1) by omega, hrun]
  rfl

/-- The module that asks for what there is not, three times. -/
theorem repeats_asking :
    ∃ (m : LoadedModule) (p : Plugin) (f : Performance),
      (((LoadSource.alone asking).afterLoading []).load asking.name).1 = .ok m ∧ Plugin.instantiate m 8 = .ok p ∧
        f.result = .error (.fault (.notLoaded (.notInSession "contract.Missing"))) ∧ f.output = #["asking"] ∧
        (p.uses .empty ((LoadSource.alone asking).afterLoading [asking.name])
          [.execute (.steps 4), .takeOutput, .execute (.steps 9), .execute (.steps 4), .takeOutput]).1 =
          [.executed (some f.result), .taken #["asking"], .executed (some f.result), .executed (some f.result),
            .taken #["asking", "asking"]] := by
  have hfits : asking.Fits := ⟨by decide, by simp [asking, Function.fits_iff, Op.Fits]⟩
  have hload := LoadSource.load_alone_printing hfits (by decide +kernel) (by decide +kernel) []
  let p : Plugin := ⟨askingLoaded, asking.functions[0], 8, { plugin := asking.name }⟩
  let uses : List PluginUse := [.execute (.steps 4), .takeOutput, .execute (.steps 9), .execute (.steps 4), .takeOutput]
  let failure : PluginFailure := .fault (.notLoaded (.notInSession "contract.Missing"))
  have huses : ∀ l, (LoadSource.alone asking).Feeds l → (p.uses .empty l uses).1 =
      [.executed (some (.error failure)), .taken #["asking"], .executed (some (.error failure)),
        .executed (some (.error failure)), .taken #["asking", "asking"]] := by
    intro l hl
    rw [uses_execute, execute_asking _ hl 0, uses_takeOutput, uses_execute, takeOutput, NativeContext.takeOutput,
      execute_asking _ (hl.load _) 5, uses_execute, execute_asking _ ((hl.load _).load _) 0, uses_takeOutput]
    rfl
  have hsame := huses _ ((LoadSource.alone asking).afterLoading_faithful [asking.name])
  have hoffers : (LoadSource.alone asking).catalogue.Offers Native.IgnoresLines := Catalogue.standard_ignoresLines _
  obtain ⟨f, hf⟩ := p.repeats .empty (.alone asking) ((LoadSource.calls_afterLoading hoffers []).of_load hload) hoffers
  have hreplies := (hf [asking.name] uses (by rw [hsame]; simp)).1
  rw [hsame] at hreplies
  obtain ⟨hfirst, hrest⟩ := List.cons.inj hreplies
  have hresult : .error failure = f.result := Option.some.inj (PluginReply.executed.inj hfirst)
  have houtput : #["asking"] = #[] ++ f.output := PluginReply.taken.inj (List.cons.inj hrest).1
  rw [Array.empty_append] at houtput
  refine ⟨askingLoaded, p, f, hload, rfl, hresult.symm, houtput.symm, ?_⟩
  rw [← hresult]
  exact hsame

end Plugin
end PluginSandbox
