import PluginSandbox.Machine.Plugin
import PluginSandbox.Proofs.Catalogue
import PluginSandbox.Proofs.Loader.Alone
import PluginSandbox.Proofs.Loader.Memory
import PluginSandbox.Proofs.Machine.Effects

/-!
# Confinement of running plugins

Whatever bytes the artifacts of a session hold, a running plugin reaches a platform function only through
the link table of the module that is running, and every link table was made by the loader.

* `Machine.nativeCall?` is the call of a platform function that a machine makes in its next step.
  `step_of_nativeCall?` says that such a step runs that function and hands its result over;
  `step_of_no_nativeCall` says that every other step neither asks the host nor leaves anything behind.
* `Machine.Confined` is the invariant of runs: the loader remembers only what its source gives, and every
  frame belongs to a module that the source gives.
* `nativeCall_permitted` puts the two together for all runs of all plugins.

## Which functions are reached

A function that is called is the first one that the catalogue has for the operation's own symbol at the
operation's own location.  That location is a module of the platform, and the policy shows the function's
package there.  So a function of the class path, of the sources or of the output is never called.
-/

namespace PluginSandbox

/-- A call of a platform function: the location and the qualified name that the operation has for it, the function, its
arguments, and the operands below them. -/
structure NativeCall where
  location : Location
  symbol : String
  function : NativeFunction
  args : List Value
  below : Counted Value

/-- What a plugin has left behind after a step. -/
def Step.context : Step → PluginContext
  | .next m => m.context
  | .done e => e.context

/-- A plugin is made of a module that has an entry operation without parameters. -/
theorem Plugin.instantiate_eq_ok {module : LoadedModule} {maxCallDepth : Nat} {plugin : Plugin} :
    Plugin.instantiate module maxCallDepth = .ok plugin ↔
      module = plugin.module ∧
        plugin.module.module.function? ContractType.entryOperation = some plugin.entry ∧
        plugin.entry.arity = 0 ∧ plugin.maxCallDepth = max maxCallDepth 1 ∧
        plugin.context = { plugin := plugin.module.module.name } := by
  rw [Plugin.instantiate]
  constructor
  · intro h
    split at h
    · exact absurd h (by simp)
    · next entry hentry =>
      split at h
      · exact absurd h (by simp)
      · next harity =>
        obtain rfl := Except.ok.inj h
        exact ⟨rfl, hentry, not_not.1 harity, rfl, rfl⟩
  · rintro ⟨rfl, hentry, harity, hdepth, hcontext⟩
    rw [hentry]
    dsimp only
    rw [if_neg (not_not.2 harity), ← hdepth, ← hcontext]

/-- A frame belongs to a function of a module that a source gives. -/
def Frame.Of (s : LoadSource) (frame : Frame) : Prop :=
  s.Gives frame.module ∧ frame.function ∈ frame.module.module.functions

namespace Machine

variable {setting : MachineSetting}

/-- The call of a platform function that the next step of a machine makes, if it makes one. -/
def nativeCall? (m : Machine) : Option NativeCall :=
  match m.op? with
  | some (.callNative location symbol argc) =>
    match m.stack.popMany? argc, m.frame.module.native? location symbol with
    | some (args, below), some function => some { location, symbol, function, args, below }
    | _, _ => none
  | _ => none

/-- A step in which a platform function was called, from what the function gave and left behind. -/
def resume (m : Machine) (c : NativeCall) (answer : Except PluginFailure Value × PluginContext) : Step :=
  let m := { m.advanced with stack := c.below, context := answer.2 }
  match answer.1 with
  | .ok value => .next (m.push value)
  | .error failure => m.failed failure

/-! ## Which steps call platform functions -/

theorem nativeCall?_eq_some {m : Machine} {c : NativeCall} :
    m.nativeCall? = some c ↔
      ∃ argc, m.op? = some (.callNative c.location c.symbol argc) ∧
        m.stack.popMany? argc = some (c.args, c.below) ∧
        m.frame.module.native? c.location c.symbol = some c.function := by
  constructor
  · intro h
    rw [nativeCall?] at h
    split at h
    · next location symbol argc hop =>
      split at h
      · next args below function hargs hf =>
        obtain rfl := Option.some.inj h
        exact ⟨argc, hop, hargs, hf⟩
      · exact absurd h (by simp)
    · exact absurd h (by simp)
  · rintro ⟨argc, hop, hargs, hf⟩
    simp only [nativeCall?, hop, hargs, hf]

/-- A step that calls a platform function runs it and hands its result over. -/
theorem step_of_nativeCall? {m : Machine} {c : NativeCall} (h : m.nativeCall? = some c) :
    m.step setting = m.resume c (c.function.implementation.run setting.host c.args m.context) := by
  obtain ⟨argc, hop, hargs, hf⟩ := nativeCall?_eq_some.1 h
  rw [step_of_op hop, perform, withArgs]
  have hadvanced : m.advanced.stack.popMany? argc = some (c.args, c.below) := hargs
  rw [hadvanced]
  show callNative setting c.location c.symbol c.args { m.advanced with stack := c.below } = _
  rw [callNative]
  have hlinked : m.advanced.frame.module.native? c.location c.symbol = some c.function := hf
  simp only [hlinked, resume]
  show (match (c.function.implementation.run setting.host c.args m.context).1 with | .ok v => _ | .error e => _) = _
  cases (c.function.implementation.run setting.host c.args m.context).1 <;> rfl

/-! ## All other steps -/

theorem context_eq_effects (outcome : Step) : outcome.context = outcome.effects.2 := by
  cases outcome <;> rfl

/-- Only operations that call platform functions leave anything behind. -/
theorem perform_context {m : Machine} {op : Op} (h : Module.nativeReference? op = none) :
    (m.perform setting op).context = m.context := by
  rw [context_eq_effects]
  cases op with
  | callUnit unit function argc => rw [perform_callUnit_effects]
  | callNative location symbol argc => exact absurd h (by simp [Module.nativeReference?])
  | _ =>
    rw [perform_effects rfl rfl]
    rfl

/-- Only operations that call platform functions ask the host. -/
theorem perform_host {m : Machine} {op : Op} (h : Module.nativeReference? op = none) (host : Host) :
    m.perform { setting with host } op = m.perform setting op := by
  cases op with
  | callNative location symbol argc => exact absurd h (by simp [Module.nativeReference?])
  | _ => rfl

/-- Without a link, a call of a platform function ends in a fault. -/
theorem perform_unlinked {m : Machine} {location : Location} {symbol : String} {argc : Nat}
    (h : ∀ args below, m.stack.popMany? argc = some (args, below) →
      m.frame.module.native? location symbol = none) :
    m.perform setting (.callNative location symbol argc) =
      m.withArgs argc fun _ m => m.faulted (.notLinked symbol) := by
  rw [perform, withArgs, withArgs]
  split
  · next args below hargs => simp only [callNative, h args below hargs]
  · rfl

/-- A step that calls no platform function leaves nothing behind and does not ask the host. -/
theorem step_of_no_nativeCall {m : Machine} (h : m.nativeCall? = none) (host : Host) :
    (m.step setting).context = m.context ∧ m.step { setting with host } = m.step setting := by
  cases hop : m.op? with
  | none =>
    rw [op?] at hop
    simp only [step, hop, and_true]
    rfl
  | some op =>
    rw [step_of_op hop, step_of_op hop]
    cases href : Module.nativeReference? op with
    | none => exact ⟨perform_context href, perform_host href host⟩
    | some reference =>
      cases op <;> simp [Module.nativeReference?] at href
      next location symbol argc =>
      have hunlinked : ∀ args below, m.advanced.stack.popMany? argc = some (args, below) →
          m.advanced.frame.module.native? location symbol = none := by
        intro args below hargs
        by_contra hf
        obtain ⟨f, hf⟩ := Option.ne_none_iff_exists'.1 hf
        have hcall := nativeCall?_eq_some (c := ⟨location, symbol, f, args, below⟩) |>.2
          ⟨argc, hop, hargs, hf⟩
        rw [h] at hcall
        exact absurd hcall (by simp)
      rw [perform_unlinked hunlinked, perform_unlinked hunlinked]
      refine ⟨?_, rfl⟩
      rw [context_eq_effects, withArgs_effects fun args stack => rfl]
      rfl

/-! ## The invariant -/

/-- A loader remembers only what a source gives, and every frame belongs to a function of a module that it
gives. -/
structure Confined (s : LoadSource) (m : Machine) : Prop where
  source : m.loader.source = s
  faithful : m.loader.Faithful
  frame : m.frame.Of s
  callers : ∀ frame ∈ m.callers.toList, frame.Of s

variable {s : LoadSource}

/-- What an operation does keeps a machine confined. -/
theorem Confined.moves {m m' : Machine} {op : Op} (h : m.Confined s) (hm : Moves setting m op m') :
    m'.Confined s := by
  cases hm with
  | call _ _ hf _ _ =>
    exact ⟨h.source, h.faithful, ⟨h.frame.1, Array.mem_of_getElem? hf⟩,
      List.forall_mem_cons.2 ⟨h.frame, h.callers⟩⟩
  | callUnit _ hload hf _ _ _ =>
    rw [Loader.load_fst h.faithful, h.source] at hload
    exact ⟨(Loader.load_source _ _).trans h.source, h.faithful.load _,
      ⟨⟨_, hload⟩, Array.mem_of_find?_eq_some hf⟩, List.forall_mem_cons.2 ⟨h.frame, h.callers⟩⟩
  | ret _ hcallers =>
    have hframes := h.callers
    rw [Counted.pop?_eq_some.1 hcallers] at hframes
    obtain ⟨hframe, hrest⟩ := List.forall_mem_cons.1 hframes
    exact ⟨h.source, h.faithful, hframe, hrest⟩
  | _ => exact ⟨h.source, h.faithful, h.frame, h.callers⟩

/-- Every step keeps a machine confined. -/
theorem Confined.step {m m' : Machine} (h : m.Confined s) (hm : m.step setting = .next m') :
    m'.Confined s := by
  obtain ⟨op, _, hmoves⟩ := step_eq_next_iff.1 hm
  have hadvanced : m.advanced.Confined s := ⟨h.source, h.faithful, h.frame, h.callers⟩
  exact hadvanced.moves hmoves

/-- A confined machine calls only functions that its source lets modules be linked to. -/
theorem Confined.linkable? {m : Machine} {c : NativeCall} (h : m.Confined s)
    (hc : m.nativeCall? = some c) : s.linkable? c.location c.symbol = some c.function := by
  obtain ⟨_, _, _, hf⟩ := nativeCall?_eq_some.1 hc
  obtain ⟨⟨name, hname⟩, _⟩ := h.frame
  exact LoadSource.linkable?_of_native? hname hf

/-- A machine is confined when a plugin of a module that its source gives is started. -/
theorem confined_start {l : Loader} (hsource : l.source = s) (hl : l.Faithful) {module : LoadedModule}
    (hm : s.Gives module) {maxCallDepth : Nat} {plugin : Plugin}
    (hplugin : Plugin.instantiate module maxCallDepth = .ok plugin) (context : PluginContext) :
    (start l context plugin.module plugin.entry).Confined s := by
  obtain ⟨rfl, hentry, _⟩ := Plugin.instantiate_eq_ok.1 hplugin
  exact ⟨hsource, hl, ⟨hm, Array.mem_of_find?_eq_some hentry⟩, fun _ h => absurd h (by simp [start])⟩

end Machine

/-! ## All runs of all plugins -/

/-- **Confinement.** Whatever the artifacts, the policy and the catalogue are, whatever was loaded before and
between, and however far a plugin has run: if the next step calls a platform function, it is the first one
of the catalogue by the symbol and at the location of the operation, the location is a module of the
platform, and the policy shows the function's package there.  If it calls none, it leaves nothing behind
and does not ask the host. -/
theorem nativeCall_permitted (s : LoadSource) (earlier later : List String) (unit : String)
    (maxCallDepth : Nat) (context : PluginContext) (host : Host) (limit : Limit)
    {module : LoadedModule} {plugin : Plugin} {m : Machine}
    (hload : ((s.afterLoading earlier).load unit).1 = .ok module)
    (hplugin : Plugin.instantiate module maxCallDepth = .ok plugin)
    (hrun : (Machine.start (s.afterLoading (earlier ++ unit :: later)) context plugin.module
      plugin.entry).runWithin { host, maxCallDepth := plugin.maxCallDepth } limit = .next m) :
    (∀ c, m.nativeCall? = some c →
      (∃ argc, m.op? = some (.callNative c.location c.symbol argc)) ∧
        s.catalogue.lookup? c.location c.symbol = some c.function ∧
        c.location.isSystemModule = true ∧ c.function.location = c.location ∧
        s.policy.isVisible c.location.realm c.function.symbol.package = true ∧
        m.step { host, maxCallDepth := plugin.maxCallDepth } =
          m.resume c (c.function.implementation.run host c.args m.context)) ∧
      (m.nativeCall? = none → ∀ other : Host,
        (m.step { host, maxCallDepth := plugin.maxCallDepth }).context = m.context ∧
          m.step { host := other, maxCallDepth := plugin.maxCallDepth } =
            m.step { host, maxCallDepth := plugin.maxCallDepth }) := by
  obtain ⟨hsource, hfaithful⟩ := s.afterLoading_faithful earlier
  rw [Loader.load_fst hfaithful, hsource] at hload
  obtain ⟨hsource', hfaithful'⟩ := s.afterLoading_faithful (earlier ++ unit :: later)
  have hstart := Machine.confined_start hsource' hfaithful' ⟨unit, hload⟩ hplugin context
  obtain ⟨n, hn⟩ := Machine.exists_run_of_runWithin _ limit
    (Machine.start (s.afterLoading (earlier ++ unit :: later)) context plugin.module plugin.entry)
  rw [hn] at hrun
  have hm : m.Confined s := Machine.run_invariant (fun _ _ => Machine.Confined.step) n hstart hrun
  constructor
  · intro c hc
    obtain ⟨argc, hop, _, _⟩ := Machine.nativeCall?_eq_some.1 hc
    obtain ⟨hmodule, hlookup, hvisible⟩ := LoadSource.linkable?_eq_some.1 (hm.linkable? hc)
    exact ⟨⟨argc, hop⟩, hlookup, hmodule, (Catalogue.mem_of_lookup? hlookup).2, hvisible,
      Machine.step_of_nativeCall? hc⟩
  · intro hnone other
    exact Machine.step_of_no_nativeCall hnone other

/-- A module, written by hand, that prints a line. -/
def printing : Module where
  formatVersion := Module.currentVersion
  name := "contract.Hello"
  contract := defaultContract.qualifiedName
  functions :=
    #[{ name := ContractType.entryOperation, arity := 0, locals := 0
        code := #[.const (.str "hello"), .callNative (.systemModule baseModule) "io.print" 1, .ret] }]

/-- A source that has nothing but the module that prints a line. -/
def printingSource : LoadSource :=
  .alone printing

/-- Confinement of the module that prints a line, at the call that prints it. -/
theorem nativeCall_permitted_printing :
    ∃ (module : LoadedModule) (plugin : Plugin) (m : Machine) (c : NativeCall),
      ((printingSource.afterLoading []).load printing.name).1 = .ok module ∧
        Plugin.instantiate module 0 = .ok plugin ∧
        (Machine.start (printingSource.afterLoading ([] ++ printing.name :: [])) plugin.context
          plugin.module plugin.entry).runWithin
            { host := .empty, maxCallDepth := plugin.maxCallDepth } (.steps 1) = .next m ∧
        m.nativeCall? = some c ∧ c.symbol = "io.print" ∧
        printingSource.catalogue.lookup? c.location c.symbol = some c.function ∧
        c.location.isSystemModule = true ∧ c.function.location = c.location ∧
        printingSource.policy.isVisible c.location.realm c.function.symbol.package = true := by
  have hfits : printing.Fits := ⟨by decide, by simp [printing, Function.fits_iff, Op.Fits]⟩
  have hload := LoadSource.load_alone_printing hfits (by decide +kernel) (by decide +kernel) []
  have hconfined := (nativeCall_permitted printingSource [] [] printing.name 0
    { plugin := printing.name } .empty (.steps 1) hload rfl rfl).1
    ⟨.systemModule baseModule, "io.print", LoadSource.printLink.function, [.str "hello"], .empty⟩ rfl
  exact ⟨_, _, _, _, hload, rfl, rfl, rfl, rfl, hconfined.2.1, hconfined.2.2.1,
    hconfined.2.2.2.1, hconfined.2.2.2.2.1⟩

end PluginSandbox
