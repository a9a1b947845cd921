import PluginSandbox.Platform.Catalogue

/-!
# What platform functions keep to

A function of a platform may do anything with what it sees of the running plugin (`Native`).  Three statements about
running plugins need more:

* what was left behind only grows if the functions take no line back (`Native.KeepsLines`);
* executions repeat if the functions do not look at the lines that are there already (`Native.IgnoresLines`);
* no execution is said to lack an entry point if the functions do not say so (`Native.Blameless`).

The functions of this library keep to all of it (`Catalogue.standard_ignoresLines`, `Catalogue.standard_blameless`).
-/

namespace PluginSandbox

/-- All functions of a catalogue have a property. -/
def Catalogue.Offers (P : Native → Prop) (c : Catalogue) : Prop :=
  ∀ f ∈ c.functions, P f.implementation

namespace Catalogue.Offers

variable {P Q : Native → Prop} {c : Catalogue}

theorem mono (h : c.Offers P) (hmono : ∀ f, P f → Q f) : c.Offers Q :=
  fun f hf => hmono _ (h f hf)

theorem empty (contract : ContractType) : (Catalogue.empty contract).Offers P :=
  fun _ hf => absurd hf List.not_mem_nil

theorem define {location : Location} {package name : String} {arity : Nat} {f : Native} (h : c.Offers P) (hf : P f) :
    (c.define location package name arity f).Offers P := by
  refine List.forall_mem_append.2 ⟨h, fun g hg => ?_⟩
  obtain rfl := List.mem_singleton.1 hg
  exact hf

end Catalogue.Offers

namespace Native

/-- A function that takes no line back, and leaves the plugin its name. -/
def KeepsLines (f : Native) : Prop :=
  ∀ host args c, (f.reply host args c).context.plugin = c.plugin ∧
    c.output.toList <+: (f.reply host args c).context.output.toList

/-- A function that does not look at the lines that are there already: whatever they are, it gives the same and adds
the same lines to them. -/
def IgnoresLines (f : Native) : Prop :=
  ∀ host args plugin, ∃ result lines logged, ∀ output,
    f.reply host args ⟨plugin, output⟩ = ⟨result, ⟨plugin, output ++ lines⟩, logged⟩

/-- A result that does not say of the plugin that its entry point cannot be constructed. -/
def Fair {α : Type} (r : Except NativeFailure α) : Prop :=
  ∀ text, r ≠ .error (.instantiation text)

/-- A function that never says of the plugin that its entry point cannot be constructed. -/
def Blameless (f : Native) : Prop :=
  ∀ host args c, Fair (f.reply host args c).result

theorem IgnoresLines.keepsLines {f : Native} (h : f.IgnoresLines) : f.KeepsLines := by
  intro host args c
  obtain ⟨result, lines, logged, hreply⟩ := h host args c.plugin
  rw [show f.reply host args c = _ from hreply c.output]
  refine ⟨rfl, ?_⟩
  rw [Array.toList_append]
  exact List.prefix_append _ _

/-! ## The functions of this library -/

/-- A function that learns nothing but its arguments leaves nothing behind. -/
theorem run_ofArgs (result : List Value → Except NativeFailure Value) (host : Host) (args : List Value)
    (c : PluginContext) : (ofArgs result).run host args c = ((result args).mapError .ofNative, c) := by
  show ((result args).mapError _, { c with log := c.log ++ #[] }) = _
  rw [Array.append_empty]

/-- A function that leaves its context alone ignores the lines in it. -/
theorem ignoresLines_of_context {f : Native}
    (h : ∀ host args plugin, ∃ result logged, ∀ output,
      f.reply host args ⟨plugin, output⟩ = ⟨result, ⟨plugin, output⟩, logged⟩) : f.IgnoresLines := by
  intro host args plugin
  obtain ⟨result, logged, hreply⟩ := h host args plugin
  refine ⟨result, #[], logged, fun output => ?_⟩
  rw [hreply, Array.append_empty]

theorem ignoresLines_ofArgs (result : List Value → Except NativeFailure Value) : (ofArgs result).IgnoresLines :=
  ignoresLines_of_context fun _ args _ => ⟨result args, #[], fun _ => rfl⟩

theorem ignoresLines_print : print.IgnoresLines :=
  fun _ args _ => ⟨.ok .unit, #[(first args).text], #[], fun _ => by simp [print, NativeContext.print]⟩

theorem ignoresLines_readFile : readFile.IgnoresLines :=
  ignoresLines_of_context fun _ _ _ => ⟨_, #[], fun _ => rfl⟩

theorem ignoresLines_envVar : envVar.IgnoresLines :=
  ignoresLines_of_context fun _ _ _ => ⟨_, #[], fun _ => rfl⟩

theorem ignoresLines_log (level : LogLevel) : (log level).IgnoresLines :=
  ignoresLines_of_context fun _ args plugin =>
    ⟨.ok .unit, #[(level, s!"[{plugin}] {(first args).text}")], fun _ => rfl⟩

section
variable {α β : Type}

theorem fair_ok (a : α) : Fair (.ok a) :=
  fun _ => nofun

theorem fair_signaled (text : String) : Fair (.error (.signaled text) : Except NativeFailure α) :=
  fun _ => nofun

theorem fair_fault (cause : NativeFault) : Fair (.error (.fault cause) : Except NativeFailure α) :=
  fun _ => nofun

theorem Fair.bind {r : Except NativeFailure α} {next : α → Except NativeFailure β} (hr : Fair r)
    (hnext : ∀ a, Fair (next a)) : Fair (r >>= next) := by
  cases r with
  | ok a => exact hnext a
  | error failure =>
    rintro text htext
    obtain rfl : failure = .instantiation text := Except.error.inj htext
    exact hr text rfl

end

theorem fair_intArg (function : String) (args : List Value) (index : Nat) : Fair (intArg function args index) := by
  rw [intArg.eq_def]
  split
  · exact fair_ok _
  · exact fair_fault _
  · exact fair_fault _

theorem fair_strArg (function : String) (args : List Value) (index : Nat) : Fair (strArg function args index) := by
  rw [strArg.eq_def]
  split
  · exact fair_ok _
  · exact fair_fault _
  · exact fair_fault _

theorem fair_fitting (function : String) (n : Option Int64) : Fair (fitting function n) := by
  cases n with
  | none => exact fair_fault _
  | some n => exact fair_ok _

theorem blameless_assert : assert.Blameless := by
  intro _ args _
  rcases args with _ | ⟨v, rest⟩
  · exact fair_fault _
  · cases v with
    | bool b => cases b <;> first | exact fair_ok _ | exact fair_signaled _
    | _ => exact fair_fault _

theorem blameless_length : length.Blameless :=
  fun _ _ _ => (fair_strArg _ _ _).bind fun _ => fair_ok _

theorem blameless_abs : abs.Blameless :=
  fun _ _ _ => (fair_intArg _ _ _).bind fun _ => fair_fitting _ _

theorem blameless_envVar : envVar.Blameless :=
  fun _ _ _ => (fair_strArg _ _ _).bind fun _ => fair_ok _

theorem blameless_choice (function : String) (choose : Int64 → Int64 → Int64) : (choice function choose).Blameless :=
  fun _ _ _ => (fair_intArg _ _ _).bind fun _ => (fair_intArg _ _ _).bind fun _ => fair_ok _

theorem blameless_pow : pow.Blameless := by
  intro _ args _
  refine (fair_intArg _ _ _).bind fun base => (fair_intArg _ _ _).bind fun exponent => ?_
  split
  · exact fair_fitting _ _
  · exact fair_fault _

theorem blameless_readFile : readFile.Blameless := by
  intro host args _
  refine (fair_strArg _ _ _).bind fun path => ?_
  cases host.readFile path with
  | ok text => exact fair_ok _
  | error cause => exact fair_fault _

end Native

namespace Catalogue

open Native

variable (contract : ContractType)

/-- The functions of this library do not look at the lines that are there already. -/
theorem standard_ignoresLines : (standard contract).Offers IgnoresLines :=
  Offers.empty contract
    |>.define (ignoresLines_ofArgs _) |>.define (ignoresLines_ofArgs _) |>.define (ignoresLines_ofArgs _)
    |>.define (ignoresLines_ofArgs _) |>.define (ignoresLines_ofArgs _) |>.define ignoresLines_print
    |>.define (ignoresLines_ofArgs _) |>.define (ignoresLines_ofArgs _) |>.define (ignoresLines_ofArgs _)
    |>.define (ignoresLines_ofArgs _) |>.define ignoresLines_readFile |>.define ignoresLines_envVar
    |>.define (ignoresLines_log _) |>.define (ignoresLines_log _) |>.define (ignoresLines_log _)
    |>.define (ignoresLines_ofArgs _) |>.define (ignoresLines_ofArgs _)

/-- The functions of this library never say of a plugin that its entry point cannot be constructed. -/
theorem standard_blameless : (standard contract).Offers Blameless :=
  Offers.empty contract
    |>.define (fun _ _ _ => fair_signaled _) |>.define (fun _ _ _ => fair_ok _) |>.define blameless_length
    |>.define blameless_assert |>.define (fun _ _ _ => fair_ok _) |>.define (fun _ _ _ => fair_ok _)
    |>.define blameless_abs |>.define (blameless_choice _ _) |>.define (blameless_choice _ _)
    |>.define blameless_pow |>.define blameless_readFile |>.define blameless_envVar
    |>.define (fun _ _ _ => fair_ok _) |>.define (fun _ _ _ => fair_ok _) |>.define (fun _ _ _ => fair_ok _)
    |>.define (fun _ _ _ => fair_ok _) |>.define (fun _ _ _ => fair_ok _)

end Catalogue
end PluginSandbox
