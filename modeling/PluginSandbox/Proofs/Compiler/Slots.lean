import PluginSandbox.Proofs.Compiler.Apart
import PluginSandbox.Proofs.Compiler.Generated
import PluginSandbox.Proofs.Compiler.Scopes

/-!
# Compiled code sets every slot that it reads

Slots are taken by the generator alone: whatever the checker is answered, and whatever it finds wrong, the code of a
construct agrees with the scopes that can be read off its tree (`Generator.always_body`).  So every function that is
compiled uses its slots as it should, in whatever session and beside whatever other units (`Builtin.slots_compiled`).
-/

namespace PluginSandbox
namespace Checker

variable {α β : Type} {P : α → Prop} {Q : β → Prop}

/-- Whatever is answered, a check ends with such a result. -/
def Always (P : α → Prop) (c : Checker α) : Prop :=
  ∀ (m : Meaning) (bs : List Binding), P ((c.run bs).under m).1.1

theorem always_pure {a : α} (h : P a) : Always P (pure a) :=
  fun _ _ => h

theorem Always.bind {c : Checker α} {next : α → Checker β} (hc : Always P c)
    (hnext : ∀ a, P a → Always Q (next a)) : Always Q (c >>= next) := by
  intro m bs
  rw [StateT.run_bind, Query.under_bind]
  exact hnext _ (hc m bs) m _

/-- What comes in front does not matter. -/
theorem always_bind {c : Checker α} {next : α → Checker β} (hnext : ∀ a, Always Q (next a)) :
    Always Q (c >>= next) :=
  Always.bind (P := fun _ => True) (fun _ _ => trivial) fun a _ => hnext a

theorem always_mapM {R : α → β → Prop} {f : α → Checker β} (h : ∀ a, Always (R a) (f a)) (as : List α) :
    Always (List.Forall₂ R as) (as.mapM f) := by
  induction as with
  | nil =>
    rw [List.mapM_nil]
    exact always_pure .nil
  | cons a as ih =>
    rw [List.mapM_cons]
    exact (h a).bind fun b hb => ih.bind fun bs hbs => always_pure (.cons hb hbs)

end Checker

namespace Generator

open Checker

variable (ctx : UnitContext)

/-! ## Expressions -/

theorem always_placeholder (p : Position) (problem : CheckProblem) : Always Op.Plain (placeholder ctx p problem) :=
  always_bind fun _ => always_pure trivial

theorem always_callOp (scope : Scope) (name : String) (argc : Nat) (p : Position) :
    Always Op.Plain (callOp ctx scope name argc p) := by
  rw [callOp]
  split
  · exact always_placeholder ctx p _
  cases ctx.function? name with
  | some found => exact always_bind fun _ => always_pure trivial
  | none =>
    refine always_bind fun found => ?_
    rcases found with _ | ⟨location, unit | contract | symbol⟩
    · exact always_placeholder ctx p _
    · exact always_placeholder ctx p _
    · exact always_placeholder ctx p _
    · exact always_bind fun _ => always_pure trivial

theorem always_unitCallOp (unit target method : String) (argc : Nat) (p : Position) :
    Always Op.Plain (unitCallOp ctx unit target method argc p) := by
  rw [unitCallOp]
  split
  · cases ctx.function? method with
    | some found => exact always_bind fun _ => always_pure trivial
    | none => exact always_placeholder ctx p _
  · cases ctx.siblingArity? unit method with
    | some arity => exact always_bind fun _ => always_pure trivial
    | none => exact always_placeholder ctx p _

theorem always_memberCallOp (target method : String) (argc : Nat) (p : Position) :
    Always Op.Plain (memberCallOp ctx target method argc p) := by
  rw [memberCallOp]
  refine always_bind fun found => ?_
  rcases found with _ | ⟨location, unit | contract | symbol⟩
  · exact always_placeholder ctx p _
  · exact always_unitCallOp ctx _ target method argc p
  · exact always_placeholder ctx p _
  · exact always_placeholder ctx p _

mutual

/-- The code of an expression stays in the scope that it finds. -/
theorem always_expr (scope : Scope) : ∀ (e : Expr) (start : Nat),
    Always (InScope scope start e.operations) (expr ctx scope start e)
  | .int _ _, start | .str _ _, start | .bool _ _, start => by
    rw [expr]
    exact always_pure (.plain trivial)
  | .var name p, start => by
    rw [expr]
    cases hslot : scope.slot? name with
    | some slot => exact always_pure (.load hslot)
    | none => exact (always_placeholder ctx p _).bind fun op hop => always_pure (.plain hop)
  | .call name es p, start => by
    rw [expr]
    exact (always_args scope es start).bind fun code hcode =>
      (always_callOp ctx scope name _ p).bind fun op hop => always_pure (hcode.append (.plain hop))
  | .memberCall target method es p, start => by
    rw [expr]
    exact (always_args scope es start).bind fun code hcode =>
      (always_memberCallOp ctx target method _ p).bind fun op hop => always_pure (hcode.append (.plain hop))
  | .neg operand _, start | .not operand _, start => by
    rw [expr]
    exact (always_expr scope operand start).bind fun code hcode => always_pure (hcode.append (.plain trivial))
  | .binary op left right _, start => by
    rw [expr]
    exact (always_expr scope left start).bind fun l hl =>
      (always_expr scope right _).bind fun r hr => always_pure ((hl.append hr).append (.plain trivial))
  | .and left right _, start => by
    rw [expr]
    exact (always_expr scope left start).bind fun l hl =>
      (always_expr scope right _).bind fun r hr => always_pure (hl.and hr)
  | .or left right _, start => by
    rw [expr]
    exact (always_expr scope left start).bind fun l hl =>
      (always_expr scope right _).bind fun r hr => always_pure (hl.or hr)

theorem always_args (scope : Scope) : ∀ (es : List Expr) (start : Nat),
    Always (InScope scope start (argsOperations es)) (args ctx scope start es)
  | [], start => by
    rw [args]
    exact always_pure .nil
  | e :: rest, start => by
    rw [args]
    exact (always_expr scope e start).bind fun code hcode =>
      (always_args scope rest _).bind fun more hmore => always_pure (hcode.append hmore)

end

/-! ## Statements -/

mutual

/-- The code of a statement has the scopes that can be read off the statement. -/
theorem always_stmt : ∀ (s : Stmt) {scope : Scope}, scope.Ordered → ∀ start : Nat,
    Always (fun r => r.2 = s.behind scope ∧ InScopes (s.scopes scope) (s.behind scope) start r.1)
      (stmt ctx scope start s)
  | .declare name value p, scope, _, start => by
    rw [stmt]
    exact (always_expr ctx scope value start).bind fun code hcode => always_pure ⟨rfl, .declare hcode name⟩
  | .assign name value p, scope, hscope, start => by
    rw [stmt]
    refine (always_expr ctx scope value start).bind fun code hcode => ?_
    cases hslot : scope.slot? name with
    | some slot => exact always_pure ⟨rfl, .assign hcode hscope hslot⟩
    | none => exact always_bind fun _ => always_pure ⟨rfl, .plain hcode trivial⟩
  | .branch condition thenBody elseBody, scope, hscope, start => by
    rw [stmt]
    refine (always_expr ctx scope condition start).bind fun c hc =>
      (always_body thenBody hscope _).bind fun thenResult hthen => ?_
    obtain ⟨t, afterThen⟩ := thenResult
    obtain ⟨hafterThen, ht⟩ := hthen
    obtain rfl : afterThen = bodyBehind scope thenBody := hafterThen
    have hafter := (grows_bodyBehind thenBody scope).leave.ordered hscope
    refine (always_optionalBody elseBody hafter _).bind fun elseResult helse => ?_
    obtain ⟨e, afterElse⟩ := elseResult
    obtain ⟨hafterElse, he⟩ := helse
    obtain rfl : afterElse = optionalBehind _ elseBody := hafterElse
    exact always_pure ⟨rfl, .branch hc ht he⟩
  | .loop condition loopBody, scope, hscope, start => by
    rw [stmt]
    refine (always_expr ctx scope condition start).bind fun c hc =>
      (always_body loopBody hscope _).bind fun result hbody => ?_
    obtain ⟨b, afterBody⟩ := result
    obtain ⟨hafterBody, hb⟩ := hbody
    obtain rfl : afterBody = bodyBehind scope loopBody := hafterBody
    exact always_pure ⟨rfl, .loop hc hb⟩
  | .ret none p, scope, _, start => by
    rw [stmt]
    have hunit : (Op.const .unit).Plain := trivial
    exact always_pure ⟨rfl, .ret (.plain hunit)⟩
  | .ret (some value) p, scope, _, start => by
    rw [stmt]
    exact (always_expr ctx scope value start).bind fun code hcode => always_pure ⟨rfl, .ret hcode⟩
  | .expr value, scope, _, start => by
    rw [stmt]
    exact (always_expr ctx scope value start).bind fun code hcode => always_pure ⟨rfl, .plain hcode trivial⟩

theorem always_body : ∀ (stmts : List Stmt) {scope : Scope}, scope.Ordered → ∀ start : Nat,
    Always (fun r => r.2 = bodyBehind scope stmts ∧
        InScopes (bodyScopes scope stmts) (bodyBehind scope stmts) start r.1)
      (body ctx scope start stmts)
  | [], scope, _, start => by
    rw [body]
    exact always_pure ⟨rfl, .nil⟩
  | s :: rest, scope, hscope, start => by
    rw [body]
    refine (always_stmt s hscope start).bind fun first hfirst => ?_
    obtain ⟨code, between⟩ := first
    obtain ⟨hbetween, hcode⟩ := hfirst
    obtain rfl : between = s.behind scope := hbetween
    exact (always_body rest ((s.grows_behind scope).ordered hscope) _).bind fun r hr =>
      always_pure ⟨hr.1, hcode.cons hr.2⟩

theorem always_optionalBody : ∀ (stmts : Option (List Stmt)) {scope : Scope}, scope.Ordered → ∀ start : Nat,
    Always (fun r => r.2 = optionalBehind scope stmts ∧
        InScopes (optionalScopes scope stmts) (optionalBehind scope stmts) start r.1)
      (optionalBody ctx scope start stmts)
  | none, scope, _, start => by
    rw [optionalBody]
    exact always_pure ⟨rfl, .nil⟩
  | some stmts, scope, hscope, start => by
    rw [optionalBody]
    exact always_body stmts hscope start

end

/-! ## Functions -/

theorem always_paramScope (params : List (String × Position)) (scope : Scope) :
    Always (fun after => after = scope.declareAll params) (paramScope ctx scope params) := by
  induction params generalizing scope with
  | nil => exact always_pure rfl
  | cons param rest ih =>
    obtain ⟨name, p⟩ := param
    rw [paramScope]
    split
    · exact always_bind fun _ => ih _
    · exact ih _

/-- Whatever the generator makes of a function uses its slots as it should. -/
theorem always_function (decl : FunctionDecl) : Always decl.KeepsSlots (function ctx decl) := by
  rw [function]
  refine (always_paramScope ctx decl.params .empty).bind fun scope hscope => ?_
  obtain rfl : scope = decl.paramScope := hscope
  refine (always_body ctx decl.body decl.ordered_paramScope 0).bind fun result hbody => ?_
  obtain ⟨code, after⟩ := result
  obtain ⟨hafter, hcode⟩ := hbody
  obtain rfl : after = bodyBehind decl.paramScope decl.body := hafter
  exact always_pure (FunctionDecl.keepsSlots hcode rfl rfl rfl)

end Generator

namespace Checker

/-- What remains to be done of a plugin behind its checks. -/
theorem always_functions (ctx : UnitContext) (decls : List FunctionDecl) (contract : Option ContractType) :
    Always (fun compiled : Option Module => ∀ m ∈ compiled,
        List.Forall₂ FunctionDecl.KeepsSlots decls m.functions.toList)
      (do
        let functions ← decls.mapM (Generator.function ctx)
        warnUnused ctx.unit
        return contract.map fun contract =>
          { formatVersion := Module.currentVersion, name := ctx.unit.qualifiedName
            contract := contract.qualifiedName, functions := functions.toArray }) := by
  refine (always_mapM (Generator.always_function ctx) decls).bind fun functions hfunctions =>
    always_bind fun _ => always_pure fun m hm => ?_
  obtain ⟨contract, _, rfl⟩ := Option.map_eq_some_iff.1 hm
  rwa [List.toList_toArray]

/-- Whatever the checker makes of a unit uses its slots as it should. -/
theorem always_unit (u : PluginUnit) (siblings : Signatures) (parsed : ParsedUnit) :
    Always (fun compiled => ∀ m ∈ compiled,
      List.Forall₂ FunctionDecl.KeepsSlots parsed.functions m.functions.toList) (unit u siblings parsed) := by
  rw [unit]
  refine always_bind fun _ => always_bind fun _ => ?_
  cases hplugin : parsed.plugin with
  | none => exact always_bind fun _ => always_bind fun _ => always_pure (by simp)
  | some decl =>
    have hfunctions : parsed.functions = decl.functions := by rw [ParsedUnit.functions, hplugin]
    rw [hfunctions]
    show Always _ (plugin u siblings parsed decl)
    rw [plugin]
    split
    · exact always_bind fun _ => always_bind fun contract => always_bind fun _ => always_bind fun _ =>
        always_functions { unit := u, functions := parsed.signatures, siblings } decl.functions contract
    · exact always_bind fun contract => always_bind fun _ => always_bind fun _ =>
        always_functions { unit := u, functions := parsed.signatures, siblings } decl.functions contract

variable {m : Meaning} {bs bs' : List Binding}

/-- A unit that passes has a compiled form. -/
theorem isSome_of_passes_unit {u : PluginUnit} {siblings : Signatures} {parsed : ParsedUnit}
    {compiled : Option Module} (h : Passes m (unit u siblings parsed) bs compiled bs') : compiled.isSome = true := by
  rw [unit] at h
  obtain ⟨_, _, _, himports⟩ := passes_bind.1 h
  obtain ⟨_, _, _, hplugin⟩ := passes_bind.1 himports
  cases hdecl : parsed.plugin with
  | none =>
    rw [hdecl] at hplugin
    obtain ⟨_, _, hreport, _⟩ := passes_bind.1 hplugin
    exact absurd rfl (passes_report.1 hreport).1
  | some decl =>
    rw [hdecl] at hplugin
    replace hplugin : Passes m (plugin u siblings parsed decl) _ _ _ := hplugin
    rw [plugin] at hplugin
    obtain ⟨contract, _, hsupertype, hchecks⟩ := passes_bind.1 ((passes_report_if rfl).1 hplugin).2
    rw [supertype] at hsupertype
    obtain ⟨_, _, _, hcontract⟩ := passes_bind.1 hsupertype
    obtain ⟨_, _, _, _, rfl⟩ := passes_contractOf hcontract
    obtain ⟨_, _, _, hentry⟩ := passes_bind.1 hchecks
    obtain ⟨_, _, _, hfunctions⟩ := passes_bind.1 hentry
    obtain ⟨_, _, _, hunused⟩ := passes_bind.1 hfunctions
    obtain ⟨_, _, _, hpure⟩ := passes_bind.1 hunused
    obtain ⟨rfl, _⟩ := passes_pure.1 hpure
    rfl

end Checker

namespace Builtin

/-- The functions of a unit that is compiled, whatever names mean. -/
theorem keepsSlots_checked (m : Meaning) (units : List PluginUnit) : ∀ c ∈ (checked m units).1, c.1 ∈ units ∧
    List.Forall₂ FunctionDecl.KeepsSlots (ParsedUnit.ofSource c.1.source).1.functions c.2.functions.toList := by
  rw [checked_eq]
  intro c hc
  obtain ⟨u, hu, hcompiled⟩ := List.mem_filterMap.1 hc
  obtain ⟨compiled, houtcome, rfl⟩ := Option.map_eq_some_iff.1 hcompiled
  exact ⟨hu, Checker.always_unit u _ _ m [] compiled houtcome⟩

/-- Where nothing is found to be an error, every unit is compiled, in order. -/
theorem map_fst_checked {m : Meaning} {units : List PluginUnit}
    (hquiet : hasErrors (findings m units).toArray = false) : (checked m units).1.map Prod.fst = units := by
  have hall : ∀ u ∈ units, ((outcome m (signatures units) u).1.map (u, ·)).map Prod.fst = some u := by
    intro u hu
    obtain ⟨_, compiled, bs, hpasses⟩ := (hasErrors_findings_eq_false m units).1 hquiet u hu
    obtain ⟨module, rfl⟩ := Option.isSome_iff_exists.1 (Checker.isSome_of_passes_unit hpasses)
    rw [outcome, hpasses.1]
    rfl
  rw [checked_eq, List.map_filterMap, List.filterMap_congr hall, List.filterMap_some]

/-! ## What is written -/

/-- Writing the output of a unit changes nothing else in the store, also where it is refused. -/
theorem artifacts_write (u : PluginUnit) (m : Module) (w : Workspace) : ∃ w', (write u m).run w = (.done (), w') ∧
    w'.resolver.artifacts = w.resolver.artifacts.output u.qualifiedName m.encode := by
  obtain ⟨trail, houtput⟩ := run_output u m w
  rw [write, Compilation.run_bind_of_done houtput]
  cases ((w.resolver.artifacts.ensure u.qualifiedName).write u.qualifiedName m.encode).1 with
  | ok _ => exact ⟨_, rfl, rfl⟩
  | error e => exact ⟨_, rfl, rfl⟩

theorem artifacts_writes (modules : List (PluginUnit × Module)) (w : Workspace) :
    ∃ w', (modules.forM fun (u, m) => write u m).run w = (.done (), w') ∧
      w'.resolver.artifacts = outputs modules w.resolver.artifacts := by
  induction modules generalizing w with
  | nil => exact ⟨w, rfl, rfl⟩
  | cons first modules ih =>
    obtain ⟨between, hfirst, hartifacts⟩ := artifacts_write first.1 first.2 w
    obtain ⟨w', hrest, houtputs⟩ := ih between
    refine ⟨w', ?_, by rw [houtputs, hartifacts]; rfl⟩
    rw [Compilation.forM_cons]
    exact (Compilation.run_bind_of_done hfirst _).trans hrest

/-- What is written is all output, or none if anything was an error before. -/
theorem artifacts_writeAll (modules : List (PluginUnit × Module)) (w : Workspace) :
    ((writeAll modules).run w).2.resolver.artifacts =
      outputs (if hasErrors w.diagnostics then [] else modules) w.resolver.artifacts ∧
      (((writeAll modules).run w).1 = .done true → hasErrors w.diagnostics = false) := by
  rw [writeAll, Compilation.run_bind_of_done (run_anyErrors w)]
  cases hasErrors w.diagnostics with
  | true => exact ⟨rfl, fun hdone => Bool.noConfusion (CompilationEnd.done.inj hdone)⟩
  | false =>
    obtain ⟨w', hwrites, hartifacts⟩ := artifacts_writes modules w
    refine ⟨?_, fun _ => rfl⟩
    rw [if_neg Bool.false_ne_true, if_neg Bool.false_ne_true, Compilation.run_bind_of_done hwrites,
      Compilation.run_bind_of_done (run_anyErrors w'), Compilation.run_pure, hartifacts]

/-- **Slots are set before they are read.**  Compiling units, in any session, leaves behind the output of some modules,
and of one for each unit where no error is reported; every function of such a module uses its slots as it should. -/
theorem slots_compiled (units : List PluginUnit) (w : Workspace) :
    ∃ modules : List (PluginUnit × Module),
      ((compile units).run w).2.resolver.artifacts = outputs modules w.resolver.artifacts ∧
      (((compile units).run w).1 = .done true → modules.map Prod.fst = units) ∧
      ∀ c ∈ modules, c.1 ∈ units ∧
        List.Forall₂ FunctionDecl.KeepsSlots (ParsedUnit.ofSource c.1.source).1.functions c.2.functions.toList := by
  obtain ⟨decisions, trail, hcompile⟩ := run_compile_eq units w
  let found := w.diagnostics ++ (findings w.resolver.meaning units).toArray
  obtain ⟨hartifacts, hquiet⟩ := artifacts_writeAll (checked w.resolver.meaning units).1
    { resolver := { w.resolver with decisions, trail }, diagnostics := found }
  rw [hcompile]
  refine ⟨_, hartifacts, fun hdone => ?_, fun c hc => ?_⟩
  · have hnone : hasErrors found = false := hquiet hdone
    have hfindings := hnone
    rw [hasErrors_append, Bool.or_eq_false_iff] at hfindings
    rw [if_neg (Bool.eq_false_iff.1 hnone), map_fst_checked hfindings.2]
  · split at hc
    · exact absurd hc (List.not_mem_nil)
    · exact keepsSlots_checked w.resolver.meaning units c hc

end Builtin

/-! ## A loop and a branch -/

/-- A unit with variables of one name in a loop and in a branch. -/
def PluginUnit.tallying : PluginUnit where
  qualifiedName := "tally.Tally"
  shortName := "Tally"
  package := "tally"
  source := "import contract.Plugin; plugin Tally: Plugin \x7b fn tally(limit) \x7b let sum = 0; " ++
    "while sum < limit \x7b let step = 1; sum = sum + step; \x7d " ++
    "if sum == limit \x7b let step = 2; return step; \x7d return sum; \x7d " ++
    "fn execute() \x7b return tally(3); \x7d \x7d"
  isDotted := by decide +kernel
  parts_eq := by decide +kernel
  source_le := by decide +kernel

namespace Builtin

/-- A workspace for that unit, where the platform has no functions. -/
def tallyingWorkspace : Workspace where
  resolver :=
    { catalogue := .empty defaultContract, policy := .ofConfiguration .default, correlation := default
      clock := .still default, units := [.tallying] }

/-- The unit is compiled, and its variables of one name are in slots of their own. -/
theorem slots_compiled_tallying :
    ((compile [.tallying]).run tallyingWorkspace).1 = .done true ∧
      ∃ m : Module, ((compile [.tallying]).run tallyingWorkspace).2.resolver.artifacts =
          outputs [(.tallying, m)] tallyingWorkspace.resolver.artifacts ∧
        List.Forall₂ FunctionDecl.KeepsSlots (ParsedUnit.ofSource PluginUnit.tallying.source).1.functions
          m.functions.toList ∧
        m.functions.toList.map Function.locals = [4, 0] := by
  have hdone : ((compile [.tallying]).run tallyingWorkspace).1 = .done true := by
    obtain ⟨decisions, trail, hrun⟩ := run_compile tallyingWorkspace.resolver [.tallying] ArtifactStore.open_empty
    have hquiet : hasErrors (findings tallyingWorkspace.resolver.meaning [.tallying]).toArray = false := by
      decide +kernel
    rw [hquiet] at hrun
    exact congrArg Prod.fst hrun
  obtain ⟨modules, hartifacts, hunits, hkeeps⟩ := slots_compiled [.tallying] tallyingWorkspace
  obtain ⟨⟨u, m⟩, rfl, hu⟩ := List.map_eq_singleton_iff.1 (hunits hdone)
  obtain rfl : u = .tallying := hu
  have hslots := (hkeeps _ List.mem_cons_self).2
  have hlocals : (ParsedUnit.ofSource PluginUnit.tallying.source).1.functions.map
      (fun decl => decl.params.length + bodyLets decl.body) = m.functions.toList.map Function.locals := by
    rw [← List.forall₂_eq_eq_eq, List.forall₂_map_left_iff, List.forall₂_map_right_iff]
    exact hslots.imp fun _ _ h => h.locals.symm
  refine ⟨hdone, m, hartifacts, hslots, hlocals.symm.trans ?_⟩
  decide +kernel

end Builtin
end PluginSandbox
