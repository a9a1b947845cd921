import PluginSandbox.Proofs.Compiler.Passes
import PluginSandbox.Proofs.Language.Places

/-!
# A unit beside others

All that the checker uses of the units beside the one it is at is how many arguments their functions take, looked
up by name.  So it makes the same of a unit wherever these numbers are the same, and whatever it reports points into
the text of that unit (`Checker.alike_ofSource`).

Both are said of two checks at once: that they are the same, and that whatever they report has some property
(`Checker.Alike`).  A property that depends on the place of a report is one that all reports at places of the text
have.  The places come from the tree and from the imports that the checker remembers, so these have to stand in the
text, and every check leaves imports behind that do.
-/

namespace PluginSandbox

/-- What the generator knows of a unit beside others. -/
def UnitContext.beside (ctx : UnitContext) (siblings : Signatures) : UnitContext :=
  { ctx with siblings }

/-- Whatever is reported of a unit at a place of its text has a property, and the functions of the others are found
alike. -/
structure UnitContext.Unmoved (ctx : UnitContext) (siblings : Signatures) (text : List Char)
    (P : Diagnostic → Prop) : Prop where
  reports : ∀ (p : Position) problem, p.IsIn text → P (CheckProblem.diagnostic problem ctx.unit.qualifiedName p)
  found : ∀ unit name, ctx.siblingArity? unit name = (ctx.beside siblings).siblingArity? unit name

namespace Checker

variable {α β : Type} {text : List Char} {P : Diagnostic → Prop}

/-- The imports that are remembered stand in a text. -/
def StandIn (text : List Char) (bs : List Binding) : Prop :=
  ∀ b ∈ bs, b.decl.position.IsIn text

/-- Two checks are the same.  Among imports that stand in a text they leave such imports, and whatever they report
has a property. -/
structure Alike (text : List Char) (P : Diagnostic → Prop) (c c' : Checker α) : Prop where
  same : c = c'
  keeps : ∀ (m : Meaning) (bs : List Binding), StandIn text bs → StandIn text ((c.run bs).under m).1.2
  reports : ∀ (m : Meaning) (bs : List Binding), StandIn text bs → ∀ d ∈ ((c.run bs).under m).2, P d

theorem Alike.bind {c c' : Checker α} (hc : Alike text P c c') {next next' : α → Checker β}
    (hnext : ∀ a, Alike text P (next a) (next' a)) : Alike text P (c >>= next) (c' >>= next') := by
  obtain ⟨rfl, hkeeps, hreports⟩ := hc
  obtain rfl : next = next' := funext fun a => (hnext a).same
  refine ⟨rfl, fun m bs hbs => ?_, fun m bs hbs d hd => ?_⟩
  · rw [StateT.run_bind, Query.under_bind]
    exact (hnext _).keeps m _ (hkeeps m bs hbs)
  · rw [StateT.run_bind, Query.under_bind] at hd
    rcases List.mem_append.1 hd with hd | hd
    · exact hreports m bs hbs d hd
    · exact (hnext _).reports m _ (hkeeps m bs hbs) d hd

theorem alike_pure (a : α) : Alike text P (pure a) (pure a) :=
  ⟨rfl, fun _ _ hbs => hbs, fun _ _ _ _ hd => absurd hd List.not_mem_nil⟩

theorem alike_ask (question : Question) : Alike text P (ask question) (ask question) :=
  ⟨rfl, fun _ _ hbs => hbs, fun _ _ _ _ hd => absurd hd List.not_mem_nil⟩

/-- What is done with the imports that are remembered, which stand in the text. -/
theorem alike_get_bind {next : List Binding → Checker β}
    (hnext : ∀ bs, StandIn text bs → Alike text P (next bs) (next bs)) :
    Alike text P (get >>= next) (get >>= next) :=
  ⟨rfl, fun m bs hbs => (hnext bs hbs).keeps m bs hbs, fun m bs hbs => (hnext bs hbs).reports m bs hbs⟩

theorem alike_modify {f : List Binding → List Binding} (hf : ∀ bs, StandIn text bs → StandIn text (f bs)) :
    Alike text P (modify f) (modify f) :=
  ⟨rfl, fun _ bs hbs => hf bs hbs, fun _ _ _ _ hd => absurd hd List.not_mem_nil⟩

theorem alike_report {unit : PluginUnit} (p : Position) (problem : CheckProblem)
    (h : P (problem.diagnostic unit.qualifiedName p)) :
    Alike text P (report unit p problem) (report unit p problem) :=
  ⟨rfl, fun _ _ hbs => hbs, fun _ _ _ _ hd => List.mem_singleton.1 hd ▸ h⟩

/-! ## Looking names up -/

theorem alike_findAnywhere (package name : String) :
    Alike text P (findAnywhere package name) (findAnywhere package name) := by
  rw [findAnywhere]
  refine (alike_ask _).bind fun found => ?_
  cases found with
  | some found => exact alike_pure _
  | none => exact alike_ask _

theorem alike_imported (name : String) : Alike text P (imported name) (imported name) := by
  have hused : ∀ bs, StandIn text bs →
      StandIn text (bs.map fun b => if bindsName name b then { b with used := true } else b) := by
    intro bs hbs b hb
    obtain ⟨unused, hunused, rfl⟩ := List.mem_map.1 hb
    split
    · exact hbs unused hunused
    · exact hbs unused hunused
  rw [imported]
  refine alike_get_bind fun bs _ => ?_
  cases bs.find? (bindsName name) with
  | none => exact alike_pure _
  | some b => exact (alike_modify hused).bind fun _ => alike_pure _

theorem alike_findOwn (unit : PluginUnit) (name : String) :
    Alike text P (findOwn unit name) (findOwn unit name) := by
  rw [findOwn]
  refine (alike_imported name).bind fun found => ?_
  cases found with
  | some found => exact alike_pure _
  | none => exact alike_ask _

end Checker

/-! ## Generating code -/

namespace Generator

open Checker

variable {text : List Char} {P : Diagnostic → Prop} {ctx : UnitContext} {siblings : Signatures} {p : Position}

theorem alike_placeholder (h : ctx.Unmoved siblings text P) (hp : p.IsIn text) (problem : CheckProblem) :
    Alike text P (placeholder ctx p problem) (placeholder ctx p problem) :=
  (alike_report p problem (h.reports p problem hp)).bind fun _ => alike_pure _

theorem alike_checkArity (h : ctx.Unmoved siblings text P) (hp : p.IsIn text) (function : String)
    (expected supplied : Nat) :
    Alike text P (checkArity ctx p function expected supplied) (checkArity ctx p function expected supplied) := by
  rw [checkArity]
  split
  · exact alike_report _ _ (h.reports _ _ hp)
  · exact alike_pure _

theorem alike_arity_bind (h : ctx.Unmoved siblings text P) (hp : p.IsIn text) (function : String)
    (expected supplied : Nat) (op : Op) :
    Alike text P (do checkArity ctx p function expected supplied; return op)
      (do checkArity ctx p function expected supplied; return op) :=
  (alike_checkArity h hp function expected supplied).bind fun _ => alike_pure _

theorem alike_callOp (h : ctx.Unmoved siblings text P) (scope : Scope) (name : String) (argc : Nat)
    (hp : p.IsIn text) :
    Alike text P (callOp ctx scope name argc p) (callOp (ctx.beside siblings) scope name argc p) := by
  -- A call without a target never looks at another unit.
  show Alike text P (callOp ctx scope name argc p) (callOp ctx scope name argc p)
  rw [callOp]
  split
  · exact alike_placeholder h hp _
  cases ctx.function? name with
  | some found => exact alike_arity_bind h hp _ _ _ _
  | none =>
    have hcallee : Alike text P (findCallee ctx name) (findCallee ctx name) := by
      refine (alike_findOwn _ _).bind fun found => ?_
      cases found with
      | some found => exact alike_pure _
      | none => exact alike_ask _
    refine hcallee.bind fun found => ?_
    rcases found with _ | ⟨location, unit | contract | symbol⟩
    · exact alike_placeholder h hp _
    · exact alike_placeholder h hp _
    · exact alike_placeholder h hp _
    · exact alike_arity_bind h hp _ _ _ _

theorem alike_unitCallOp (h : ctx.Unmoved siblings text P) (unit target method : String) (argc : Nat)
    (hp : p.IsIn text) :
    Alike text P (unitCallOp ctx unit target method argc p)
      (unitCallOp (ctx.beside siblings) unit target method argc p) := by
  have hunit : (ctx.beside siblings).unit = ctx.unit := rfl
  have hfunction : (ctx.beside siblings).function? method = ctx.function? method := rfl
  rw [unitCallOp, unitCallOp, hunit, hfunction, ← h.found]
  split
  · cases ctx.function? method with
    | some found => exact alike_arity_bind h hp _ _ _ _
    | none => exact alike_placeholder h hp _
  · cases ctx.siblingArity? unit method with
    | some arity => exact alike_arity_bind h hp _ _ _ _
    | none => exact alike_placeholder h hp _

theorem alike_memberCallOp (h : ctx.Unmoved siblings text P) (target method : String) (argc : Nat)
    (hp : p.IsIn text) :
    Alike text P (memberCallOp ctx target method argc p)
      (memberCallOp (ctx.beside siblings) target method argc p) := by
  rw [memberCallOp, memberCallOp]
  refine (alike_findOwn ctx.unit target).bind fun found => ?_
  rcases found with _ | ⟨location, unit | contract | symbol⟩
  · exact alike_placeholder h hp _
  · exact alike_unitCallOp h _ _ _ _ hp
  · exact alike_placeholder h hp _
  · exact alike_placeholder h hp _

mutual

/-- The code of an expression is the same beside others. -/
theorem alike_expr (h : ctx.Unmoved siblings text P) (scope : Scope) (start : Nat) :
    ∀ e : Expr, e.StandsIn text →
      Alike text P (expr ctx scope start e) (expr (ctx.beside siblings) scope start e)
  | .int value p, _ => by
    rw [expr, expr]
    exact alike_pure _
  | .str text p, _ => by
    rw [expr, expr]
    exact alike_pure _
  | .bool value p, _ => by
    rw [expr, expr]
    exact alike_pure _
  | .var name p, hp => by
    rw [expr, expr]
    cases scope.slot? name with
    | some slot => exact alike_pure _
    | none => exact (alike_placeholder h hp _).bind fun _ => alike_pure _
  | .call name es p, ⟨hp, hes⟩ => by
    rw [expr, expr]
    exact (alike_args h scope start es hes).bind fun _ =>
      (alike_callOp h scope name es.length hp).bind fun _ => alike_pure _
  | .memberCall target method es p, ⟨hp, hes⟩ => by
    rw [expr, expr]
    exact (alike_args h scope start es hes).bind fun _ =>
      (alike_memberCallOp h target method es.length hp).bind fun _ => alike_pure _
  | .neg operand p, ⟨_, hoperand⟩ => by
    rw [expr, expr]
    exact (alike_expr h scope start operand hoperand).bind fun _ => alike_pure _
  | .not operand p, ⟨_, hoperand⟩ => by
    rw [expr, expr]
    exact (alike_expr h scope start operand hoperand).bind fun _ => alike_pure _
  | .binary op left right p, ⟨_, hleft, hright⟩ => by
    rw [expr, expr]
    exact (alike_expr h scope start left hleft).bind fun _ =>
      (alike_expr h scope _ right hright).bind fun _ => alike_pure _
  | .and left right p, ⟨_, hleft, hright⟩ => by
    rw [expr, expr]
    exact (alike_expr h scope start left hleft).bind fun _ =>
      (alike_expr h scope _ right hright).bind fun _ => alike_pure _
  | .or left right p, ⟨_, hleft, hright⟩ => by
    rw [expr, expr]
    exact (alike_expr h scope start left hleft).bind fun _ =>
      (alike_expr h scope _ right hright).bind fun _ => alike_pure _

theorem alike_args (h : ctx.Unmoved siblings text P) (scope : Scope) (start : Nat) :
    ∀ es : List Expr, ArgsStandIn text es →
      Alike text P (args ctx scope start es) (args (ctx.beside siblings) scope start es)
  | [], _ => by
    rw [args, args]
    exact alike_pure _
  | e :: rest, ⟨he, hrest⟩ => by
    rw [args, args]
    exact (alike_expr h scope start e he).bind fun _ =>
      (alike_args h scope _ rest hrest).bind fun _ => alike_pure _

end

mutual

/-- The code of a statement is the same beside others. -/
theorem alike_stmt (h : ctx.Unmoved siblings text P) :
    ∀ (s : Stmt) (scope : Scope) (start : Nat), s.StandsIn text →
      Alike text P (stmt ctx scope start s) (stmt (ctx.beside siblings) scope start s)
  | .declare name value p, scope, start, ⟨_, hvalue⟩ => by
    rw [stmt, stmt]
    exact (alike_expr h scope start value hvalue).bind fun _ => alike_pure _
  | .assign name value p, scope, start, ⟨hp, hvalue⟩ => by
    rw [stmt, stmt]
    refine (alike_expr h scope start value hvalue).bind fun _ => ?_
    cases scope.slot? name with
    | some slot => exact alike_pure _
    | none => exact (alike_report _ _ (h.reports _ _ hp)).bind fun _ => alike_pure _
  | .branch condition thenBody elseBody, scope, start, ⟨hcondition, hthen, helse⟩ => by
    rw [stmt, stmt]
    exact (alike_expr h scope start condition hcondition).bind fun _ =>
      (alike_body h thenBody scope _ hthen).bind fun _ =>
        (alike_optionalBody h elseBody _ _ helse).bind fun _ => alike_pure _
  | .loop condition loopBody, scope, start, ⟨hcondition, hbody⟩ => by
    rw [stmt, stmt]
    exact (alike_expr h scope start condition hcondition).bind fun _ =>
      (alike_body h loopBody scope _ hbody).bind fun _ => alike_pure _
  | .ret none p, scope, start, _ => by
    rw [stmt, stmt]
    exact alike_pure _
  | .ret (some value) p, scope, start, ⟨_, hvalue⟩ => by
    rw [stmt, stmt]
    exact (alike_expr h scope start value hvalue).bind fun _ => alike_pure _
  | .expr value, scope, start, hvalue => by
    rw [stmt, stmt]
    exact (alike_expr h scope start value hvalue).bind fun _ => alike_pure _

theorem alike_body (h : ctx.Unmoved siblings text P) :
    ∀ (stmts : List Stmt) (scope : Scope) (start : Nat), BodyStandsIn text stmts →
      Alike text P (body ctx scope start stmts) (body (ctx.beside siblings) scope start stmts)
  | [], scope, start, _ => by
    rw [body, body]
    exact alike_pure _
  | s :: rest, scope, start, ⟨hs, hrest⟩ => by
    rw [body, body]
    exact (alike_stmt h s scope start hs).bind fun _ =>
      (alike_body h rest _ _ hrest).bind fun _ => alike_pure _

theorem alike_optionalBody (h : ctx.Unmoved siblings text P) :
    ∀ (stmts : Option (List Stmt)) (scope : Scope) (start : Nat), OptionalStandsIn text stmts →
      Alike text P (optionalBody ctx scope start stmts) (optionalBody (ctx.beside siblings) scope start stmts)
  | none, scope, start, _ => by
    rw [optionalBody, optionalBody]
    exact alike_pure _
  | some stmts, scope, start, hstmts => by
    rw [optionalBody, optionalBody]
    exact alike_body h stmts scope start hstmts

end

theorem alike_paramScope (h : ctx.Unmoved siblings text P) {params : List (String × Position)}
    (hparams : ∀ param ∈ params, param.2.IsIn text) (scope : Scope) :
    Alike text P (paramScope ctx scope params) (paramScope (ctx.beside siblings) scope params) := by
  induction params generalizing scope with
  | nil => exact alike_pure _
  | cons param rest ih =>
    obtain ⟨name, p⟩ := param
    obtain ⟨hp, hrest⟩ := List.forall_mem_cons.1 hparams
    rw [paramScope, paramScope]
    by_cases hslot : (scope.slot? name).isSome = true
    · rw [if_pos hslot, if_pos hslot]
      exact (alike_report _ _ (h.reports _ _ hp)).bind fun _ => ih hrest _
    · rw [if_neg hslot, if_neg hslot]
      exact ih hrest _

theorem alike_function (h : ctx.Unmoved siblings text P) {decl : FunctionDecl} (hdecl : decl.StandsIn text) :
    Alike text P (function ctx decl) (function (ctx.beside siblings) decl) := by
  rw [function, function]
  exact (alike_paramScope h hdecl.params .empty).bind fun scope =>
    (alike_body h decl.body scope 0 hdecl.body).bind fun _ => alike_pure _

theorem alike_functions (h : ctx.Unmoved siblings text P) {decls : List FunctionDecl}
    (hdecls : ∀ decl ∈ decls, decl.StandsIn text) :
    Alike text P (decls.mapM (function ctx)) (decls.mapM (function (ctx.beside siblings))) := by
  induction decls with
  | nil => exact alike_pure _
  | cons decl decls ih =>
    obtain ⟨hdecl, hrest⟩ := List.forall_mem_cons.1 hdecls
    rw [List.mapM_cons, List.mapM_cons]
    exact (alike_function h hdecl).bind fun _ => (ih hrest).bind fun _ => alike_pure _

end Generator

/-! ## Units -/

namespace Checker

variable {text : List Char} {P : Diagnostic → Prop} {u : PluginUnit} {p : Position}

section
variable (hP : ∀ (p : Position) problem, p.IsIn text → P (CheckProblem.diagnostic problem u.qualifiedName p))
include hP

theorem alike_bindImport {i : Import} (hi : i.position.IsIn text) :
    Alike text P (bindImport u i) (bindImport u i) := by
  have hbound : ∀ target bs, StandIn text bs → StandIn text (bs ++ [{ decl := i, target, used := false }]) := by
    intro target bs hbs b hb
    rcases List.mem_append.1 hb with hb | hb
    · exact hbs b hb
    · exact List.mem_singleton.1 hb ▸ hi
  rw [bindImport]
  refine alike_get_bind fun bs _ => ?_
  split
  · exact alike_report _ _ (hP _ _ hi)
  · refine (alike_findAnywhere _ _).bind fun target => ?_
    dsimp only
    split
    · exact (alike_report _ _ (hP _ _ hi)).bind fun _ => alike_modify (hbound target)
    · exact alike_modify (hbound target)

theorem alike_bindImports {imports : List Import} (himports : ∀ i ∈ imports, i.position.IsIn text) :
    Alike text P (imports.forM (bindImport u)) (imports.forM (bindImport u)) := by
  induction imports with
  | nil => exact alike_pure _
  | cons i imports ih =>
    obtain ⟨hi, hrest⟩ := List.forall_mem_cons.1 himports
    exact (alike_bindImport hP hi).bind fun _ => ih hrest

theorem alike_warnUnused : Alike text P (warnUnused u) (warnUnused u) := by
  have hamong : ∀ bs, StandIn text bs → Alike text P (warnUnusedAmong u bs) (warnUnusedAmong u bs) := by
    intro bs hbs
    induction bs with
    | nil => exact alike_pure _
    | cons b rest ih =>
      obtain ⟨hb, hrest⟩ := List.forall_mem_cons.1 hbs
      rw [warnUnusedAmong]
      split
      · exact (alike_report _ _ (hP _ _ hb)).bind fun _ => ih hrest
      · exact ih hrest
  exact alike_get_bind hamong

theorem alike_supertype (path : List String) (hp : p.IsIn text) :
    Alike text P (supertype u path p) (supertype u path p) := by
  have hentry : Alike text P (supertypeEntry u path) (supertypeEntry u path) := by
    match path with
    | [] => exact alike_ask _
    | [name] => exact alike_findOwn u name
    | first :: second :: rest => exact alike_ask _
  refine hentry.bind fun found => ?_
  rcases found with _ | ⟨location, unit | contract | symbol⟩
  · exact (alike_report _ _ (hP _ _ hp)).bind fun _ => alike_pure _
  · exact (alike_report _ _ (hP _ _ hp)).bind fun _ => alike_pure _
  · exact alike_pure _
  · exact (alike_report _ _ (hP _ _ hp)).bind fun _ => alike_pure _

theorem alike_duplicateFunctions {decls : List FunctionDecl} (hdecls : ∀ decl ∈ decls, decl.StandsIn text)
    (seen : List String) : Alike text P (duplicateFunctions u seen decls) (duplicateFunctions u seen decls) := by
  induction decls generalizing seen with
  | nil => exact alike_pure _
  | cons decl decls ih =>
    obtain ⟨hdecl, hrest⟩ := List.forall_mem_cons.1 hdecls
    rw [duplicateFunctions]
    split
    · exact (alike_report _ _ (hP _ _ hdecl.position)).bind fun _ => ih hrest _
    · exact ih hrest _

theorem alike_entryOperation {decl : PluginDecl} (hdecl : decl.StandsIn text) :
    Alike text P (entryOperation u decl) (entryOperation u decl) := by
  rw [entryOperation]
  cases hfind : decl.functions.find? fun f => f.name = ContractType.entryOperation with
  | none => exact alike_report _ _ (hP _ _ hdecl.position)
  | some f =>
    dsimp only
    split
    · exact alike_report _ _ (hP _ _ (hdecl.functions f (List.mem_of_find?_eq_some hfind)).position)
    · exact alike_pure _

/-- The checks of a unit are the same beside others whose functions are found alike.  Whatever they report is a
diagnostic of that unit at a place of its text or at no place, so it has every property that all of those have. -/
theorem alike_unit {siblings siblings' : Signatures} {parsed : ParsedUnit} (hparsed : parsed.StandsIn text)
    (hnowhere : ∀ problem, P (CheckProblem.diagnostic problem u.qualifiedName ⟨0, 0⟩))
    (hsame : ∀ name : String, siblings.lookup name = siblings'.lookup name) :
    Alike text P (unit u siblings parsed) (unit u siblings' parsed) := by
  rw [unit, unit]
  refine (alike_modify fun _ _ => fun _ hb => absurd hb List.not_mem_nil).bind fun _ =>
    (alike_bindImports hP hparsed.imports).bind fun _ => ?_
  cases hplugin : parsed.plugin with
  | none =>
    exact (alike_report _ _ (hnowhere _)).bind fun _ => (alike_warnUnused hP).bind fun _ => alike_pure _
  | some decl =>
    have hdecl := hparsed.plugin decl hplugin
    dsimp only
    rw [plugin, plugin]
    let ctx : UnitContext := { unit := u, functions := parsed.signatures, siblings }
    have hunmoved : ctx.Unmoved siblings' text P :=
      ⟨hP, fun unit name => congrArg (fun found => Option.bind found (List.lookup name)) (hsame unit)⟩
    have hfunctions := Generator.alike_functions hunmoved hdecl.functions
    have hrest := (alike_supertype hP decl.supertype hdecl.supertypePosition).bind fun contract =>
      (alike_duplicateFunctions hP hdecl.functions []).bind fun _ => (alike_entryOperation hP hdecl).bind fun _ =>
        hfunctions.bind fun functions => (alike_warnUnused hP).bind fun _ =>
          alike_pure (contract.map fun contract : ContractType =>
            ({ formatVersion := Module.currentVersion, name := u.qualifiedName
               contract := contract.qualifiedName, functions := functions.toArray } : Module))
    split
    · exact (alike_report _ _ (hP _ _ hdecl.position)).bind fun _ => hrest
    · exact hrest

end

end Checker

/-! ## Source texts -/

/-- A diagnostic points at a place of the text of a unit. -/
structure Diagnostic.PointsInto (u : PluginUnit) (d : Diagnostic) : Prop where
  unit : d.unit = some u.qualifiedName
  position : Position.IsIn ⟨d.line, d.column⟩ u.source.toList

/-- A place of a text is shown as it is. -/
theorem CheckProblem.pointsInto_diagnostic {u : PluginUnit} {p : Position} (hp : p.IsIn u.source.toList)
    (problem : CheckProblem) : (problem.diagnostic u.qualifiedName p).PointsInto u := by
  refine ⟨rfl, ?_⟩
  show Position.IsIn ⟨max p.line 1, max p.column 1⟩ u.source.toList
  rw [Nat.max_eq_left hp.line, Nat.max_eq_left hp.column]
  exact hp

/-- The checks of a source text are the same beside others whose functions are found alike, and whatever they report
points into that text. -/
theorem Checker.alike_ofSource {siblings siblings' : Signatures} (u : PluginUnit)
    (hsame : ∀ name : String, siblings.lookup name = siblings'.lookup name) :
    Alike u.source.toList (Diagnostic.PointsInto u) (unit u siblings (ParsedUnit.ofSource u.source).1)
      (unit u siblings' (ParsedUnit.ofSource u.source).1) :=
  -- A report at no place is shown at the first one.
  alike_unit (fun _ problem hp => problem.pointsInto_diagnostic hp) (ParsedUnit.placed_ofSource u.source).1
    (fun _ => ⟨rfl, Position.isIn_first _⟩) hsame

end PluginSandbox
