import PluginSandbox.Proofs.Compiler.Decided

/-!
# Names that are looked up among the imports

The imports of a unit are consulted for the name of its plugin's supertype, for the names of called functions that the
unit does not declare, and for the targets of member calls (`ParsedUnit.sought`).  For nothing else: what the checker
makes of a construct depends on what the imports bind these names to, and these are the names whose imports count as
used behind it (`Checker.Seeks`).  Whatever it reports on the way is an error.

A call of a variable or of a function of the unit consults no import, so the names of both are passed down the tree.
-/

namespace PluginSandbox

/-! ## The names -/

mutual

/-- The names that an expression looks up among the imports, in a unit that declares some functions and where some
variables are visible. -/
def Expr.sought (own vars : List String) : Expr → List String
  | .int _ _ | .str _ _ | .bool _ _ | .var _ _ => []
  | .call name es _ => argsSought own vars es ++ if name ∈ vars ∨ name ∈ own then [] else [name]
  | .memberCall target _ es _ => argsSought own vars es ++ [target]
  | .neg operand _ | .not operand _ => operand.sought own vars
  | .binary _ left right _ | .and left right _ | .or left right _ => left.sought own vars ++ right.sought own vars

/-- The names that arguments look up among the imports. -/
def argsSought (own vars : List String) : List Expr → List String
  | [] => []
  | e :: rest => e.sought own vars ++ argsSought own vars rest

end

mutual

/-- The names that a statement looks up among the imports, where some variables are visible. -/
def Stmt.sought (own : List String) : Stmt → List String → List String
  | .declare _ value _, vars | .assign _ value _, vars | .expr value, vars => value.sought own vars
  | .branch condition thenBody elseBody, vars =>
    condition.sought own vars ++ (bodySought own thenBody vars ++ optionalSought own elseBody vars)
  | .loop condition body, vars => condition.sought own vars ++ bodySought own body vars
  | .ret none _, _ => []
  | .ret (some value) _, vars => value.sought own vars

/-- The names that the statements of a block look up among the imports, where some variables are visible in front of
it. -/
def bodySought (own : List String) : List Stmt → List String → List String
  | [], _ => []
  | s :: rest, vars => s.sought own vars ++ bodySought own rest (s.declared ++ vars)

/-- The names that the statements of a block look up that may be missing. -/
def optionalSought (own : List String) : Option (List Stmt) → List String → List String
  | none, _ => []
  | some stmts, vars => bodySought own stmts vars

end

/-- The names that a function looks up among the imports. -/
def FunctionDecl.sought (own : List String) (f : FunctionDecl) : List String :=
  bodySought own f.body (f.params.map Prod.fst).reverse

/-- The name that a supertype looks up among the imports: a path is no such name. -/
def supertypeSought : List String → List String
  | [name] => [name]
  | _ => []

/-- The names that a unit looks up among its imports: that of the supertype, and those in its functions. -/
def ParsedUnit.sought (u : ParsedUnit) : List String :=
  match u.plugin with
  | some decl =>
    supertypeSought decl.supertype ++
      decl.functions.flatMap (FunctionDecl.sought (u.signatures.map Prod.fst))
  | none => []

/-! ## Checks that look names up -/

attribute [ext] Binding

namespace Checker

variable {α β : Type} {m : Meaning} {names names' : List String} {Q : α → Prop} {Q' : β → Prop}

/-- What some bindings bind a name to. -/
def boundTo (bs : List Binding) (name : String) : Found :=
  (bs.find? (bindsName name)).bind Binding.target

/-- A binding after some names were looked up. -/
def mark (names : List String) (b : Binding) : Binding :=
  if b.target.isSome && decide (b.decl.name ∈ names) then { b with used := true } else b

@[simp] theorem mark_decl (names : List String) (b : Binding) : (mark names b).decl = b.decl := by
  rw [mark]
  split <;> rfl

@[simp] theorem mark_target (names : List String) (b : Binding) : (mark names b).target = b.target := by
  rw [mark]
  split <;> rfl

@[simp] theorem mark_used (names : List String) (b : Binding) :
    (mark names b).used = (b.used || b.target.isSome && decide (b.decl.name ∈ names)) := by
  rw [mark]
  cases b.target.isSome && decide (b.decl.name ∈ names) <;> simp

/-- Some bindings after some names were looked up. -/
def marked (names : List String) (bs : List Binding) : List Binding :=
  bs.map (mark names)

theorem marked_nil (bs : List Binding) : marked [] bs = bs := by
  refine (List.map_congr_left fun b _ => ?_).trans (List.map_id bs)
  simp [mark]

theorem marked_marked (names names' : List String) (bs : List Binding) :
    marked names' (marked names bs) = marked (names ++ names') bs := by
  rw [marked, marked, marked, List.map_map]
  refine List.map_congr_left fun b _ => ?_
  have hused : (mark names' (mark names b)).used = (mark (names ++ names') b).used := by
    simp only [mark_used, mark_decl, mark_target, List.mem_append, Bool.decide_or, Bool.and_or_distrib_left,
      Bool.or_assoc]
  exact Binding.ext (by simp) (by simp) hused

/-- Looking names up changes nothing about what they are bound to. -/
theorem boundTo_marked (names : List String) (bs : List Binding) (name : String) :
    boundTo (marked names bs) name = boundTo bs name := by
  have hbinds : bindsName name ∘ mark names = bindsName name := by
    funext b
    simp [bindsName]
  have htarget : (fun b => (mark names b).target) = Binding.target := funext fun b => mark_target names b
  rw [boundTo, boundTo, marked, List.find?_map, hbinds, Option.bind_map]
  exact congrArg _ htarget

/-- A check looks up some names among the bindings: it comes to the same with all bindings that bind these names to
the same, and marks those that do.  Whatever it reports is an error. -/
def Seeks (m : Meaning) (c : Checker α) (names : List String) (Q : α → Prop) : Prop :=
  ∀ target : String → Found, ∃ a ds, Q a ∧ (∀ d ∈ ds, d.isError = true) ∧
    ∀ bs, (∀ name ∈ names, boundTo bs name = target name) →
      (c.run bs).under m = ((a, marked names bs), ds)

theorem Seeks.bind {c : Checker α} {next : α → Checker β} (hc : Seeks m c names Q)
    (hnext : ∀ a, Q a → Seeks m (next a) names' Q') : Seeks m (c >>= next) (names ++ names') Q' := by
  intro target
  obtain ⟨a, ds, ha, herrors, hrun⟩ := hc target
  obtain ⟨b, ds', hb, herrors', hrun'⟩ := hnext a ha target
  refine ⟨b, ds ++ ds', hb, ?_, fun bs hbs => ?_⟩
  · intro d hd
    exact (List.mem_append.1 hd).elim (herrors d) (herrors' d)
  · have hfirst := hrun bs fun name hname => hbs name (List.mem_append_left _ hname)
    have hsecond := hrun' (marked names bs) fun name hname => by
      rw [boundTo_marked]
      exact hbs name (List.mem_append_right _ hname)
    rw [StateT.run_bind, Query.under_bind, hfirst, hsecond, marked_marked]

theorem seeks_pure {a : α} (ha : Q a) : Seeks m (pure a) [] Q := by
  intro target
  refine ⟨a, [], ha, fun _ hd => absurd hd List.not_mem_nil, fun bs _ => ?_⟩
  rw [marked_nil]
  rfl

/-- What looks nothing up behind a check. -/
theorem Seeks.bind_quiet {c : Checker α} {next : α → Checker β} (hc : Seeks m c names Q)
    (hnext : ∀ a, Q a → Seeks m (next a) [] Q') : Seeks m (c >>= next) names Q' := by
  have hbind := hc.bind hnext
  rwa [List.append_nil] at hbind

theorem Seeks.bind_pure {c : Checker α} {f : α → β} (hc : Seeks m c names Q) (hf : ∀ a, Q a → Q' (f a)) :
    Seeks m (c >>= fun a => pure (f a)) names Q' :=
  hc.bind_quiet fun a ha => seeks_pure (hf a ha)

theorem seeks_ask (question : Question) : Seeks m (ask question) [] fun _ => True := by
  intro target
  refine ⟨m question, [], trivial, fun _ hd => absurd hd List.not_mem_nil, fun bs _ => ?_⟩
  rw [marked_nil]
  rfl

theorem isError_diagnostic {problem : CheckProblem} (h : problem.severity = .error) (unit : String) (p : Position) :
    (problem.diagnostic unit p).isError = true := by
  rw [Diagnostic.isError, CheckProblem.diagnostic, h]
  rfl

theorem seeks_error {unit : PluginUnit} {p : Position} {problem : CheckProblem}
    (h : problem.severity = .error) : Seeks m (report unit p problem) [] fun _ => True := by
  intro target
  refine ⟨(), [problem.diagnostic unit.qualifiedName p], trivial, fun d hd => ?_, fun bs _ => ?_⟩
  · rw [List.mem_singleton.1 hd]
    exact isError_diagnostic h _ _
  · rw [marked_nil]
    rfl

/-- A condition that is reported as an error. -/
theorem seeks_report_if {C : Prop} [Decidable C] {unit : PluginUnit} {p : Position} {problem : CheckProblem}
    {next : Unit → Checker β} (h : problem.severity = .error) (hnext : Seeks m (next ()) names Q') :
    Seeks m (if C then report unit p problem >>= next else next ()) names Q' := by
  split
  · exact (seeks_error h).bind fun _ _ => hnext
  · exact hnext

/-- Looking a name up among the imports marks it. -/
theorem seeks_imported (name : String) : Seeks m (imported name) [name] fun _ => True := by
  intro target
  refine ⟨target name, [], trivial, fun _ hd => absurd hd List.not_mem_nil, fun bs hbs => ?_⟩
  have hbound := hbs name (List.mem_singleton_self name)
  have hmarked : marked [name] bs = bs.map fun b => if bindsName name b then { b with used := true } else b := by
    refine List.map_congr_left fun b _ => ?_
    rw [mark, bindsName, Bool.and_comm]
    simp
  have hget : ((get : Checker (List Binding)).run bs).under m = ((bs, bs), []) := rfl
  rw [imported, StateT.run_bind, Query.under_bind, hget, hmarked]
  rw [boundTo] at hbound
  cases hfind : bs.find? (bindsName name) with
  | none =>
    rw [hfind] at hbound
    have hsame : (bs.map fun b => if bindsName name b then { b with used := true } else b) = bs := by
      refine (List.map_congr_left fun b hb => ?_).trans (List.map_id bs)
      exact if_neg (List.find?_eq_none.1 hfind b hb)
    rw [hsame, ← hbound]
    rfl
  | some b =>
    rw [hfind] at hbound
    rw [← hbound]
    rfl

theorem seeks_findOwn (unit : PluginUnit) (name : String) :
    Seeks m (findOwn unit name) [name] fun _ => True := by
  rw [findOwn]
  refine (seeks_imported name).bind_quiet fun found _ => ?_
  cases found with
  | some found => exact seeks_pure trivial
  | none => exact seeks_ask _

end Checker

/-! ## Generating code -/

namespace UnitContext

/-- The names of the functions of the unit. -/
def own (ctx : UnitContext) : List String :=
  ctx.functions.map Prod.fst

/-- A function of the unit is found by its name. -/
theorem isSome_function? (ctx : UnitContext) (name : String) :
    (ctx.function? name).isSome = true ↔ name ∈ ctx.own := by
  rw [function?]
  cases hindex : ctx.functions.findIdx? fun f => f.1 = name with
  | none =>
    have hnone := List.findIdx?_eq_none_iff.1 hindex
    refine iff_of_false (by simp) fun hmem => ?_
    obtain ⟨f, hf, hname⟩ := List.mem_map.1 hmem
    exact absurd (hnone f hf) (by simp [hname])
  | some index =>
    obtain ⟨hlt, hname, _⟩ := List.findIdx?_eq_some_iff_getElem.1 hindex
    refine iff_of_true (by simp [List.getElem?_eq_getElem hlt]) ?_
    exact List.mem_map.2 ⟨ctx.functions[index], List.getElem_mem hlt, of_decide_eq_true hname⟩

end UnitContext

namespace Generator

open Checker

variable {m : Meaning} {ctx : UnitContext} {p : Position}

theorem seeks_placeholder {problem : CheckProblem} (h : problem.severity = .error) :
    Seeks m (placeholder ctx p problem) [] fun _ => True :=
  (seeks_error h).bind_pure fun _ _ => trivial

/-- The operation behind a check of the number of arguments. -/
theorem seeks_arity_bind (function : String) (expected supplied : Nat) (op : Op) :
    Seeks m (do checkArity ctx p function expected supplied; return op) [] fun _ => True := by
  have hcheck : Seeks m (checkArity ctx p function expected supplied) [] fun _ => True := by
    rw [checkArity]
    split
    · exact seeks_error rfl
    · exact seeks_pure trivial
  exact hcheck.bind_pure fun _ _ => trivial

theorem seeks_findCallee (name : String) : Seeks m (findCallee ctx name) [name] fun _ => True := by
  rw [findCallee]
  refine (seeks_findOwn ctx.unit name).bind_quiet fun found _ => ?_
  cases found with
  | some found => exact seeks_pure trivial
  | none => exact seeks_ask _

/-- A called name is looked up unless it is a variable or a function of the unit. -/
theorem seeks_callOp (scope : Scope) (name : String) (argc : Nat) :
    Seeks m (callOp ctx scope name argc p) (if name ∈ scope.visible ∨ name ∈ ctx.own then [] else [name])
      fun _ => True := by
  have hvisible := scope.isSome_slot? name
  have hown := ctx.isSome_function? name
  rw [callOp]
  by_cases hslot : (scope.slot? name).isSome = true
  · rw [if_pos hslot, if_pos (.inl (hvisible.1 hslot))]
    exact seeks_placeholder rfl
  rw [if_neg hslot]
  cases hfunction : ctx.function? name with
  | some found =>
    rw [if_pos (.inr (hown.1 (by rw [hfunction]; rfl)))]
    exact seeks_arity_bind _ _ _ _
  | none =>
    rw [hfunction] at hown
    rw [if_neg (by rw [← hvisible, ← hown]; simp [hslot])]
    refine (seeks_findCallee name).bind_quiet fun found _ => ?_
    rcases found with _ | ⟨location, unit | contract | symbol⟩
    · exact seeks_placeholder rfl
    · exact seeks_placeholder rfl
    · exact seeks_placeholder rfl
    · exact seeks_arity_bind _ _ _ _

theorem seeks_unitCallOp (unit target method : String) (argc : Nat) :
    Seeks m (unitCallOp ctx unit target method argc p) [] fun _ => True := by
  rw [unitCallOp]
  split
  · cases ctx.function? method with
    | some found => exact seeks_arity_bind _ _ _ _
    | none => exact seeks_placeholder rfl
  · cases ctx.siblingArity? unit method with
    | some arity => exact seeks_arity_bind _ _ _ _
    | none => exact seeks_placeholder rfl

theorem seeks_memberCallOp (target method : String) (argc : Nat) :
    Seeks m (memberCallOp ctx target method argc p) [target] fun _ => True := by
  rw [memberCallOp]
  refine (seeks_findOwn ctx.unit target).bind_quiet fun found _ => ?_
  rcases found with _ | ⟨location, unit | contract | symbol⟩
  · exact seeks_placeholder rfl
  · exact seeks_unitCallOp _ _ _ _
  · exact seeks_placeholder rfl
  · exact seeks_placeholder rfl

mutual

/-- Generating the code of an expression looks up the names that it is said to. -/
theorem seeks_expr (scope : Scope) (start : Nat) :
    ∀ e : Expr, Seeks m (expr ctx scope start e) (e.sought ctx.own scope.visible) fun _ => True
  | .int value p => by
    rw [expr, Expr.sought]
    exact seeks_pure trivial
  | .str text p => by
    rw [expr, Expr.sought]
    exact seeks_pure trivial
  | .bool value p => by
    rw [expr, Expr.sought]
    exact seeks_pure trivial
  | .var name p => by
    rw [expr, Expr.sought]
    cases scope.slot? name with
    | some slot => exact seeks_pure trivial
    | none => exact (seeks_placeholder rfl).bind_pure fun _ _ => trivial
  | .call name es p => by
    rw [expr, Expr.sought]
    exact (seeks_args scope start es).bind fun _ _ =>
      (seeks_callOp scope name es.length).bind_pure fun _ _ => trivial
  | .memberCall target method es p => by
    rw [expr, Expr.sought]
    exact (seeks_args scope start es).bind fun _ _ =>
      (seeks_memberCallOp target method es.length).bind_pure fun _ _ => trivial
  | .neg operand p => by
    rw [expr, Expr.sought]
    exact (seeks_expr scope start operand).bind_pure fun _ _ => trivial
  | .not operand p => by
    rw [expr, Expr.sought]
    exact (seeks_expr scope start operand).bind_pure fun _ _ => trivial
  | .binary op left right p => by
    rw [expr, Expr.sought]
    exact (seeks_expr scope start left).bind fun _ _ =>
      (seeks_expr scope _ right).bind_pure fun _ _ => trivial
  | .and left right p => by
    rw [expr, Expr.sought]
    exact (seeks_expr scope start left).bind fun _ _ =>
      (seeks_expr scope _ right).bind_pure fun _ _ => trivial
  | .or left right p => by
    rw [expr, Expr.sought]
    exact (seeks_expr scope start left).bind fun _ _ =>
      (seeks_expr scope _ right).bind_pure fun _ _ => trivial

theorem seeks_args (scope : Scope) (start : Nat) :
    ∀ es : List Expr, Seeks m (args ctx scope start es) (argsSought ctx.own scope.visible es) fun _ => True
  | [] => by
    rw [args, argsSought]
    exact seeks_pure trivial
  | e :: rest => by
    rw [args, argsSought]
    exact (seeks_expr scope start e).bind fun _ _ =>
      (seeks_args scope _ rest).bind_pure fun _ _ => trivial

end

mutual

/-- Generating the code of a statement looks up the names that it is said to. -/
theorem seeks_stmt :
    ∀ (s : Stmt) (scope : Scope) (start : Nat), Seeks m (stmt ctx scope start s) (s.sought ctx.own scope.visible)
      fun r => r.2.visible = s.declared ++ scope.visible
  | .declare name value p, scope, start => by
    rw [stmt, Stmt.sought]
    exact (seeks_expr scope start value).bind_pure fun _ _ => rfl
  | .assign name value p, scope, start => by
    rw [stmt, Stmt.sought]
    refine (seeks_expr scope start value).bind_quiet fun _ _ => ?_
    cases scope.slot? name with
    | some slot => exact seeks_pure rfl
    | none => exact (seeks_error rfl).bind_pure fun _ _ => rfl
  | .branch condition thenBody elseBody, scope, start => by
    rw [stmt, Stmt.sought]
    exact (seeks_expr scope start condition).bind fun _ _ =>
      (seeks_body thenBody scope _).bind fun r _ =>
        (seeks_optionalBody elseBody (scope.leave r.2) _).bind_pure fun _ _ => rfl
  | .loop condition loopBody, scope, start => by
    rw [stmt, Stmt.sought]
    exact (seeks_expr scope start condition).bind fun _ _ =>
      (seeks_body loopBody scope _).bind_pure fun _ _ => rfl
  | .ret none p, scope, start => by
    rw [stmt, Stmt.sought]
    exact seeks_pure rfl
  | .ret (some value) p, scope, start => by
    rw [stmt, Stmt.sought]
    exact (seeks_expr scope start value).bind_pure fun _ _ => rfl
  | .expr value, scope, start => by
    rw [stmt, Stmt.sought]
    exact (seeks_expr scope start value).bind_pure fun _ _ => rfl

theorem seeks_body :
    ∀ (stmts : List Stmt) (scope : Scope) (start : Nat),
      Seeks m (body ctx scope start stmts) (bodySought ctx.own stmts scope.visible) fun _ => True
  | [], scope, start => by
    rw [body, bodySought]
    exact seeks_pure trivial
  | s :: rest, scope, start => by
    rw [body, bodySought]
    refine (seeks_stmt s scope start).bind fun r hr => ?_
    rw [← hr]
    exact (seeks_body rest r.2 _).bind_pure fun _ _ => trivial

theorem seeks_optionalBody :
    ∀ (stmts : Option (List Stmt)) (scope : Scope) (start : Nat),
      Seeks m (optionalBody ctx scope start stmts) (optionalSought ctx.own stmts scope.visible) fun _ => True
  | none, scope, start => by
    rw [optionalBody, optionalSought]
    exact seeks_pure trivial
  | some stmts, scope, start => by
    rw [optionalBody, optionalSought]
    exact seeks_body stmts scope start

end

theorem seeks_paramScope (params : List (String × Position)) (scope : Scope) :
    Seeks m (paramScope ctx scope params) []
      fun after => after.visible = (params.map Prod.fst).reverse ++ scope.visible := by
  induction params generalizing scope with
  | nil => exact seeks_pure rfl
  | cons param rest ih =>
    obtain ⟨name, p⟩ := param
    rw [paramScope]
    refine seeks_report_if rfl ?_
    have hrest := ih (scope.declare name)
    rw [scope.visible_declare] at hrest
    simpa using hrest

theorem seeks_function (decl : FunctionDecl) :
    Seeks m (function ctx decl) (decl.sought ctx.own) fun _ => True := by
  rw [function, FunctionDecl.sought]
  refine (seeks_paramScope decl.params .empty).bind fun scope hscope => ?_
  have hvisible : scope.visible = (decl.params.map Prod.fst).reverse := by
    rw [hscope]
    exact List.append_nil _
  rw [← hvisible]
  exact (seeks_body decl.body scope 0).bind_pure fun _ _ => trivial

theorem seeks_functions (decls : List FunctionDecl) :
    Seeks m (decls.mapM (function ctx)) (decls.flatMap (FunctionDecl.sought ctx.own)) fun _ => True := by
  induction decls with
  | nil => exact seeks_pure trivial
  | cons decl decls ih =>
    rw [List.mapM_cons, List.flatMap_cons]
    exact (seeks_function decl).bind fun _ _ => ih.bind_pure fun _ _ => trivial

end Generator

/-! ## Plugins -/

namespace Checker

variable {m : Meaning} {u : PluginUnit}

theorem seeks_supertype (path : List String) (p : Position) :
    Seeks m (supertype u path p) (supertypeSought path) fun _ => True := by
  have hentry : Seeks m (supertypeEntry u path) (supertypeSought path) fun _ => True := by
    match path with
    | [] => exact seeks_ask _
    | [name] => exact seeks_findOwn u name
    | first :: second :: rest => exact seeks_ask _
  rw [supertype]
  refine hentry.bind_quiet fun found _ => ?_
  rcases found with _ | ⟨location, unit | contract | symbol⟩
  · exact (seeks_error rfl).bind_pure fun _ _ => trivial
  · exact (seeks_error rfl).bind_pure fun _ _ => trivial
  · exact seeks_pure trivial
  · exact (seeks_error rfl).bind_pure fun _ _ => trivial

theorem seeks_duplicateFunctions (decls : List FunctionDecl) (seen : List String) :
    Seeks m (duplicateFunctions u seen decls) [] fun _ => True := by
  induction decls generalizing seen with
  | nil => exact seeks_pure trivial
  | cons decl decls ih =>
    rw [duplicateFunctions]
    exact seeks_report_if rfl (ih _)

theorem seeks_entryOperation (decl : PluginDecl) : Seeks m (entryOperation u decl) [] fun _ => True := by
  rw [entryOperation]
  cases decl.functions.find? fun f => f.name = ContractType.entryOperation with
  | none => exact seeks_error rfl
  | some f =>
    dsimp only
    split
    · exact seeks_error rfl
    · exact seeks_pure trivial

end Checker
end PluginSandbox
