import Mathlib.Tactic.Tauto
import PluginSandbox.Proofs.Compiler.Generated
import PluginSandbox.Proofs.Program.Rules

/-!
# What the checker decides

A check decides a proposition if it passes exactly where that holds (`Checker.Decides`).  A sequence of checks
decides the conjunction of what its parts decide, so the rule of every construct is put together in the order in
which the generator goes through it, and the static rules are what comes out at the end (`decides_unit`).

What is said of the bindings in front of a check and behind it is mostly that they know the imports of the unit
(`Checker.Knows`); only binding the imports changes that.
-/

namespace PluginSandbox

/-! ## Scopes -/

namespace Scope

/-- The names that are visible in a scope, the innermost first. -/
def visible (s : Scope) : List String :=
  s.names.map Prod.fst

theorem isSome_slot? (s : Scope) (name : String) : (s.slot? name).isSome = true ↔ name ∈ s.visible := by
  rw [slot?, visible]
  induction s.names with
  | nil => simp
  | cons first rest ih =>
    obtain ⟨other, slot⟩ := first
    rw [List.lookup_cons, List.map_cons, List.mem_cons, ← ih]
    by_cases h : name = other
    · simp [h]
    · rw [beq_eq_false_iff_ne.2 h]
      exact (or_iff_right h).symm

theorem visible_declare (s : Scope) (name : String) : (s.declare name).visible = name :: s.visible := rfl

end Scope

namespace Checker

variable {α β : Type} {m : Meaning} {K K' K'' : List Binding → Prop} {P S : Prop} {Q : α → Prop}
  {Q' : β → Prop}

/-- A check passes exactly if `P`, where it starts with bindings of which `K` holds.  Then `Q` holds of its result
and `K'` of the bindings behind it. -/
structure Decides (m : Meaning) (K : List Binding → Prop) (c : Checker α) (P : Prop) (Q : α → Prop)
    (K' : List Binding → Prop) : Prop where
  passes_iff : ∀ {bs : List Binding}, K bs → ((∃ a bs', Passes m c bs a bs') ↔ P)
  keeps : ∀ {bs : List Binding} {a : α} {bs' : List Binding}, K bs → Passes m c bs a bs' → Q a ∧ K' bs'

namespace Decides

theorem congr {c : Checker α} (h : Decides m K c P Q K') (hP : P ↔ S) : Decides m K c S Q K' :=
  ⟨fun hbs => (h.passes_iff hbs).trans hP, h.keeps⟩

/-- The result and the bindings may be said less of, also by what has been decided. -/
theorem imp {c : Checker α} {R : α → Prop} (h : Decides m K c P Q K') (hQ : ∀ a, P → Q a → R a)
    (hK : ∀ bs, K' bs → K'' bs) : Decides m K c P R K'' := by
  refine ⟨h.passes_iff, fun {bs a bs'} hbs hpasses => ?_⟩
  obtain ⟨ha, hbs'⟩ := h.keeps hbs hpasses
  exact ⟨hQ a ((h.passes_iff hbs).1 ⟨a, bs', hpasses⟩) ha, hK bs' hbs'⟩

/-- A sequence decides what its parts decide. -/
theorem bind {c : Checker α} {next : α → Checker β} (hc : Decides m K c P Q K')
    (hnext : ∀ a, Q a → Decides m K' (next a) S Q' K'') : Decides m K (c >>= next) (P ∧ S) Q' K'' := by
  constructor
  · intro bs hbs
    constructor
    · rintro ⟨b, bs', hpasses⟩
      obtain ⟨a, between, hfirst, hrest⟩ := passes_bind.1 hpasses
      obtain ⟨ha, hbetween⟩ := hc.keeps hbs hfirst
      exact ⟨(hc.passes_iff hbs).1 ⟨a, between, hfirst⟩,
        ((hnext a ha).passes_iff hbetween).1 ⟨b, bs', hrest⟩⟩
    · rintro ⟨hP, hS⟩
      obtain ⟨a, between, hfirst⟩ := (hc.passes_iff hbs).2 hP
      obtain ⟨ha, hbetween⟩ := hc.keeps hbs hfirst
      obtain ⟨b, bs', hrest⟩ := ((hnext a ha).passes_iff hbetween).2 hS
      exact ⟨b, bs', passes_bind.2 ⟨a, between, hfirst, hrest⟩⟩
  · intro bs b bs' hbs hpasses
    obtain ⟨a, between, hfirst, hrest⟩ := passes_bind.1 hpasses
    obtain ⟨ha, hbetween⟩ := hc.keeps hbs hfirst
    exact (hnext a ha).keeps hbetween hrest

/-- What comes behind a check that always passes decides the sequence. -/
theorem bind_silent {c : Checker α} {next : α → Checker β} (hc : Decides m K c True Q K')
    (hnext : ∀ a, Q a → Decides m K' (next a) S Q' K'') : Decides m K (c >>= next) S Q' K'' :=
  (hc.bind hnext).congr (by rw [true_and])

end Decides

/-- A result decides whatever holds. -/
theorem decides_pure {a : α} (hP : P) (ha : Q a) : Decides m K (pure a) P Q K := by
  constructor
  · intro bs _
    exact iff_of_true ⟨a, bs, passes_pure.2 ⟨rfl, rfl⟩⟩ hP
  · rintro bs b bs' hbs hpasses
    obtain ⟨rfl, rfl⟩ := passes_pure.1 hpasses
    exact ⟨ha, hbs⟩

/-- What comes in front of a result decides the sequence. -/
theorem Decides.bind_pure {c : Checker α} {f : α → β} (hc : Decides m K c P Q K')
    (hf : ∀ a, Q a → Q' (f a)) : Decides m K (c >>= fun a => pure (f a)) P Q' K' :=
  (hc.bind fun a ha => decides_pure trivial (hf a ha)).congr (by rw [and_true])

theorem decides_ask (question : Question) : Decides m K (ask question) True (· = m question) K := by
  constructor
  · intro bs _
    exact iff_true_intro ⟨_, bs, passes_ask.2 ⟨rfl, rfl⟩⟩
  · rintro bs b bs' hbs hpasses
    obtain ⟨rfl, rfl⟩ := passes_ask.1 hpasses
    exact ⟨rfl, hbs⟩

theorem decides_modify {f : List Binding → List Binding} (h : ∀ bs, K bs → K' (f bs)) :
    Decides m K (modify f) True (fun _ => True) K' := by
  constructor
  · intro bs _
    exact iff_true_intro ⟨(), f bs, passes_modify.2 rfl⟩
  · rintro bs _ bs' hbs hpasses
    rw [passes_modify.1 hpasses]
    exact ⟨trivial, h bs hbs⟩

theorem decides_get_bind {next : List Binding → Checker β}
    (h : ∀ bs, K bs → Decides m (· = bs) (next bs) P Q' K') : Decides m K (get >>= next) P Q' K' := by
  have hget : ∀ {bs b bs'}, Passes m (get >>= next) bs b bs' ↔ Passes m (next bs) bs b bs' := by
    intro bs b bs'
    rw [passes_bind]
    constructor
    · rintro ⟨a, between, hfirst, hrest⟩
      obtain ⟨rfl, rfl⟩ := passes_get.1 hfirst
      exact hrest
    · exact fun hrest => ⟨bs, bs, passes_get.2 ⟨rfl, rfl⟩, hrest⟩
  constructor
  · intro bs hbs
    simp only [hget]
    exact (h bs hbs).passes_iff rfl
  · intro bs b bs' hbs hpasses
    exact (h bs hbs).keeps rfl (hget.1 hpasses)

/-- A check that reports an error decides whatever does not hold. -/
theorem decides_error {unit : PluginUnit} {p : Position} {problem : CheckProblem} {Q : Unit → Prop}
    (h : problem.severity = .error) (hP : ¬ P) : Decides m K (report unit p problem) P Q K' := by
  constructor
  · intro bs _
    refine iff_of_false ?_ hP
    rintro ⟨_, bs', hpasses⟩
    exact (passes_report.1 hpasses).1 h
  · intro bs _ bs' _ hpasses
    exact absurd h (passes_report.1 hpasses).1

/-- Nothing that comes behind an error passes. -/
theorem decides_error_bind {unit : PluginUnit} {p : Position} {problem : CheckProblem}
    {next : Unit → Checker β} (h : problem.severity = .error) (hP : ¬ P) :
    Decides m K (report unit p problem >>= next) P Q' K' := by
  have hreport : Decides m K (report unit p problem) P (fun _ => False) K := decides_error h hP
  exact (hreport.bind (S := True) fun _ h => h.elim).congr (by rw [and_true])

/-- A check that reports a warning passes. -/
theorem decides_warning {unit : PluginUnit} {p : Position} {problem : CheckProblem}
    (h : problem.severity ≠ .error) : Decides m K (report unit p problem) True (fun _ => True) K := by
  constructor
  · intro bs _
    exact iff_true_intro ⟨(), bs, passes_report.2 ⟨h, rfl⟩⟩
  · intro bs _ bs' hbs hpasses
    rw [(passes_report.1 hpasses).2]
    exact ⟨trivial, hbs⟩

/-- A condition that is reported as an error must not hold. -/
theorem decides_report_if {C : Prop} [Decidable C] {unit : PluginUnit} {p : Position}
    {problem : CheckProblem} {next : Unit → Checker β} (h : problem.severity = .error)
    (hnext : Decides m K (next ()) P Q' K') :
    Decides m K (if C then report unit p problem >>= next else next ()) (¬ C ∧ P) Q' K' := by
  constructor
  · intro bs hbs
    rw [← hnext.passes_iff hbs]
    simp only [passes_report_if h, exists_and_left]
  · intro bs b bs' hbs hpasses
    exact hnext.keeps hbs ((passes_report_if h).1 hpasses).2

/-! ## Looking names up -/

theorem decides_findAnywhere (package name : String) :
    Decides m K (findAnywhere package name) True (· = m.anywhere package name) K := by
  rw [findAnywhere, Meaning.anywhere]
  refine (decides_ask _).bind_silent ?_
  rintro _ rfl
  cases m (.onClassPath package name) with
  | some found => exact decides_pure trivial rfl
  | none => exact decides_ask _

variable {imports : List Import}

theorem decides_imported (name : String) :
    Decides m (Knows m imports) (imported name) True (· = m.imported imports name) (Knows m imports) := by
  refine decides_get_bind fun bs hknows => ?_
  have hfind := hknows.find? name
  cases hb : bs.find? (bindsName name) with
  | none =>
    rw [hb] at hfind
    have hnone : Decides m (· = bs) (pure none) True (· = m.imported imports name) (· = bs) :=
      decides_pure trivial hfind
    refine hnone.imp (fun _ _ h => h) ?_
    rintro _ rfl
    exact hknows
  | some b =>
    rw [hb] at hfind
    refine Decides.bind_silent (decides_modify (f := List.map _) ?_) fun _ _ => decides_pure trivial hfind
    rintro _ rfl
    exact hknows.map_used _

theorem decides_findOwn (unit : PluginUnit) (name : String) :
    Decides m (Knows m imports) (findOwn unit name) True (· = m.own unit imports name)
      (Knows m imports) := by
  rw [findOwn, Meaning.own]
  refine (decides_imported name).bind_silent ?_
  rintro _ rfl
  cases m.imported imports name with
  | some found => exact decides_pure trivial rfl
  | none => exact decides_ask _

end Checker

/-! ## Functions of units -/

namespace Program

variable {p : Program} {owner : Member}

/-- The generator knows how many arguments the functions of the unit take. -/
theorem arity_function? (p : Program) (owner : Member) (name : String) :
    ((p.context owner).function? name).map Prod.snd =
      (owner.parsed.function? name).map fun decl => decl.params.length := by
  cases h : (p.context owner).function? name with
  | none =>
    rw [function?_eq_none h]
    rfl
  | some found =>
    obtain ⟨index, arity⟩ := found
    obtain ⟨decl, _, harity, hdecl⟩ := function?_eq_some h
    rw [hdecl]
    exact congrArg some harity.symm

theorem siblingArity?_eq (unit name : String) :
    (p.context owner).siblingArity? unit name = p.unitArity? unit name := by
  rw [UnitContext.siblingArity?, context, signatures, lookup_map, unitArity?]
  show ((p.member? unit).map _).bind _ = _
  cases p.member? unit with
  | none => rfl
  | some other =>
    show List.lookup name other.parsed.signatures = _
    rw [ParsedUnit.signatures_eq, lookup_map]
    rfl

end Program

/-- A check of a unit whose imports are known passes exactly if `P`; then `Q` holds of its result. -/
abbrev Checker.DecidesIn {α : Type} (p : Program) (owner : Member) (c : Checker α) (P : Prop)
    (Q : α → Prop) : Prop :=
  Checker.Decides p.meaning (Checker.Knows p.meaning owner.parsed.imports) c P Q
    (Checker.Knows p.meaning owner.parsed.imports)

namespace Generator

open Checker

variable {p : Program} {owner : Member} {scope : Scope}

/-! ## Calls -/

theorem decides_placeholder {ctx : UnitContext} {pos : Position} {problem : CheckProblem} {P : Prop}
    {Q : Op → Prop} (h : problem.severity = .error) (hP : ¬ P) :
    DecidesIn p owner (placeholder ctx pos problem) P Q :=
  decides_error_bind h hP

theorem decides_checkArity (ctx : UnitContext) (pos : Position) (function : String)
    (expected supplied : Nat) :
    DecidesIn p owner (checkArity ctx pos function expected supplied) (expected = supplied)
      fun _ => True := by
  rw [checkArity]
  by_cases h : expected = supplied
  · rw [if_neg (not_not.2 h)]
    exact decides_pure h trivial
  · rw [if_pos h]
    exact decides_error rfl h

/-- The operation behind a check of the number of arguments. -/
theorem decides_arity_bind (ctx : UnitContext) (pos : Position) (function : String)
    (expected supplied : Nat) (op : Op) :
    DecidesIn p owner (do checkArity ctx pos function expected supplied; return op)
      (expected = supplied) fun _ => True :=
  (decides_checkArity ctx pos function expected supplied).bind_pure fun _ _ => trivial

theorem decides_findCallee (name : String) :
    DecidesIn p owner (findCallee (p.context owner) name) True
      (· = p.meaning.callee owner.unit owner.parsed.imports name) := by
  rw [findCallee, Meaning.callee]
  refine (decides_findOwn owner.unit name).bind_silent ?_
  rintro _ rfl
  cases p.meaning.own owner.unit owner.parsed.imports name with
  | some found => exact decides_pure trivial rfl
  | none => exact decides_ask _

/-- A called name is no variable, and takes as many arguments as it is given. -/
theorem decides_callOp (scope : Scope) (name : String) (argc : Nat) (pos : Position) :
    DecidesIn p owner (callOp (p.context owner) scope name argc pos)
      (name ∉ scope.visible ∧ p.callArity? owner name = some argc) fun _ => True := by
  rw [callOp, ← scope.isSome_slot?]
  by_cases hslot : (scope.slot? name).isSome = true
  · rw [if_pos hslot]
    exact decides_placeholder rfl fun h => h.1 hslot
  rw [if_neg hslot]
  have harity := p.arity_function? owner name
  rw [Program.callArity?]
  cases hfunction : (p.context owner).function? name with
  | some found =>
    obtain ⟨index, arity⟩ := found
    rw [hfunction] at harity
    obtain ⟨decl, hdecl, rfl⟩ := Option.map_eq_some_iff.1 harity.symm
    rw [hdecl]
    refine (decides_arity_bind _ _ _ _ _ _).congr ?_
    simp [hslot]
  | none =>
    rw [hfunction] at harity
    rw [Option.map_eq_none_iff.1 harity.symm]
    refine (decides_findCallee name).bind_silent ?_
    rintro _ rfl
    rcases p.meaning.callee owner.unit owner.parsed.imports name with _ | ⟨location, unit | contract | symbol⟩
    · exact decides_placeholder rfl (by simp)
    · exact decides_placeholder rfl (by simp)
    · exact decides_placeholder rfl (by simp)
    · exact (decides_arity_bind _ _ _ _ _ _).congr (by simp [hslot])

theorem decides_unitCallOp (hself : p.member? owner.unit.qualifiedName = some owner)
    (unit target method : String) (argc : Nat) (pos : Position) :
    DecidesIn p owner (unitCallOp (p.context owner) unit target method argc pos)
      (p.unitArity? unit method = some argc) fun _ => True := by
  rw [unitCallOp]
  split
  · next hunit =>
    obtain rfl : unit = owner.unit.qualifiedName := hunit
    have harity := p.arity_function? owner method
    have hown : p.unitArity? owner.unit.qualifiedName method =
        (owner.parsed.function? method).map fun decl => decl.params.length := by
      rw [Program.unitArity?, hself]
      rfl
    rw [hown, ← harity]
    cases (p.context owner).function? method with
    | some found => exact (decides_arity_bind _ _ _ _ _ _).congr (by simp)
    | none => exact decides_placeholder rfl (by simp)
  · rw [Program.siblingArity?_eq]
    cases p.unitArity? unit method with
    | some arity => exact (decides_arity_bind _ _ _ _ _ _).congr (by simp)
    | none => exact decides_placeholder rfl (by simp)

/-- A name that is called on a target takes as many arguments as it is given. -/
theorem decides_memberCallOp (hself : p.member? owner.unit.qualifiedName = some owner)
    (target method : String) (argc : Nat) (pos : Position) :
    DecidesIn p owner (memberCallOp (p.context owner) target method argc pos)
      (p.memberCallArity? owner target method = some argc) fun _ => True := by
  rw [memberCallOp, Program.memberCallArity?]
  refine (decides_findOwn owner.unit target).bind_silent ?_
  rintro _ rfl
  rcases p.meaning.own owner.unit owner.parsed.imports target with _ | ⟨location, unit | contract | symbol⟩
  · exact decides_placeholder rfl (by simp)
  · exact decides_unitCallOp hself _ target method argc pos
  · exact decides_placeholder rfl (by simp)
  · exact decides_placeholder rfl (by simp)

/-! ## Expressions -/

mutual

/-- The generator decides whether an expression is well formed. -/
theorem decides_expr (hself : p.member? owner.unit.qualifiedName = some owner) :
    ∀ (e : Expr) {start : Nat}, DecidesIn p owner (expr (p.context owner) scope start e)
      (ValidExpr p owner scope.visible e) fun _ => True
  | .int value pos, start => by
    rw [expr]
    exact decides_pure .int trivial
  | .str text pos, start => by
    rw [expr]
    exact decides_pure .str trivial
  | .bool value pos, start => by
    rw [expr]
    exact decides_pure .bool trivial
  | .var name pos, start => by
    rw [expr, ValidExpr.var_iff, ← scope.isSome_slot?]
    cases scope.slot? name with
    | some slot =>
      exact decides_pure rfl trivial
    | none =>
      exact (decides_placeholder (Q := fun _ => True) rfl (by simp)).bind_pure fun _ _ => trivial
  | .call name es pos, start => by
    rw [expr, ValidExpr.call_iff]
    exact (decides_args hself es).bind fun _ _ =>
      (decides_callOp scope name es.length pos).bind_pure fun _ _ => trivial
  | .memberCall target method es pos, start => by
    rw [expr, ValidExpr.memberCall_iff]
    exact (decides_args hself es).bind fun _ _ =>
      (decides_memberCallOp hself target method es.length pos).bind_pure fun _ _ => trivial
  | .neg operand pos, start => by
    rw [expr, ValidExpr.neg_iff]
    exact (decides_expr hself operand).bind_pure fun _ _ => trivial
  | .not operand pos, start => by
    rw [expr, ValidExpr.not_iff]
    exact (decides_expr hself operand).bind_pure fun _ _ => trivial
  | .binary op left right pos, start => by
    rw [expr, ValidExpr.binary_iff]
    exact (decides_expr hself left).bind fun _ _ =>
      (decides_expr hself right).bind_pure fun _ _ => trivial
  | .and left right pos, start => by
    rw [expr, ValidExpr.and_iff]
    exact (decides_expr hself left).bind fun _ _ =>
      (decides_expr hself right).bind_pure fun _ _ => trivial
  | .or left right pos, start => by
    rw [expr, ValidExpr.or_iff]
    exact (decides_expr hself left).bind fun _ _ =>
      (decides_expr hself right).bind_pure fun _ _ => trivial

/-- The generator decides whether arguments are well formed. -/
theorem decides_args (hself : p.member? owner.unit.qualifiedName = some owner) :
    ∀ (es : List Expr) {start : Nat}, DecidesIn p owner (args (p.context owner) scope start es)
      (∀ e ∈ es, ValidExpr p owner scope.visible e) fun _ => True
  | [], start => by
    rw [args]
    exact decides_pure (by simp) trivial
  | e :: rest, start => by
    rw [args, List.forall_mem_cons]
    exact (decides_expr hself e).bind fun _ _ =>
      (decides_args hself rest).bind_pure fun _ _ => trivial

end

/-! ## Statements -/

mutual

/-- The generator decides whether a statement is well formed.  The names that are visible behind it are those in
front of it and what it declares. -/
theorem decides_stmt (hself : p.member? owner.unit.qualifiedName = some owner) :
    ∀ (s : Stmt) {scope : Scope} {start : Nat}, DecidesIn p owner (stmt (p.context owner) scope start s)
      (ValidStmt p owner scope.visible s) fun r => r.2.visible = s.declared ++ scope.visible
  | .declare name value pos, scope, start => by
    rw [stmt, ValidStmt.declare_iff]
    exact (decides_expr hself value).bind_pure fun _ _ => rfl
  | .assign name value pos, scope, start => by
    rw [stmt, ValidStmt.assign_iff, ← scope.isSome_slot?]
    refine (decides_expr hself value).bind fun _ _ => ?_
    cases scope.slot? name with
    | some slot => exact decides_pure rfl rfl
    | none => exact decides_error_bind rfl (by simp)
  | .branch condition thenBody elseBody, scope, start => by
    rw [stmt, ValidStmt.branch_iff]
    exact (decides_expr hself condition).bind fun _ _ =>
      (decides_body hself thenBody).bind fun _ _ =>
        (decides_optionalBody hself elseBody).bind_pure fun _ _ => rfl
  | .loop condition loopBody, scope, start => by
    rw [stmt, ValidStmt.loop_iff]
    exact (decides_expr hself condition).bind fun _ _ =>
      (decides_body hself loopBody).bind_pure fun _ _ => rfl
  | .ret none pos, scope, start => by
    rw [stmt, ValidStmt.ret_iff]
    exact decides_pure (by simp) rfl
  | .ret (some value) pos, scope, start => by
    rw [stmt, ValidStmt.ret_iff]
    simp only [Option.some.injEq, forall_eq']
    exact (decides_expr hself value).bind_pure fun _ _ => rfl
  | .expr value, scope, start => by
    rw [stmt, ValidStmt.expr_iff]
    exact (decides_expr hself value).bind_pure fun _ _ => rfl

/-- The generator decides whether the statements of a block are well formed. -/
theorem decides_body (hself : p.member? owner.unit.qualifiedName = some owner) :
    ∀ (stmts : List Stmt) {scope : Scope} {start : Nat},
      DecidesIn p owner (body (p.context owner) scope start stmts)
        (ValidBody p owner scope.visible stmts) fun _ => True
  | [], scope, start => by
    rw [body]
    exact decides_pure .nil trivial
  | s :: rest, scope, start => by
    rw [body, ValidBody.cons_iff]
    refine (decides_stmt hself s).bind fun r hr => ?_
    rw [← hr]
    exact (decides_body hself rest).bind_pure fun _ _ => trivial

/-- The generator decides whether the statements of a block that may be missing are well formed. -/
theorem decides_optionalBody (hself : p.member? owner.unit.qualifiedName = some owner) :
    ∀ (stmts : Option (List Stmt)) {scope : Scope} {start : Nat},
      DecidesIn p owner (optionalBody (p.context owner) scope start stmts)
        (∀ found, stmts = some found → ValidBody p owner scope.visible found) fun _ => True
  | none, scope, start => by
    rw [optionalBody]
    exact decides_pure (by simp) trivial
  | some stmts, scope, start => by
    rw [optionalBody]
    exact (decides_body hself stmts).congr (by simp)

end

/-! ## Functions -/

/-- Parameters are well formed if they differ from each other and from the names that are visible. -/
theorem decides_paramScope (ctx : UnitContext) (params : List (String × Position)) {scope : Scope} :
    DecidesIn p owner (paramScope ctx scope params)
      ((params.map Prod.fst).Nodup ∧ (params.map Prod.fst).Disjoint scope.visible)
      fun after => after.visible = (params.map Prod.fst).reverse ++ scope.visible := by
  induction params generalizing scope with
  | nil => exact decides_pure (by simp) rfl
  | cons param rest ih =>
    obtain ⟨name, pos⟩ := param
    rw [paramScope, List.map_cons, List.nodup_cons, List.disjoint_cons_left]
    refine ((decides_report_if rfl ih).congr ?_).imp (fun after _ hafter => ?_) fun _ h => h
    · rw [scope.isSome_slot?, scope.visible_declare, List.disjoint_cons_right]
      tauto
    · rw [hafter, scope.visible_declare]
      simp

/-- The generator decides whether a function is well formed. -/
theorem decides_function (hself : p.member? owner.unit.qualifiedName = some owner)
    (decl : FunctionDecl) :
    DecidesIn p owner (function (p.context owner) decl) (ValidFunction p owner decl)
      fun f => (f.name, f.arity) = (decl.name, decl.params.length) := by
  rw [function]
  refine ((decides_paramScope _ decl.params).bind
    (S := ValidBody p owner (decl.params.map Prod.fst).reverse decl.body) fun scope hscope => ?_).congr ?_
  · have hvisible : scope.visible = (decl.params.map Prod.fst).reverse := by
      rw [hscope]
      exact List.append_nil _
    rw [← hvisible]
    exact (decides_body hself decl.body).bind_pure fun _ _ => rfl
  · constructor
    · rintro ⟨⟨hnodup, _⟩, hbody⟩
      exact ⟨hnodup, hbody⟩
    · rintro ⟨hnodup, hbody⟩
      exact ⟨⟨hnodup, List.disjoint_nil_right _⟩, hbody⟩

/-- The generator decides whether functions are well formed. -/
theorem decides_functions (hself : p.member? owner.unit.qualifiedName = some owner)
    (decls : List FunctionDecl) :
    DecidesIn p owner (decls.mapM (function (p.context owner)))
      (∀ decl ∈ decls, ValidFunction p owner decl)
      fun fs =>
        fs.map (fun f => (f.name, f.arity)) = decls.map fun decl => (decl.name, decl.params.length) := by
  induction decls with
  | nil => exact decides_pure (by simp) rfl
  | cons decl decls ih =>
    rw [List.mapM_cons, List.forall_mem_cons]
    refine (decides_function hself decl).bind fun f hf => ih.bind_pure fun fs hfs => ?_
    rw [List.map_cons, List.map_cons, hf, hfs]

end Generator

namespace Checker

variable {p : Program} {owner : Member} {m : Meaning}

/-! ## Plugins -/

theorem decides_supertypeEntry (path : List String) :
    DecidesIn p owner (supertypeEntry owner.unit path) True
      (· = p.meaning.supertype owner.unit owner.parsed.imports path) := by
  match path with
  | [] => exact decides_ask _
  | [name] => exact decides_findOwn owner.unit name
  | first :: second :: rest => exact decides_ask _

/-- The supertype of a plugin must be a contract type. -/
theorem decides_supertype (path : List String) (pos : Position) :
    DecidesIn p owner (supertype owner.unit path pos)
      (∃ contract location, p.meaning.supertype owner.unit owner.parsed.imports path =
        some (location, .contract contract))
      fun found => ∃ contract location, found = some contract ∧
        p.meaning.supertype owner.unit owner.parsed.imports path = some (location, .contract contract) := by
  rw [supertype]
  refine (decides_supertypeEntry path).bind_silent ?_
  rintro _ rfl
  rcases p.meaning.supertype owner.unit owner.parsed.imports path with
    _ | ⟨location, unit | contract | symbol⟩
  · exact decides_error_bind rfl (by simp)
  · exact decides_error_bind rfl (by simp)
  · exact decides_pure ⟨contract, location, rfl⟩ ⟨contract, location, rfl, rfl⟩
  · exact decides_error_bind rfl (by simp)

/-- No two functions may have one name. -/
theorem decides_duplicateFunctions (unit : PluginUnit) (decls : List FunctionDecl) {seen : List String} :
    DecidesIn p owner (duplicateFunctions unit seen decls)
      ((decls.map FunctionDecl.name).Nodup ∧ (decls.map FunctionDecl.name).Disjoint seen)
      fun _ => True := by
  induction decls generalizing seen with
  | nil => exact decides_pure (by simp) trivial
  | cons decl decls ih =>
    rw [duplicateFunctions, List.map_cons, List.nodup_cons, List.disjoint_cons_left]
    refine (decides_report_if rfl ih).congr ?_
    rw [List.disjoint_cons_right]
    tauto

/-- The entry operation must be there and take no parameters. -/
theorem decides_entryOperation (unit : PluginUnit) (plugin : PluginDecl) :
    DecidesIn p owner (entryOperation unit plugin)
      (∃ f, (plugin.functions.find? fun f => f.name = ContractType.entryOperation) = some f ∧ f.params = [])
      fun _ => True := by
  rw [entryOperation]
  cases plugin.functions.find? fun f => f.name = ContractType.entryOperation with
  | none => exact decides_error rfl (by simp)
  | some f =>
    dsimp only
    split
    · next hparams => exact decides_error rfl (by simpa using hparams)
    · next hparams => exact decides_pure (by simpa using hparams) trivial

/-- An import that was never used is no error. -/
theorem decides_warnUnused {K : List Binding → Prop} (unit : PluginUnit) :
    Decides m K (warnUnused unit) True (fun _ => True) fun _ => True := by
  have hamong : ∀ {K : List Binding → Prop} (bs : List Binding),
      Decides m K (warnUnusedAmong unit bs) True (fun _ => True) K := by
    intro K bs
    induction bs with
    | nil => exact decides_pure trivial trivial
    | cons b rest ih =>
      rw [warnUnusedAmong]
      split
      · exact (decides_warning (by simp [CheckProblem.severity])).bind_silent fun _ _ => ih
      · exact ih
  exact decides_get_bind fun bs _ => (hamong bs).imp (fun _ _ h => h) fun _ _ => trivial

/-- The checker decides whether a plugin is well formed. -/
theorem decides_plugin (hself : p.member? owner.unit.qualifiedName = some owner) (decl : PluginDecl)
    (hdecl : owner.parsed.plugin = some decl) :
    Decides p.meaning (Knows p.meaning owner.parsed.imports)
      (plugin owner.unit p.signatures owner.parsed decl) (∃ contract, ValidPlugin p owner contract decl)
      (fun compiled => ∃ m, compiled = some m ∧ m.Presents owner) fun _ => True := by
  rw [plugin]
  refine (decides_report_if rfl ((decides_supertype decl.supertype decl.supertypePosition).bind
    fun found hfound => (decides_duplicateFunctions owner.unit decl.functions).bind
      fun _ _ => (decides_entryOperation owner.unit decl).bind
        fun _ _ => (Generator.decides_functions hself decl.functions).bind
          fun functions hfs => (decides_warnUnused owner.unit).bind_pure fun _ _ => ?_)).congr ?_
  · obtain ⟨contract, location, rfl, _⟩ := hfound
    refine ⟨_, rfl, rfl, rfl, ?_⟩
    rw [owner.parsed.signatures_eq, ParsedUnit.functions, hdecl]
    exact hfs
  · constructor
    · rintro ⟨hname, ⟨contract, hsupertype⟩, ⟨hnodup, _⟩, ⟨entry, hfind, hparams⟩, hbodies, _⟩
      obtain ⟨hentry, hentryName⟩ := (find?_key_eq_some hnodup).1 hfind
      exact ⟨contract, not_not.1 hname, hsupertype, hnodup, ⟨entry, hentry, hentryName, hparams⟩, hbodies⟩
    · rintro ⟨contract, hname, hsupertype, hnodup, ⟨entry, hentry, hentryName, hparams⟩, hbodies⟩
      exact ⟨not_not.2 hname, ⟨contract, hsupertype⟩, ⟨hnodup, List.disjoint_nil_right _⟩,
        ⟨entry, (find?_key_eq_some hnodup).2 ⟨hentry, hentryName⟩, hparams⟩, hbodies, trivial⟩

/-! ## Imports -/

theorem Knows.any_name {imports : List Import} {bs : List Binding} (h : Knows m imports bs) (name : String) :
    (bs.any fun b => b.decl.name = name) = true ↔ name ∈ imports.map Import.name := by
  have hdecls : bs.map Binding.decl = imports := by
    have htargets := congrArg (List.map Prod.fst) h.targets
    rw [List.map_map, List.map_map] at htargets
    exact htargets.trans (List.map_id imports)
  rw [← hdecls]
  simp

theorem Knows.append {seen : List Import} {bs : List Binding} (h : Knows m seen bs) {i : Import}
    (hfound : (m.anywhere i.package i.name).isSome = true) :
    Knows m (seen ++ [i]) (bs ++ [{ decl := i, target := m.anywhere i.package i.name, used := false }]) := by
  constructor
  · rw [List.map_append, List.map_append, h.targets]
    rfl
  · intro b hb
    rcases List.mem_append.1 hb with hb | hb
    · exact h.found b hb
    · rw [List.mem_singleton.1 hb]
      exact hfound

/-- An import must bind a new name, and be found. -/
theorem decides_bindImport (unit : PluginUnit) (i : Import) {seen : List Import} :
    Decides m (Knows m seen) (bindImport unit i)
      (i.name ∉ seen.map Import.name ∧ (m.anywhere i.package i.name).isSome = true) (fun _ => True)
      (Knows m (seen ++ [i])) := by
  rw [bindImport]
  refine decides_get_bind fun bs hknows => ?_
  rw [← hknows.any_name]
  split
  · next hbound => exact decides_error rfl fun h => h.1 hbound
  · next hbound =>
    refine (decides_findAnywhere i.package i.name).bind_silent ?_
    rintro _ rfl
    dsimp only
    split
    · next hmissing => exact decides_error_bind rfl fun h => by simp_all
    · next hfound =>
      rw [Bool.not_eq_true, Option.isNone_eq_false_iff] at hfound
      refine (decides_modify ?_).congr (iff_of_true trivial ⟨hbound, hfound⟩)
      rintro _ rfl
      exact hknows.append hfound

/-- Imports must bind different names, and be found. -/
theorem decides_bindImports (unit : PluginUnit) (imports : List Import) {seen : List Import} :
    Decides m (Knows m seen) (imports.forM (bindImport unit))
      (((imports.map Import.name).Nodup ∧ (imports.map Import.name).Disjoint (seen.map Import.name)) ∧
        ∀ i ∈ imports, (m.anywhere i.package i.name).isSome = true) (fun _ => True)
      (Knows m (seen ++ imports)) := by
  induction imports generalizing seen with
  | nil =>
    rw [List.append_nil]
    exact decides_pure (by simp) trivial
  | cons i imports ih =>
    rw [List.map_cons, List.nodup_cons, List.disjoint_cons_left, List.forall_mem_cons]
    have hrest := @ih (seen ++ [i])
    rw [List.append_assoc] at hrest
    refine ((decides_bindImport unit i).bind fun _ _ => hrest).congr ?_
    have hseen : (imports.map Import.name).Disjoint ((seen ++ [i]).map Import.name) ↔
        (imports.map Import.name).Disjoint (seen.map Import.name) ∧ i.name ∉ imports.map Import.name := by
      rw [List.map_append, List.disjoint_append_right, List.map_singleton, List.disjoint_singleton]
    rw [hseen]
    tauto

/-! ## Units -/

/-- The checker decides whether a unit is well formed. -/
theorem decides_unit (hself : p.member? owner.unit.qualifiedName = some owner) :
    Decides p.meaning (fun _ => True) (unit owner.unit p.signatures owner.parsed)
      (∃ contract, ValidUnit p owner contract) (fun compiled => ∃ m, compiled = some m ∧ m.Presents owner)
      fun _ => True := by
  rw [unit]
  have hset : Decides p.meaning (fun _ => True) (set ([] : List Binding)) True (fun _ => True)
      (Knows p.meaning []) :=
    decides_modify (f := fun _ => []) fun _ _ => knows_nil
  refine (hset.bind_silent fun _ _ =>
    (decides_bindImports owner.unit owner.parsed.imports).bind
    (S := ∃ contract decl, owner.parsed.plugin = some decl ∧ ValidPlugin p owner contract decl)
    fun _ _ => ?_).congr ?_
  · rw [List.nil_append]
    cases hplugin : owner.parsed.plugin with
    | none => exact decides_error_bind rfl (by simp)
    | some decl => exact (decides_plugin hself decl hplugin).congr (by simp)
  · constructor
    · rintro ⟨⟨⟨hnodup, _⟩, hfound⟩, contract, hplugin⟩
      exact ⟨contract, hnodup, hfound, hplugin⟩
    · rintro ⟨contract, hnodup, hfound, hplugin⟩
      exact ⟨⟨⟨hnodup, List.disjoint_nil_right _⟩, hfound⟩, contract, hplugin⟩

end Checker
end PluginSandbox
