import PluginSandbox.Proofs.Compiler.Code
import PluginSandbox.Proofs.Compiler.Passes
import PluginSandbox.Proofs.Order

/-!
# What the generator generates

The code that the generator gives for a construct, when the check passes, is the code of the construct
(`ExprCode`, `StmtCode`, `FunctionCode`).  Every case follows the construct: the parts pass one after the
other, each is given its code by the induction, and whatever would have been reported has not occurred.
-/

namespace PluginSandbox

open Checker

/-! ## What the generator knows -/

theorem ParsedUnit.signatures_eq (u : ParsedUnit) :
    u.signatures = u.functions.map fun f => (f.name, f.params.length) := by
  rw [signatures, functions]
  cases u.plugin <;> rfl

namespace Program

variable {p : Program} {owner : Member}

/-- The function that the generator finds by a name is the first one of that name. -/
theorem function?_eq_some {name : String} {index arity : Nat}
    (h : (p.context owner).function? name = some (index, arity)) :
    ∃ decl, owner.parsed.functions[index]? = some decl ∧ decl.params.length = arity ∧
      owner.parsed.function? name = some decl := by
  rw [UnitContext.function?, context, ParsedUnit.signatures_eq, List.findIdx?_map] at h
  split at h
  · next i hi =>
    have hfirst : owner.parsed.function? name = owner.parsed.functions[i]? := by
      rw [ParsedUnit.function?, List.find?_eq_bind_findIdx?_getElem?]
      exact congrArg (fun found : Option Nat => found.bind fun i => owner.parsed.functions[i]?) hi
    rw [List.getElem?_map, Option.map_map] at h
    obtain ⟨decl, hdecl, heq⟩ := Option.map_eq_some_iff.1 h
    obtain ⟨rfl, rfl⟩ := Prod.mk.inj heq
    exact ⟨decl, hdecl, rfl, hfirst.trans hdecl⟩
  · exact absurd h (by simp)

theorem function?_eq_none {name : String} (h : (p.context owner).function? name = none) :
    owner.parsed.function? name = none := by
  rw [UnitContext.function?, context, ParsedUnit.signatures_eq, List.findIdx?_map] at h
  split at h
  · next i hi =>
    -- An index that was found is the index of a function.
    obtain ⟨hlt, _⟩ := List.findIdx?_eq_some_iff_getElem.1 hi
    exact absurd h (by simp [hlt])
  · next hnone =>
    rw [ParsedUnit.function?, List.find?_eq_bind_findIdx?_getElem?]
    exact congrArg (fun found : Option Nat => found.bind fun i => owner.parsed.functions[i]?) hnone

/-- The function that the generator finds in another unit is the first one of its name. -/
theorem siblingArity?_eq_some {unit name : String} {arity : Nat}
    (h : (p.context owner).siblingArity? unit name = some arity) :
    ∃ other decl, p.member? unit = some other ∧ other.parsed.function? name = some decl ∧
      decl.params.length = arity := by
  rw [UnitContext.siblingArity?, context, signatures, lookup_map] at h
  obtain ⟨signatures, hunit, hname⟩ := Option.bind_eq_some_iff.1 h
  obtain ⟨other, hother, rfl⟩ := Option.map_eq_some_iff.1 hunit
  rw [ParsedUnit.signatures_eq, lookup_map] at hname
  obtain ⟨decl, hdecl, harity⟩ := Option.map_eq_some_iff.1 hname
  exact ⟨other, decl, hother, hdecl, harity⟩

end Program

namespace Generator

variable {p : Program} {owner : Member} {bs bs' : List Binding} {scope : Scope}

/-! ## Calls -/

/-- Nothing stands for a missing value in a check that passes. -/
theorem not_passes_placeholder {ctx : UnitContext} {pos : Position} {problem : CheckProblem} {op : Op}
    (h : problem.severity = .error) :
    ¬ Passes p.meaning (placeholder ctx pos problem) bs op bs' := by
  intro hpasses
  obtain ⟨_, between, hreport, _⟩ := passes_bind.1 hpasses
  exact (passes_report.1 hreport).1 h

theorem passes_checkArity {ctx : UnitContext} {pos : Position} {function : String}
    {expected supplied : Nat} {op : Op} {next : Checker Op}
    (h : Passes p.meaning (do checkArity ctx pos function expected supplied; next) bs op bs') :
    expected = supplied ∧ Passes p.meaning next bs op bs' := by
  obtain ⟨_, between, hcheck, hnext⟩ := passes_bind.1 h
  rw [checkArity] at hcheck
  split at hcheck
  · exact absurd rfl (passes_report.1 hcheck).1
  · next heq =>
    obtain ⟨_, rfl⟩ := passes_pure.1 hcheck
    exact ⟨not_not.1 heq, hnext⟩

theorem passes_callOp {name : String} {argc : Nat} {pos : Position} {op : Op}
    (hname : isIdentifier name = true) (hknows : Knows p.meaning owner.parsed.imports bs)
    (h : Passes p.meaning (callOp (p.context owner) scope name argc pos) bs op bs') :
    CallsTo p owner (p.callee? owner name) argc op ∧ Knows p.meaning owner.parsed.imports bs' := by
  rw [callOp] at h
  split at h
  · exact absurd h (not_passes_placeholder rfl)
  · cases hfunction : (p.context owner).function? name with
    | some found =>
      obtain ⟨index, arity⟩ := found
      rw [hfunction] at h
      obtain ⟨rfl, hop⟩ := passes_checkArity h
      obtain ⟨rfl, rfl⟩ := passes_pure.1 hop
      obtain ⟨decl, hdecl, rfl, hfirst⟩ := Program.function?_eq_some hfunction
      have hcallee : p.callee? owner name = some (.function owner decl) := by
        rw [Program.callee?, hfirst]
      rw [hcallee]
      exact ⟨.own hdecl, hknows⟩
    | none =>
      rw [hfunction] at h
      obtain ⟨found, between, hfind, hop⟩ := passes_bind.1 h
      obtain ⟨rfl, hknows'⟩ := passes_findCallee hknows hfind
      have hunit : (p.context owner).unit = owner.unit := rfl
      rw [hunit] at hop
      split at hop
      · next location symbol hfound =>
        obtain ⟨rfl, hop⟩ := passes_checkArity hop
        obtain ⟨rfl, rfl⟩ := passes_pure.1 hop
        have hcallee : p.callee? owner name =
            (p.catalogue.function? location symbol).map .native := by
          rw [Program.callee?, Program.function?_eq_none hfunction, hfound]
        rw [hcallee]
        exact ⟨.native hname hfound, hknows'⟩
      · exact absurd hop (not_passes_placeholder rfl)
      · exact absurd hop (not_passes_placeholder rfl)
      · exact absurd hop (not_passes_placeholder rfl)

theorem passes_unitCallOp {unit target method : String} {argc : Nat} {pos : Position} {op : Op}
    (hself : p.member? owner.unit.qualifiedName = some owner)
    (h : Passes p.meaning (unitCallOp (p.context owner) unit target method argc pos) bs op bs') :
    bs' = bs ∧ ∃ other decl, p.member? unit = some other ∧ other.parsed.function? method = some decl ∧
      CallsTo p owner (some (.function other decl)) argc op := by
  rw [unitCallOp] at h
  split at h
  · next hunit =>
    obtain rfl : unit = owner.unit.qualifiedName := hunit
    cases hfunction : (p.context owner).function? method with
    | some found =>
      obtain ⟨index, arity⟩ := found
      rw [hfunction] at h
      obtain ⟨rfl, hop⟩ := passes_checkArity h
      obtain ⟨rfl, rfl⟩ := passes_pure.1 hop
      obtain ⟨decl, hdecl, rfl, hfirst⟩ := Program.function?_eq_some hfunction
      exact ⟨rfl, owner, decl, hself, hfirst, .own hdecl⟩
    | none =>
      rw [hfunction] at h
      exact absurd h (not_passes_placeholder rfl)
  · cases harity : (p.context owner).siblingArity? unit method with
    | some arity =>
      rw [harity] at h
      obtain ⟨rfl, hop⟩ := passes_checkArity h
      obtain ⟨rfl, rfl⟩ := passes_pure.1 hop
      obtain ⟨other, decl, hother, hdecl, rfl⟩ := Program.siblingArity?_eq_some harity
      exact ⟨rfl, other, decl, hother, hdecl, .other hother hdecl⟩
    | none =>
      rw [harity] at h
      exact absurd h (not_passes_placeholder rfl)

theorem passes_memberCallOp {target method : String} {argc : Nat} {pos : Position} {op : Op}
    (hself : p.member? owner.unit.qualifiedName = some owner)
    (hknows : Knows p.meaning owner.parsed.imports bs)
    (h : Passes p.meaning (memberCallOp (p.context owner) target method argc pos) bs op bs') :
    CallsTo p owner (p.memberCallee? owner target method) argc op ∧
      Knows p.meaning owner.parsed.imports bs' := by
  rw [memberCallOp] at h
  obtain ⟨found, between, hfind, hop⟩ := passes_bind.1 h
  obtain ⟨rfl, hknows'⟩ := passes_findOwn hknows hfind
  have hunit : (p.context owner).unit = owner.unit := rfl
  rw [hunit] at hop
  split at hop
  · next location unit hfound =>
    obtain ⟨rfl, other, decl, hother, hdecl, hcalls⟩ := passes_unitCallOp hself hop
    have hcallee : p.memberCallee? owner target method = some (.function other decl) := by
      rw [Program.memberCallee?, hfound]
      simp [hother, hdecl]
    rw [hcallee]
    exact ⟨hcalls, hknows'⟩
  · exact absurd hop (not_passes_placeholder rfl)
  · exact absurd hop (not_passes_placeholder rfl)
  · exact absurd hop (not_passes_placeholder rfl)

/-! ## Expressions -/

mutual

/-- The code that the generator gives for an expression is its code. -/
theorem passes_expr (hself : p.member? owner.unit.qualifiedName = some owner) :
    ∀ (e : Expr) {start : Nat} {code : List Op} {bs bs' : List Binding}, e.Plain →
      Knows p.meaning owner.parsed.imports bs →
      Passes p.meaning (expr (p.context owner) scope start e) bs code bs' →
      ExprCode p owner scope start e code ∧ Knows p.meaning owner.parsed.imports bs'
  | .int value pos, start, code, bs, bs', _, hknows, h => by
    obtain ⟨rfl, rfl⟩ := passes_pure.1 h
    exact ⟨.int, hknows⟩
  | .str text pos, start, code, bs, bs', _, hknows, h => by
    obtain ⟨rfl, rfl⟩ := passes_pure.1 h
    exact ⟨.str, hknows⟩
  | .bool value pos, start, code, bs, bs', _, hknows, h => by
    obtain ⟨rfl, rfl⟩ := passes_pure.1 h
    exact ⟨.bool, hknows⟩
  | .var name pos, start, code, bs, bs', _, hknows, h => by
    rw [expr] at h
    cases hslot : scope.slot? name with
    | some slot =>
      rw [hslot] at h
      obtain ⟨rfl, rfl⟩ := passes_pure.1 h
      exact ⟨.var hslot, hknows⟩
    | none =>
      rw [hslot] at h
      obtain ⟨op, between, hop, _⟩ := passes_bind.1 h
      exact absurd hop (not_passes_placeholder rfl)
  | .call name es pos, start, code, bs, bs', hplain, hknows, h => by
    obtain ⟨hname, hes⟩ := hplain
    rw [expr] at h
    obtain ⟨argsCode, between, hargs, hrest⟩ := passes_bind.1 h
    obtain ⟨hargsCode, hknows'⟩ := passes_args hself es hes hknows hargs
    obtain ⟨op, between', hop, hpure⟩ := passes_bind.1 hrest
    obtain ⟨hcalls, hknows''⟩ := passes_callOp hname hknows' hop
    obtain ⟨rfl, rfl⟩ := passes_pure.1 hpure
    exact ⟨.call hargsCode hcalls, hknows''⟩
  | .memberCall target method es pos, start, code, bs, bs', hplain, hknows, h => by
    rw [expr] at h
    obtain ⟨argsCode, between, hargs, hrest⟩ := passes_bind.1 h
    obtain ⟨hargsCode, hknows'⟩ := passes_args hself es hplain hknows hargs
    obtain ⟨op, between', hop, hpure⟩ := passes_bind.1 hrest
    obtain ⟨hcalls, hknows''⟩ := passes_memberCallOp hself hknows' hop
    obtain ⟨rfl, rfl⟩ := passes_pure.1 hpure
    exact ⟨.memberCall hargsCode hcalls, hknows''⟩
  | .neg operand pos, start, code, bs, bs', hplain, hknows, h => by
    rw [expr] at h
    obtain ⟨inner, between, hinner, hpure⟩ := passes_bind.1 h
    obtain ⟨hcode, hknows'⟩ := passes_expr hself operand hplain hknows hinner
    obtain ⟨rfl, rfl⟩ := passes_pure.1 hpure
    exact ⟨.neg hcode, hknows'⟩
  | .not operand pos, start, code, bs, bs', hplain, hknows, h => by
    rw [expr] at h
    obtain ⟨inner, between, hinner, hpure⟩ := passes_bind.1 h
    obtain ⟨hcode, hknows'⟩ := passes_expr hself operand hplain hknows hinner
    obtain ⟨rfl, rfl⟩ := passes_pure.1 hpure
    exact ⟨.not hcode, hknows'⟩
  | .binary op left right pos, start, code, bs, bs', hplain, hknows, h => by
    rw [expr] at h
    obtain ⟨l, between, hl, hrest⟩ := passes_bind.1 h
    obtain ⟨hleft, hknows'⟩ := passes_expr hself left hplain.1 hknows hl
    obtain ⟨r, between', hr, hpure⟩ := passes_bind.1 hrest
    obtain ⟨hright, hknows''⟩ := passes_expr hself right hplain.2 hknows' hr
    obtain ⟨rfl, rfl⟩ := passes_pure.1 hpure
    exact ⟨.binary hleft hright, hknows''⟩
  | .and left right pos, start, code, bs, bs', hplain, hknows, h => by
    rw [expr] at h
    obtain ⟨l, between, hl, hrest⟩ := passes_bind.1 h
    obtain ⟨hleft, hknows'⟩ := passes_expr hself left hplain.1 hknows hl
    obtain ⟨r, between', hr, hpure⟩ := passes_bind.1 hrest
    obtain ⟨hright, hknows''⟩ := passes_expr hself right hplain.2 hknows' hr
    obtain ⟨rfl, rfl⟩ := passes_pure.1 hpure
    exact ⟨.and hleft hright, hknows''⟩
  | .or left right pos, start, code, bs, bs', hplain, hknows, h => by
    rw [expr] at h
    obtain ⟨l, between, hl, hrest⟩ := passes_bind.1 h
    obtain ⟨hleft, hknows'⟩ := passes_expr hself left hplain.1 hknows hl
    obtain ⟨r, between', hr, hpure⟩ := passes_bind.1 hrest
    obtain ⟨hright, hknows''⟩ := passes_expr hself right hplain.2 hknows' hr
    obtain ⟨rfl, rfl⟩ := passes_pure.1 hpure
    exact ⟨.or hleft hright, hknows''⟩

/-- The code that the generator gives for arguments is their code. -/
theorem passes_args (hself : p.member? owner.unit.qualifiedName = some owner) :
    ∀ (es : List Expr) {start : Nat} {code : List Op} {bs bs' : List Binding}, ArgsPlain es →
      Knows p.meaning owner.parsed.imports bs →
      Passes p.meaning (args (p.context owner) scope start es) bs code bs' →
      ArgsCode p owner scope start es code ∧ Knows p.meaning owner.parsed.imports bs'
  | [], start, code, bs, bs', _, hknows, h => by
    obtain ⟨rfl, rfl⟩ := passes_pure.1 h
    exact ⟨.nil, hknows⟩
  | e :: rest, start, code, bs, bs', hplain, hknows, h => by
    rw [args] at h
    obtain ⟨first, between, hfirst, hrest⟩ := passes_bind.1 h
    obtain ⟨hcode, hknows'⟩ := passes_expr hself e hplain.1 hknows hfirst
    obtain ⟨more, between', hmore, hpure⟩ := passes_bind.1 hrest
    obtain ⟨hmoreCode, hknows''⟩ := passes_args hself rest hplain.2 hknows' hmore
    obtain ⟨rfl, rfl⟩ := passes_pure.1 hpure
    exact ⟨.cons hcode hmoreCode, hknows''⟩

end

/-! ## Statements -/

mutual

/-- The code that the generator gives for a statement is its code. -/
theorem passes_stmt (hself : p.member? owner.unit.qualifiedName = some owner) :
    ∀ (s : Stmt) {scope after : Scope} {start : Nat} {code : List Op} {bs bs' : List Binding},
      s.Plain → Knows p.meaning owner.parsed.imports bs →
      Passes p.meaning (stmt (p.context owner) scope start s) bs (code, after) bs' →
      StmtCode p owner scope start s code after ∧ Knows p.meaning owner.parsed.imports bs'
  | .declare name value pos, scope, after, start, code, bs, bs', hplain, hknows, h => by
    rw [stmt] at h
    obtain ⟨inner, between, hinner, hpure⟩ := passes_bind.1 h
    obtain ⟨hcode, hknows'⟩ := passes_expr hself value hplain hknows hinner
    obtain ⟨heq, rfl⟩ := passes_pure.1 hpure
    obtain ⟨rfl, rfl⟩ := Prod.mk.inj heq
    exact ⟨.declare hcode, hknows'⟩
  | .assign name value pos, scope, after, start, code, bs, bs', hplain, hknows, h => by
    rw [stmt] at h
    obtain ⟨inner, between, hinner, hrest⟩ := passes_bind.1 h
    obtain ⟨hcode, hknows'⟩ := passes_expr hself value hplain hknows hinner
    cases hslot : scope.slot? name with
    | some slot =>
      rw [hslot] at hrest
      obtain ⟨heq, rfl⟩ := passes_pure.1 hrest
      obtain ⟨rfl, rfl⟩ := Prod.mk.inj heq
      exact ⟨.assign hcode hslot, hknows'⟩
    | none =>
      rw [hslot] at hrest
      obtain ⟨_, between', hreport, _⟩ := passes_bind.1 hrest
      exact absurd rfl (passes_report.1 hreport).1
  | .branch condition thenBody elseBody, scope, after, start, code, bs, bs', hplain, hknows, h => by
    rw [stmt] at h
    obtain ⟨c, between₁, hc, hrest⟩ := passes_bind.1 h
    obtain ⟨hcondition, hknows₁⟩ := passes_expr hself condition hplain.1 hknows hc
    obtain ⟨⟨t, afterThen⟩, between₂, ht, hrest⟩ := passes_bind.1 hrest
    obtain ⟨hthen, hknows₂⟩ := passes_body hself thenBody hplain.2.1 hknows₁ ht
    obtain ⟨⟨e, afterElse⟩, between₃, he, hpure⟩ := passes_bind.1 hrest
    obtain ⟨helse, hknows₃⟩ := passes_optionalBody hself elseBody hplain.2.2 hknows₂ he
    obtain ⟨heq, rfl⟩ := passes_pure.1 hpure
    obtain ⟨rfl, rfl⟩ := Prod.mk.inj heq
    exact ⟨.branch hcondition hthen helse, hknows₃⟩
  | .loop condition loopBody, scope, after, start, code, bs, bs', hplain, hknows, h => by
    rw [stmt] at h
    obtain ⟨c, between₁, hc, hrest⟩ := passes_bind.1 h
    obtain ⟨hcondition, hknows₁⟩ := passes_expr hself condition hplain.1 hknows hc
    obtain ⟨⟨b, afterBody⟩, between₂, hb, hpure⟩ := passes_bind.1 hrest
    obtain ⟨hbody, hknows₂⟩ := passes_body hself loopBody hplain.2 hknows₁ hb
    obtain ⟨heq, rfl⟩ := passes_pure.1 hpure
    obtain ⟨rfl, rfl⟩ := Prod.mk.inj heq
    exact ⟨.loop hcondition hbody, hknows₂⟩
  | .ret none pos, scope, after, start, code, bs, bs', _, hknows, h => by
    rw [stmt] at h
    obtain ⟨heq, rfl⟩ := passes_pure.1 h
    obtain ⟨rfl, rfl⟩ := Prod.mk.inj heq
    exact ⟨.retUnit, hknows⟩
  | .ret (some value) pos, scope, after, start, code, bs, bs', hplain, hknows, h => by
    rw [stmt] at h
    obtain ⟨inner, between, hinner, hpure⟩ := passes_bind.1 h
    obtain ⟨hcode, hknows'⟩ := passes_expr hself value hplain hknows hinner
    obtain ⟨heq, rfl⟩ := passes_pure.1 hpure
    obtain ⟨rfl, rfl⟩ := Prod.mk.inj heq
    exact ⟨.ret hcode, hknows'⟩
  | .expr value, scope, after, start, code, bs, bs', hplain, hknows, h => by
    rw [stmt] at h
    obtain ⟨inner, between, hinner, hpure⟩ := passes_bind.1 h
    obtain ⟨hcode, hknows'⟩ := passes_expr hself value hplain hknows hinner
    obtain ⟨heq, rfl⟩ := passes_pure.1 hpure
    obtain ⟨rfl, rfl⟩ := Prod.mk.inj heq
    exact ⟨.expr hcode, hknows'⟩

/-- The code that the generator gives for the statements of a block is their code. -/
theorem passes_body (hself : p.member? owner.unit.qualifiedName = some owner) :
    ∀ (stmts : List Stmt) {scope after : Scope} {start : Nat} {code : List Op}
      {bs bs' : List Binding}, BodyPlain stmts → Knows p.meaning owner.parsed.imports bs →
      Passes p.meaning (body (p.context owner) scope start stmts) bs (code, after) bs' →
      BodyCode p owner scope start stmts code after ∧ Knows p.meaning owner.parsed.imports bs'
  | [], scope, after, start, code, bs, bs', _, hknows, h => by
    rw [body] at h
    obtain ⟨heq, rfl⟩ := passes_pure.1 h
    obtain ⟨rfl, rfl⟩ := Prod.mk.inj heq
    exact ⟨.nil, hknows⟩
  | s :: rest, scope, after, start, code, bs, bs', hplain, hknows, h => by
    rw [body] at h
    obtain ⟨⟨first, scope'⟩, between₁, hfirst, hrest⟩ := passes_bind.1 h
    obtain ⟨hcode, hknows₁⟩ := passes_stmt hself s hplain.1 hknows hfirst
    obtain ⟨⟨more, scope''⟩, between₂, hmore, hpure⟩ := passes_bind.1 hrest
    obtain ⟨hmoreCode, hknows₂⟩ := passes_body hself rest hplain.2 hknows₁ hmore
    obtain ⟨heq, rfl⟩ := passes_pure.1 hpure
    obtain ⟨rfl, rfl⟩ := Prod.mk.inj heq
    exact ⟨.cons hcode hmoreCode, hknows₂⟩

/-- The code that the generator gives for a block that may be missing is its code. -/
theorem passes_optionalBody (hself : p.member? owner.unit.qualifiedName = some owner) :
    ∀ (stmts : Option (List Stmt)) {scope after : Scope} {start : Nat} {code : List Op}
      {bs bs' : List Binding}, OptionalPlain stmts → Knows p.meaning owner.parsed.imports bs →
      Passes p.meaning (optionalBody (p.context owner) scope start stmts) bs (code, after) bs' →
      OptionalCode p owner scope start stmts code after ∧ Knows p.meaning owner.parsed.imports bs'
  | none, scope, after, start, code, bs, bs', _, hknows, h => by
    rw [optionalBody] at h
    obtain ⟨heq, rfl⟩ := passes_pure.1 h
    obtain ⟨rfl, rfl⟩ := Prod.mk.inj heq
    exact ⟨.none, hknows⟩
  | some stmts, scope, after, start, code, bs, bs', hplain, hknows, h => by
    rw [optionalBody] at h
    obtain ⟨hcode, hknows'⟩ := passes_body hself stmts hplain hknows h
    exact ⟨.some hcode, hknows'⟩

end

/-! ## Functions -/

/-- The scope of parameters none of which is declared twice. -/
theorem passes_paramScope {ctx : UnitContext} {m : Meaning} (params : List (String × Position))
    {scope after : Scope} (h : Passes m (paramScope ctx scope params) bs after bs') :
    after = scope.declareAll params ∧ bs' = bs := by
  induction params generalizing scope with
  | nil => exact passes_pure.1 h
  | cons param rest ih =>
    obtain ⟨name, pos⟩ := param
    rw [paramScope] at h
    obtain ⟨_, hrest⟩ := (passes_report_if rfl).1 h
    exact ih hrest

theorem passes_function (hself : p.member? owner.unit.qualifiedName = some owner)
    {decl : FunctionDecl} {f : Function} (hplain : BodyPlain decl.body)
    (hknows : Knows p.meaning owner.parsed.imports bs)
    (h : Passes p.meaning (function (p.context owner) decl) bs f bs') :
    FunctionCode p owner decl f ∧ Knows p.meaning owner.parsed.imports bs' := by
  rw [function] at h
  obtain ⟨scope, between, hparams, hrest⟩ := passes_bind.1 h
  obtain ⟨rfl, rfl⟩ := passes_paramScope decl.params hparams
  obtain ⟨⟨code, after⟩, between', hbody, hpure⟩ := passes_bind.1 hrest
  obtain ⟨hcode, hknows'⟩ := passes_body hself decl.body hplain hknows hbody
  obtain ⟨rfl, rfl⟩ := passes_pure.1 hpure
  exact ⟨.mk hcode, hknows'⟩

theorem passes_functions (hself : p.member? owner.unit.qualifiedName = some owner)
    (decls : List FunctionDecl) {fs : List Function} (hplain : ∀ decl ∈ decls, BodyPlain decl.body)
    (hknows : Knows p.meaning owner.parsed.imports bs)
    (h : Passes p.meaning (decls.mapM (function (p.context owner))) bs fs bs') :
    List.Forall₂ (FunctionCode p owner) decls fs ∧ Knows p.meaning owner.parsed.imports bs' := by
  induction decls generalizing fs bs bs' with
  | nil =>
    rw [List.mapM_nil] at h
    obtain ⟨rfl, rfl⟩ := passes_pure.1 h
    exact ⟨.nil, hknows⟩
  | cons decl decls ih =>
    obtain ⟨hfirstPlain, hrestPlain⟩ := List.forall_mem_cons.1 hplain
    rw [List.mapM_cons] at h
    obtain ⟨f, between, hfirst, hrest⟩ := passes_bind.1 h
    obtain ⟨hcode, hknows'⟩ := passes_function hself hfirstPlain hknows hfirst
    obtain ⟨more, between', hmore, hpure⟩ := passes_bind.1 hrest
    obtain ⟨hmoreCode, hknows''⟩ := ih hrestPlain hknows' hmore
    obtain ⟨rfl, rfl⟩ := passes_pure.1 hpure
    exact ⟨.cons hcode hmoreCode, hknows''⟩

end Generator

/-! ## Units -/

/-- Some question means a contract type. -/
def Meaning.MeansContract (m : Meaning) (contract : ContractType) : Prop :=
  ∃ question location, m question = some (location, .contract contract)

namespace Checker

variable {p : Program} {owner : Member} {bs bs' : List Binding}

/-- What passes for a contract type is one. -/
theorem passes_contractOf {m : Meaning} {unit : PluginUnit} {path : List String} {pos : Position}
    {entry : Found} {found : Option ContractType} (h : Passes m (contractOf unit path pos entry) bs found bs') :
    bs' = bs ∧ ∃ location contract, entry = some (location, .contract contract) ∧ found = some contract := by
  rw [contractOf.eq_def] at h
  split at h
  · next location c =>
    obtain ⟨rfl, rfl⟩ := passes_pure.1 h
    exact ⟨rfl, location, c, rfl, rfl⟩
  · obtain ⟨_, _, hreport, _⟩ := passes_bind.1 h
    exact absurd rfl (passes_report.1 hreport).1
  · obtain ⟨_, _, hreport, _⟩ := passes_bind.1 h
    exact absurd rfl (passes_report.1 hreport).1

/-- The type that a plugin implements is one that a question means. -/
theorem passes_supertype (hknows : Knows p.meaning owner.parsed.imports bs) {path : List String} {pos : Position}
    {found : Option ContractType} (h : Passes p.meaning (supertype owner.unit path pos) bs found bs') :
    Knows p.meaning owner.parsed.imports bs' ∧
      ∃ contract, p.meaning.MeansContract contract ∧ found = some contract := by
  rw [supertype] at h
  obtain ⟨entry, between, hfind, hrest⟩ := passes_bind.1 h
  obtain ⟨rfl, location, c, rfl, rfl⟩ := passes_contractOf hrest
  rw [supertypeEntry.eq_def] at hfind
  split at hfind
  · next name =>
    obtain ⟨hentry, hknows'⟩ := passes_findOwn hknows hfind
    obtain ⟨package, hon | hin⟩ := Meaning.own_eq_some hentry.symm
    · exact ⟨hknows', c, ⟨_, location, hon⟩, rfl⟩
    · exact ⟨hknows', c, ⟨_, location, hin⟩, rfl⟩
  · obtain ⟨hentry, rfl⟩ := passes_ask.1 hfind
    exact ⟨hknows, c, ⟨_, location, hentry.symm⟩, rfl⟩

theorem passes_duplicateFunctions {m : Meaning} {unit : PluginUnit} (decls : List FunctionDecl)
    {seen : List String} {a : Unit} (h : Passes m (duplicateFunctions unit seen decls) bs a bs') :
    bs' = bs := by
  induction decls generalizing seen with
  | nil => exact (passes_pure.1 h).2
  | cons decl decls ih =>
    rw [duplicateFunctions] at h
    exact ih ((passes_report_if rfl).1 h).2

/-- A plugin that passes has an entry operation without parameters. -/
theorem passes_entryOperation {m : Meaning} {unit : PluginUnit} {plugin : PluginDecl} {a : Unit}
    (h : Passes m (entryOperation unit plugin) bs a bs') :
    bs' = bs ∧ ∃ decl, (plugin.functions.find? fun f => f.name = ContractType.entryOperation) = some decl ∧
      decl.params = [] := by
  rw [entryOperation] at h
  cases hfind : plugin.functions.find? fun f => f.name = ContractType.entryOperation with
  | none =>
    rw [hfind] at h
    exact absurd rfl (passes_report.1 h).1
  | some decl =>
    rw [hfind] at h
    dsimp only at h
    split at h
    · exact absurd rfl (passes_report.1 h).1
    · next hempty =>
      obtain ⟨_, rfl⟩ := passes_pure.1 h
      exact ⟨rfl, decl, rfl, by simpa using hempty⟩

/-- The compiled form of a unit that passes, which has an entry operation without parameters. -/
theorem passes_unit (hself : p.member? owner.unit.qualifiedName = some owner)
    (hplain : ∀ decl ∈ owner.parsed.functions, BodyPlain decl.body) {compiled : Option Module}
    (h : Passes p.meaning (unit owner.unit p.signatures owner.parsed) bs compiled bs') :
    ∃ m, compiled = some m ∧
      (∃ contract, p.meaning.MeansContract contract ∧ ModuleCode p owner contract.qualifiedName m) ∧
      ∃ decl, owner.parsed.function? ContractType.entryOperation = some decl ∧ decl.params = [] := by
  rw [unit] at h
  obtain ⟨_, between₁, hset, hrest₁⟩ := passes_bind.1 h
  obtain rfl : between₁ = [] := passes_modify.1 hset
  obtain ⟨_, between₂, himports, hrest₂⟩ := passes_bind.1 hrest₁
  have hknows := passes_bindImports owner.parsed.imports knows_nil himports
  cases hplugin : owner.parsed.plugin with
  | none =>
    rw [hplugin] at hrest₂
    obtain ⟨_, _, hreport, _⟩ := passes_bind.1 hrest₂
    exact absurd rfl (passes_report.1 hreport).1
  | some decl =>
    have hfunctions : owner.parsed.functions = decl.functions := by
      rw [ParsedUnit.functions, hplugin]
    rw [hfunctions] at hplain
    rw [hplugin] at hrest₂
    dsimp only at hrest₂
    rw [plugin] at hrest₂
    obtain ⟨_, hrest₃⟩ := (passes_report_if rfl).1 hrest₂
    obtain ⟨found, between₃, hsupertype, hrest₄⟩ := passes_bind.1 hrest₃
    obtain ⟨hknows₃, contract, hcontract, rfl⟩ := passes_supertype hknows hsupertype
    obtain ⟨_, between₄, hduplicates, hrest₅⟩ := passes_bind.1 hrest₄
    obtain rfl := passes_duplicateFunctions decl.functions hduplicates
    obtain ⟨_, between₅, hentry, hrest₆⟩ := passes_bind.1 hrest₅
    obtain ⟨rfl, entry, hfind, hparams⟩ := passes_entryOperation hentry
    obtain ⟨fs, between₆, hfs, hrest₇⟩ := passes_bind.1 hrest₆
    have hcode := (Generator.passes_functions hself decl.functions hplain hknows₃ hfs).1
    obtain ⟨_, between₇, _, hpure⟩ := passes_bind.1 hrest₇
    obtain ⟨rfl, _⟩ := passes_pure.1 hpure
    refine ⟨_, rfl, ⟨contract, hcontract, rfl, rfl, rfl, ?_⟩, entry, ?_, hparams⟩
    · rw [hfunctions]
      exact hcode
    · rw [ParsedUnit.function?, hfunctions]
      exact hfind

/-- The compiled forms of units that pass: every unit has one, in order. -/
theorem passes_units (members : List Member)
    (hself : ∀ owner ∈ members, p.member? owner.unit.qualifiedName = some owner)
    (hplain : ∀ owner ∈ members, ∀ decl ∈ owner.parsed.functions, BodyPlain decl.body)
    {compiled : List (PluginUnit × Module)}
    (h : Passes p.meaning (units p.signatures (members.map fun owner => (owner.unit, owner.parsed))) bs
      compiled bs') :
    List.Forall₂ (fun owner c => c.1 = owner.unit ∧
      (∃ contract, p.meaning.MeansContract contract ∧ ModuleCode p owner contract.qualifiedName c.2) ∧
      ∃ decl, owner.parsed.function? ContractType.entryOperation = some decl ∧ decl.params = [])
      members compiled := by
  induction members generalizing compiled bs bs' with
  | nil =>
    obtain ⟨rfl, _⟩ := passes_pure.1 h
    exact .nil
  | cons owner members ih =>
    obtain ⟨hfirstSelf, hrestSelf⟩ := List.forall_mem_cons.1 hself
    obtain ⟨hfirstPlain, hrestPlain⟩ := List.forall_mem_cons.1 hplain
    rw [List.map_cons, units] at h
    obtain ⟨first, between₁, hunit, hrest₁⟩ := passes_bind.1 h
    obtain ⟨m, rfl, hmodule, hentry⟩ := passes_unit hfirstSelf hfirstPlain hunit
    obtain ⟨more, between₂, hmore, hpure⟩ := passes_bind.1 hrest₁
    obtain ⟨rfl, _⟩ := passes_pure.1 hpure
    exact .cons ⟨rfl, hmodule, hentry⟩ (ih hrestSelf hrestPlain hmore)

end Checker
end PluginSandbox
