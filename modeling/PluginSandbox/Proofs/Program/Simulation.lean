import PluginSandbox.Proofs.Machine.Place
import PluginSandbox.Proofs.Program.Variables

/-!
# Generated code follows evaluations

A machine that stands in front of the code of a construct, with the variables of an evaluation in its slots,
follows the evaluation of the construct: to behind the code, with the value of an expression on top of its
operands, or with the new variables in its slots (`ExprCode.follows`, `StmtCode.follows`).

What calls do is taken for granted here (`Calls.CarriedOut`), so the induction is on the code of one function.
A loop is followed turn by turn: the bound of an evaluation limits the turns, and each turn is at least one
step of the machine, the jump back.
-/

namespace PluginSandbox

open Machine

section
variable {p : Program} {owner : Member} {setting : MachineSetting} {s : LoadSource} {fr : Frame}
  {callers : Counted Frame} {calls : Calls} {least bound : Nat}

/-- What calls do in an evaluation is what the operations that call do in a frame. -/
structure Calls.CarriedOut (calls : Calls) (p : Program) (owner : Member) (setting : MachineSetting)
    (s : LoadSource) (fr : Frame) (callers : Counted Frame) (least : Nat) : Prop where
  function : ∀ {name : String} {argc pc : Nat} {op : Op} {locals : Array Value} {stack : Counted Value}
    {args : List Value} {m : Machine}, CallsTo p owner (p.callee? owner name) argc op →
    fr.function.code[pc]? = some op → args.length = argc →
    m.At s fr callers pc locals (stack.pushAll args) →
    m.Follows setting least (calls.function name args) fun v m' =>
      m'.At s fr callers (pc + 1) locals (stack.push v)
  member : ∀ {target method : String} {argc pc : Nat} {op : Op} {locals : Array Value}
    {stack : Counted Value} {args : List Value} {m : Machine},
    CallsTo p owner (p.memberCallee? owner target method) argc op →
    fr.function.code[pc]? = some op → args.length = argc →
    m.At s fr callers pc locals (stack.pushAll args) →
    m.Follows setting least (calls.member target method args) fun v m' =>
      m'.At s fr callers (pc + 1) locals (stack.push v)

/-! ## Expressions -/

section
variable {scope : Scope} {locals : Array Value} {vars : Variables}

mutual

/-- The code of an expression puts its value on top of the operands. -/
theorem ExprCode.follows (hcalls : calls.CarriedOut p owner setting s fr callers least)
    (hvars : scope.Holds locals vars) : ∀ {start : Nat} {e : Expr} {code : List Op},
    ExprCode p owner scope start e code → fr.function.HasAt start code →
    ∀ {m : Machine} {stack : Counted Value}, m.At s fr callers start locals stack →
    m.Follows setting least (Evaluation.expr calls vars e) fun v m' =>
      m'.At s fr callers (start + code.length) locals (stack.push v)
  | _, _, _, .int, hcode, m, stack, hm | _, _, _, .str, hcode, m, stack, hm
  | _, _, _, .bool, hcode, m, stack, hm => by
    rw [Evaluation.expr]
    exact hm.follows_const hcode.op fun m' hm' => follows_pure hm'
  | _, _, _, .var hslot, hcode, m, stack, hm => by
    rw [Evaluation.expr]
    exact hm.follows_load hcode.op (hvars.value hslot) fun m' hm' => follows_pure hm'
  | _, _, _, .call hargs hto, hcode, m, stack, hm => by
    rw [Evaluation.expr]
    refine (ArgsCode.follows hcalls hvars hargs hcode.left hm).bind fun args m' hm' => ?_
    refine (hcalls.function hto (hcode.opBehind rfl) hm'.1 hm'.2).imp fun v m'' hm'' => ?_
    exact hm''.moveTo (by rw [List.length_append]; rfl)
  | _, _, _, .memberCall hargs hto, hcode, m, stack, hm => by
    rw [Evaluation.expr]
    refine (ArgsCode.follows hcalls hvars hargs hcode.left hm).bind fun args m' hm' => ?_
    refine (hcalls.member hto (hcode.opBehind rfl) hm'.1 hm'.2).imp fun v m'' hm'' => ?_
    exact hm''.moveTo (by rw [List.length_append]; rfl)
  | _, _, _, .neg hoperand, hcode, m, stack, hm | _, _, _, .not hoperand, hcode, m, stack, hm => by
    rw [Evaluation.expr]
    refine (ExprCode.follows hcalls hvars hoperand hcode.left hm).bind fun v m' hm' => ?_
    refine (hm'.follows_unary (hcode.opBehind rfl)).imp fun r m'' hm'' => ?_
    exact hm''.moveTo (by rw [List.length_append]; rfl)
  | start, _, _, .binary hl hr, hcode, m, stack, hm => by
    rw [Evaluation.expr]
    refine (ExprCode.follows hcalls hvars hl hcode.left.left hm).bind fun left m' hm' => ?_
    refine (ExprCode.follows hcalls hvars hr (hcode.left.right rfl) hm').bind fun right m'' hm'' => ?_
    refine (hm''.follows_binary (hcode.opBehind ?_)).imp fun r m''' hm''' => hm'''.moveTo ?_
    · rw [List.length_append, Nat.add_assoc]
    · simp only [List.length_append, List.length_singleton, Nat.add_assoc]
  | start, _, _, @ExprCode.and _ _ _ _ _ _ _ l r hl hr, hcode, m, stack, hm => by
    rw [Evaluation.expr]
    have hend : start + l.length + 1 + r.length =
        start + (l ++ [Op.jumpIfFalse (start + l.length + 1 + r.length + 1)] ++ r).length := by
      simp only [List.length_append, List.length_singleton]
      omega
    refine (ExprCode.follows hcalls hvars hl hcode.left.left.left hm).bind fun left m' hm' => ?_
    refine (hm'.follows_truth (hcode.left.left.opBehind rfl)).bind fun b m'' hm'' => ?_
    cases b with
    | true =>
      have hright := ExprCode.follows hcalls hvars hr
        (hcode.left.right (by rw [List.length_append]; rfl)) hm''
      refine hright.andThen fun v m₃ hm₃ => ?_
      refine (hm₃.follows_jump (hcode.opBehind hend) fun m₄ hm₄ => ?_).mono (Nat.le_succ _) fun _ _ => id
      refine follows_pure (hm₄.moveTo ?_)
      rw [List.length_append, ← Nat.add_assoc, ← hend]
      rfl
    | false =>
      refine hm''.follows_const (hcode.right hend).tail.op fun m₃ hm₃ => follows_pure (hm₃.moveTo ?_)
      rw [List.length_append, ← Nat.add_assoc, ← hend]
      rfl
  | start, _, _, @ExprCode.or _ _ _ _ _ _ _ l r hl hr, hcode, m, stack, hm => by
    rw [Evaluation.expr]
    refine (ExprCode.follows hcalls hvars hl hcode.left.left hm).bind fun left m' hm' => ?_
    refine (hm'.follows_truth (hcode.left.opBehind rfl)).bind fun b m'' hm'' => ?_
    have hshort := (hcode.left.right rfl).tail
    cases b with
    | true =>
      refine hm''.follows_const hshort.op fun m₃ hm₃ => ?_
      refine (hm₃.follows_jump hshort.tail.op fun m₄ hm₄ => ?_).mono (Nat.le_succ _) fun _ _ => id
      refine follows_pure (hm₄.moveTo ?_)
      simp only [List.length_append, List.length_cons, List.length_nil]
      omega
    | false =>
      have hright := hcode.right (by rw [List.length_append])
      refine (ExprCode.follows hcalls hvars hr hright hm'').imp fun v m₃ hm₃ => hm₃.moveTo ?_
      simp only [List.length_append, List.length_cons, List.length_nil]
      omega

/-- The code of arguments puts their values on top of the operands, the last one topmost. -/
theorem ArgsCode.follows (hcalls : calls.CarriedOut p owner setting s fr callers least)
    (hvars : scope.Holds locals vars) : ∀ {start : Nat} {es : List Expr} {code : List Op},
    ArgsCode p owner scope start es code → fr.function.HasAt start code →
    ∀ {m : Machine} {stack : Counted Value}, m.At s fr callers start locals stack →
    m.Follows setting least (Evaluation.args calls vars es) fun args m' =>
      args.length = es.length ∧
        m'.At s fr callers (start + code.length) locals (stack.pushAll args)
  | _, _, _, .nil, _, m, stack, hm => follows_pure ⟨rfl, hm⟩
  | _, _, _, .cons hfirst hrest, hcode, m, stack, hm => by
    rw [Evaluation.args]
    refine (ExprCode.follows hcalls hvars hfirst hcode.left hm).bind fun v m' hm' => ?_
    refine (ArgsCode.follows hcalls hvars hrest (hcode.right rfl) hm').bind fun more m'' hm'' => ?_
    refine follows_pure ⟨congrArg (· + 1) hm''.1, hm''.2.moveTo ?_⟩
    rw [List.length_append, Nat.add_assoc]

end

end

/-! ## Statements -/

/-- Where a machine stands behind the code of a statement, with the variables of the evaluation in its slots, or
in front of a return with the value that is returned. -/
def FlowsTo (s : LoadSource) (fr : Frame) (callers : Counted Frame) (after : Scope) (pc size : Nat)
    (stack : Counted Value) : Flow → Machine → Prop
  | .next vars, m => ∃ locals, locals.size = size ∧ after.Holds locals vars ∧
    m.At s fr callers pc locals stack
  | .returned v, m => ∃ pc locals, fr.function.code[pc]? = some .ret ∧
    m.At s fr callers pc locals (stack.push v)

section
variable {after : Scope} {pc size : Nat} {stack : Counted Value}

/-- Behind a block the variables from before it are left. -/
theorem FlowsTo.behind {inner : Scope} {flow : Flow} {m : Machine} {scope : Scope} {locals : Array Value}
    {vars : Variables} (h : FlowsTo s fr callers inner pc size stack flow m)
    (hvars : scope.Holds locals vars) (hnames : ∃ declared, inner.names = declared ++ scope.names) :
    FlowsTo s fr callers (scope.leave inner) pc size stack (Evaluation.behind vars flow) m := by
  cases flow with
  | next vars' =>
    obtain ⟨locals', hsize, hvars', hm⟩ := h
    exact ⟨locals', hsize, hvars.leave hvars' hnames, hm⟩
  | returned v => exact h

/-- Only the visible names of a scope matter. -/
theorem FlowsTo.leave {inner : Scope} {flow : Flow} {m : Machine}
    (h : FlowsTo s fr callers after pc size stack flow m) :
    FlowsTo s fr callers (after.leave inner) pc size stack flow m := by
  cases flow <;> exact h

/-- The way on from the end of a block does not concern a function that returns. -/
theorem FlowsTo.follows {after' : Scope} {pc' : Nat} {flow : Flow} {m : Machine}
    (h : FlowsTo s fr callers after pc size stack flow m)
    (hnext : ∀ vars locals, locals.size = size → after.Holds locals vars →
      m.At s fr callers pc locals stack →
      m.Follows setting least (pure (.next vars)) (FlowsTo s fr callers after' pc' size stack)) :
    m.Follows setting least (pure flow) (FlowsTo s fr callers after' pc' size stack) := by
  cases flow with
  | next vars =>
    obtain ⟨locals, hsize, hvars, hm⟩ := h
    exact hnext vars locals hsize hvars hm
  | returned v => exact follows_pure h

/-- A loop is followed turn by turn, if its condition finds the way into it or behind it, and each turn comes to
the jump back. -/
theorem follows_turns {condition : Variables → Evaluation Bool} {turn : Variables → Evaluation Flow}
    (scope : Scope) {start back stop size : Nat} (inside : Nat) {stack : Counted Value}
    (hback : fr.function.code[back]? = some (.jump start))
    (hcondition : ∀ {vars : Variables} {locals : Array Value} {m : Machine}, scope.Holds locals vars →
      m.At s fr callers start locals stack →
      m.Follows setting bound (condition vars) fun b m' =>
        m'.At s fr callers (if b then inside else stop) locals stack)
    (hturn : ∀ {vars : Variables} {locals : Array Value} {m : Machine}, locals.size = size →
      scope.Holds locals vars → m.At s fr callers inside locals stack →
      m.Follows setting bound (turn vars) (FlowsTo s fr callers scope back size stack)) :
    ∀ k ≤ bound, ∀ {vars : Variables} {locals : Array Value} {m : Machine}, locals.size = size →
      scope.Holds locals vars → m.At s fr callers start locals stack →
      m.Follows setting k (Evaluation.turns condition turn k vars)
        (FlowsTo s fr callers scope stop size stack) := by
  intro k
  induction k with
  | zero =>
    intro _ vars locals m _ _ _
    exact ⟨0, m, Nat.le_refl 0, rfl, rfl⟩
  | succ k ih =>
    intro hk vars locals m hsize hvars hm
    rw [Evaluation.turns]
    refine ((hcondition hvars hm).mono hk fun _ _ => id).bind fun b m' hm' => ?_
    cases b with
    | false => exact follows_pure ⟨locals, hsize, hvars, hm'⟩
    | true =>
      refine ((hturn hsize hvars hm').mono hk fun _ _ => id).bind fun flow m'' hflow => ?_
      cases flow with
      | next vars' =>
        obtain ⟨locals', hsize', hvars', hm''⟩ := hflow
        -- The jump back is the step that counts.
        exact hm''.follows_jump hback fun m₃ hm₃ => ih (Nat.le_of_succ_le hk) hsize' hvars' hm₃
      | returned v => exact follows_pure hflow

end

mutual

/-- The code of a statement has its effect on the variables, or comes to a return. -/
theorem StmtCode.follows (hcalls : calls.CarriedOut p owner setting s fr callers bound) :
    ∀ {scope after : Scope} {start : Nat} {st : Stmt} {code : List Op},
    StmtCode p owner scope start st code after → fr.function.HasAt start code → scope.Ordered →
    ∀ {vars : Variables} {locals : Array Value}, scope.Holds locals vars → after.slots ≤ locals.size →
    ∀ {m : Machine} {stack : Counted Value}, m.At s fr callers start locals stack →
    m.Follows setting bound (Evaluation.stmt calls bound vars st)
      (FlowsTo s fr callers after (start + code.length) locals.size stack)
  | scope, _, start, .declare name _ _, _, .declare h, hcode, hscope, vars, locals, hvars,
      hslots, m, stack, hm => by
    have hslot : scope.slots < locals.size := hslots
    rw [Evaluation.stmt]
    refine (h.follows hcalls hvars hcode.left hm).bind fun v m' hm' => ?_
    refine hm'.follows_store (hcode.opBehind rfl) hslot fun m'' hm'' => follows_pure ?_
    refine ⟨_, Array.size_setIfInBounds, hvars.declare hscope hslot name v, hm''.moveTo ?_⟩
    rw [List.length_append, ← Nat.add_assoc]
    rfl
  | _, _, _, .assign name _ _, _, .assign h hslot, hcode, hscope, vars, locals, hvars, hslots, m, stack,
      hm => by
    have hlt := Nat.lt_of_lt_of_le (hscope.slot?_lt hslot) hslots
    rw [Evaluation.stmt]
    refine (h.follows hcalls hvars hcode.left hm).bind fun v m' hm' => ?_
    refine hm'.follows_store (hcode.opBehind rfl) hlt fun m'' hm'' => follows_pure ?_
    refine ⟨_, Array.size_setIfInBounds, hvars.assign hscope hslot v, hm''.moveTo ?_⟩
    rw [List.length_append, ← Nat.add_assoc]
    rfl
  | _, _, start, _, _, .retUnit, hcode, _, vars, locals, _, _, m, stack, hm => by
    rw [Evaluation.stmt]
    refine hm.follows_const hcode.op fun m' hm' => follows_pure ?_
    exact ⟨start + 1, locals, hcode.tail.op, hm'⟩
  | _, _, _, _, _, .ret h, hcode, _, vars, locals, hvars, _, m, stack, hm => by
    rw [Evaluation.stmt]
    refine (h.follows hcalls hvars hcode.left hm).bind fun v m' hm' => follows_pure ?_
    exact ⟨_, locals, hcode.opBehind rfl, hm'⟩
  | _, _, _, _, _, .expr h, hcode, _, vars, locals, hvars, _, m, stack, hm => by
    rw [Evaluation.stmt]
    refine (h.follows hcalls hvars hcode.left hm).bind fun v m' hm' => ?_
    refine hm'.follows_pop (hcode.opBehind rfl) fun m'' hm'' => follows_pure ?_
    refine ⟨locals, rfl, hvars, hm''.moveTo ?_⟩
    rw [List.length_append, ← Nat.add_assoc]
    rfl
  | scope, _, start, _, _, @StmtCode.branch _ _ _ afterThen afterElse _ _ _ _ c t e hc ht he, hcode, hscope,
      vars, locals, hvars, hslots, m, stack, hm => by
    have hthen := ht.grows
    have helse := he.grows
    have hslotsThen : afterThen.slots ≤ locals.size := Nat.le_trans helse.slots_le hslots
    have hstop : start + c.length + 1 + t.length =
        start + (c ++ [Op.jumpIfFalse (start + c.length + 1 + t.length + 1)] ++ t).length := by
      simp only [List.length_append, List.length_singleton]
      omega
    have hcondition := hcode.left.left.left
    rw [Evaluation.stmt]
    refine (hc.follows hcalls hvars hcondition.left hm).bind fun v m' hm' => ?_
    refine (hm'.follows_truth (hcondition.opBehind rfl)).bind fun b m'' hm'' => ?_
    cases b with
    | true =>
      have hbody := BodyCode.follows hcalls ht
        (hcode.left.left.right (by rw [List.length_append]; rfl)) hscope hvars hslotsThen hm''
      refine hbody.bind fun flow m₃ hflow => ?_
      refine (hflow.behind hvars hthen.names).follows fun vars' locals' hsize hvars' hm₃ => ?_
      refine (hm₃.follows_jump (hcode.left.opBehind hstop) fun m₄ hm₄ => ?_).mono (Nat.le_succ _)
        fun _ _ => id
      refine follows_pure ⟨locals', hsize, hvars', hm₄.moveTo ?_⟩
      simp only [List.length_append, List.length_singleton]
      omega
    | false =>
      have hbody := OptionalCode.follows hcalls he
        (hcode.right (by rw [List.length_append, ← Nat.add_assoc, ← hstop]; rfl))
        (hscope.leave hthen.slots_le) hvars hslots hm''
      refine hbody.bind fun flow m₃ hflow => follows_pure ?_
      have hflow' := FlowsTo.behind hflow hvars helse.names
      have hend : start + c.length + 1 + t.length + 1 + e.length = start +
          (c ++ [Op.jumpIfFalse (start + c.length + 1 + t.length + 1)] ++ t ++
            [Op.jump (start + c.length + 1 + t.length + 1 + e.length)] ++ e).length := by
        simp only [List.length_append, List.length_singleton]
        omega
      rw [← hend]
      exact hflow'
  | scope, _, start, _, _, @StmtCode.loop _ _ _ afterBody _ _ _ c b hc hb, hcode, hscope, vars, locals, hvars,
      hslots, m, stack, hm => by
    have hbody := hb.grows
    have hcondition := hcode.left.left
    have hback : start + c.length + 1 + b.length =
        start + (c ++ [Op.jumpIfFalse (start + c.length + 1 + b.length + 1)] ++ b).length := by
      simp only [List.length_append, List.length_singleton]
      omega
    have hstop : start + c.length + 1 + b.length + 1 = start +
        (c ++ [Op.jumpIfFalse (start + c.length + 1 + b.length + 1)] ++ b ++ [Op.jump start]).length := by
      simp only [List.length_append, List.length_singleton]
      omega
    rw [Evaluation.stmt, ← hstop]
    refine (follows_turns scope (start + c.length + 1) (hcode.opBehind hback) (fun hvars' hm' => ?_)
      (fun hsize hvars' hm' => ?_) bound (Nat.le_refl _) rfl hvars hm).imp fun _ _ => FlowsTo.leave
    · refine (hc.follows hcalls hvars' hcondition.left hm').bind fun v m'' hm'' => ?_
      exact hm''.follows_truth (hcondition.opBehind rfl)
    · have hturn := BodyCode.follows hcalls hb
        (hcode.left.right (by rw [List.length_append]; rfl)) hscope hvars' (hsize ▸ hslots) hm'
      refine hturn.bind fun flow m'' hflow => follows_pure ?_
      rw [hsize] at hflow
      exact hflow.behind hvars' hbody.names

/-- The code of the statements of a block has their effect one after the other. -/
theorem BodyCode.follows (hcalls : calls.CarriedOut p owner setting s fr callers bound) :
    ∀ {scope after : Scope} {start : Nat} {stmts : List Stmt} {code : List Op},
    BodyCode p owner scope start stmts code after → fr.function.HasAt start code → scope.Ordered →
    ∀ {vars : Variables} {locals : Array Value}, scope.Holds locals vars → after.slots ≤ locals.size →
    ∀ {m : Machine} {stack : Counted Value}, m.At s fr callers start locals stack →
    m.Follows setting bound (Evaluation.body calls bound vars stmts)
      (FlowsTo s fr callers after (start + code.length) locals.size stack)
  | _, _, _, _, _, .nil, _, _, vars, locals, hvars, _, m, stack, hm => by
    rw [Evaluation.body]
    exact follows_pure ⟨locals, rfl, hvars, hm⟩
  | _, _, _, _, _, .cons h hrest, hcode, hscope, vars, locals, hvars, hslots, m, stack, hm => by
    have hgrows := hrest.grows
    rw [Evaluation.body]
    refine (StmtCode.follows hcalls h hcode.left hscope hvars (Nat.le_trans hgrows.slots_le hslots) hm).bind
      fun flow m' hflow => ?_
    cases flow with
    | returned v => exact follows_pure hflow
    | next vars' =>
      obtain ⟨locals', hsize, hvars', hm'⟩ := hflow
      have hfirst := StmtCode.grows h
      have hmore := BodyCode.follows hcalls hrest (hcode.right rfl) (hfirst.ordered hscope) hvars'
        (hsize ▸ hslots) hm'
      rw [hsize, Nat.add_assoc, ← List.length_append] at hmore
      exact hmore

/-- The code of a block that may be missing. -/
theorem OptionalCode.follows (hcalls : calls.CarriedOut p owner setting s fr callers bound) :
    ∀ {scope after : Scope} {start : Nat} {stmts : Option (List Stmt)} {code : List Op},
    OptionalCode p owner scope start stmts code after → fr.function.HasAt start code → scope.Ordered →
    ∀ {vars : Variables} {locals : Array Value}, scope.Holds locals vars → after.slots ≤ locals.size →
    ∀ {m : Machine} {stack : Counted Value}, m.At s fr callers start locals stack →
    m.Follows setting bound (Evaluation.optionalBody calls bound vars stmts)
      (FlowsTo s fr callers after (start + code.length) locals.size stack)
  | _, _, _, _, _, .none, _, _, vars, locals, hvars, _, m, stack, hm => by
    rw [Evaluation.optionalBody]
    exact follows_pure ⟨locals, rfl, hvars, hm⟩
  | _, _, _, _, _, .some h, hcode, hscope, vars, locals, hvars, hslots, m, stack, hm => by
    rw [Evaluation.optionalBody]
    exact BodyCode.follows hcalls h hcode hscope hvars hslots hm

end

end
end PluginSandbox
