import PluginSandbox.Proofs.Compiler.Placement
import PluginSandbox.Proofs.Machine.Heights

/-!
# Variables at the places of a function

Which variables are visible at a place of generated code, and in which slots they are, can be read off the tree that
the code was generated from.

* `Stmt.scopes` and `FunctionDecl.scopes` list the scopes at the operations, one for each of them.
* `Stmt.lets` counts declarations: as many slots are taken behind a statement (`Stmt.slots_behind`).
* `Function.Walks` are the paths of the control flow from the start of a function.
* `FunctionDecl.KeepsSlots` says how a function uses its slots: what it reads is visible, what is visible is in slots
  of its own, and on every path that comes to a place each visible variable was set.

## How the parts fit together

Only the operation that sets a slot makes a variable visible (`Op.KeepsScopes`): no other edge of the control flow
leads to a place where more is visible.  As for heights, the operations of a part are asked to agree with one assignment
of scopes to all places of the function.
Inside of an expression that is one scope; a block ends where at most the variables are visible
that were visible inside of it, which holds of whatever comes behind the block.
-/

namespace PluginSandbox

/-! ## Scopes of the parts -/

mutual

/-- The number of operations of the code of an expression. -/
def Expr.operations : Expr → Nat
  | .int _ _ | .str _ _ | .bool _ _ | .var _ _ => 1
  | .call _ es _ | .memberCall _ _ es _ => argsOperations es + 1
  | .neg operand _ | .not operand _ => operand.operations + 1
  | .binary _ left right _ => left.operations + right.operations + 1
  | .and left right _ | .or left right _ => left.operations + right.operations + 3

/-- The number of operations of the code of arguments. -/
def argsOperations : List Expr → Nat
  | [] => 0
  | e :: rest => e.operations + argsOperations rest

end

mutual

/-- The number of declarations in a statement, at every depth. -/
def Stmt.lets : Stmt → Nat
  | .declare _ _ _ => 1
  | .branch _ thenBody elseBody => bodyLets thenBody + optionalLets elseBody
  | .loop _ body => bodyLets body
  | .assign _ _ _ | .ret _ _ | .expr _ => 0

/-- The number of declarations in the statements of a block. -/
def bodyLets : List Stmt → Nat
  | [] => 0
  | s :: rest => s.lets + bodyLets rest

/-- The number of declarations in a block that may be missing. -/
def optionalLets : Option (List Stmt) → Nat
  | none => 0
  | some stmts => bodyLets stmts

end

mutual

/-- The scope behind a statement. -/
def Stmt.behind (scope : Scope) : Stmt → Scope
  | .declare name _ _ => scope.declare name
  | .branch _ thenBody elseBody =>
    let afterThen := scope.leave (bodyBehind scope thenBody)
    afterThen.leave (optionalBehind afterThen elseBody)
  | .loop _ body => scope.leave (bodyBehind scope body)
  | .assign _ _ _ | .ret _ _ | .expr _ => scope

/-- The scope at the end of a block. -/
def bodyBehind (scope : Scope) : List Stmt → Scope
  | [] => scope
  | s :: rest => bodyBehind (s.behind scope) rest

/-- The scope at the end of a block that may be missing. -/
def optionalBehind (scope : Scope) : Option (List Stmt) → Scope
  | none => scope
  | some stmts => bodyBehind scope stmts

end

mutual

/-- The scopes at the operations of a statement. -/
def Stmt.scopes (scope : Scope) : Stmt → List Scope
  | .declare _ value _ | .assign _ value _ | .expr value | .ret (some value) _ =>
    List.replicate (value.operations + 1) scope
  | .branch condition thenBody elseBody =>
    let afterThen := scope.leave (bodyBehind scope thenBody)
    List.replicate (condition.operations + 1) scope ++ bodyScopes scope thenBody ++ [afterThen] ++
      optionalScopes afterThen elseBody
  | .loop condition body =>
    List.replicate (condition.operations + 1) scope ++ bodyScopes scope body ++ [scope.leave (bodyBehind scope body)]
  | .ret none _ => [scope, scope]

/-- The scopes at the operations of the statements of a block. -/
def bodyScopes (scope : Scope) : List Stmt → List Scope
  | [] => []
  | s :: rest => s.scopes scope ++ bodyScopes (s.behind scope) rest

/-- The scopes at the operations of a block that may be missing. -/
def optionalScopes (scope : Scope) : Option (List Stmt) → List Scope
  | none => []
  | some stmts => bodyScopes scope stmts

end

namespace FunctionDecl

/-- The scope of the parameters of a function. -/
def paramScope (decl : FunctionDecl) : Scope :=
  Scope.empty.declareAll decl.params

/-- The scopes at the operations of a function: behind its body it returns the unit value. -/
def scopes (decl : FunctionDecl) : List Scope :=
  bodyScopes decl.paramScope decl.body ++ List.replicate 2 (bodyBehind decl.paramScope decl.body)

/-- The scope at a place of a function. -/
def scopeAt (decl : FunctionDecl) (pc : Nat) : Scope :=
  decl.scopes.getD pc .empty

end FunctionDecl

/-! ### Slots that are taken -/

mutual

/-- Behind a statement there is one slot more for each declaration in it. -/
theorem Stmt.slots_behind : ∀ (s : Stmt) (scope : Scope), (s.behind scope).slots = scope.slots + s.lets
  | .declare _ _ _, _ | .assign _ _ _, _ | .ret _ _, _ | .expr _, _ => rfl
  | .branch _ thenBody elseBody, scope => by
    have hthen := slots_bodyBehind thenBody scope
    have helse := slots_optionalBehind elseBody (scope.leave (bodyBehind scope thenBody))
    rw [Stmt.behind, Stmt.lets]
    simp only [Scope.leave] at helse ⊢
    rw [helse, hthen, Nat.add_assoc]
  | .loop _ body, scope => slots_bodyBehind body scope

theorem slots_bodyBehind : ∀ (stmts : List Stmt) (scope : Scope),
    (bodyBehind scope stmts).slots = scope.slots + bodyLets stmts
  | [], _ => rfl
  | s :: rest, scope => by
    rw [bodyBehind, slots_bodyBehind rest, s.slots_behind, bodyLets, Nat.add_assoc]

theorem slots_optionalBehind : ∀ (stmts : Option (List Stmt)) (scope : Scope),
    (optionalBehind scope stmts).slots = scope.slots + optionalLets stmts
  | none, _ => rfl
  | some stmts, scope => slots_bodyBehind stmts scope

end

mutual

theorem Stmt.grows_behind : ∀ (s : Stmt) (scope : Scope), scope.Grows (s.behind scope) s.lets
  | .declare name _ _, scope => scope.grows_declare name Nat.one_pos
  | .assign _ _ _, scope | .ret _ _, scope | .expr _, scope => .refl scope _
  | .branch _ thenBody elseBody, scope => by
    rw [Stmt.behind, Stmt.lets]
    exact (grows_bodyBehind thenBody scope).leave.trans (grows_optionalBehind elseBody _).leave
  | .loop _ body, scope => (grows_bodyBehind body scope).leave

theorem grows_bodyBehind : ∀ (stmts : List Stmt) (scope : Scope), scope.Grows (bodyBehind scope stmts) (bodyLets stmts)
  | [], scope => .refl scope _
  | s :: rest, scope => (s.grows_behind scope).trans (grows_bodyBehind rest _)

theorem grows_optionalBehind : ∀ (stmts : Option (List Stmt)) (scope : Scope),
    scope.Grows (optionalBehind scope stmts) (optionalLets stmts)
  | none, scope => .refl scope _
  | some stmts, scope => grows_bodyBehind stmts scope

end

/-- More is visible at the end of a block than in front of it. -/
theorem names_subset_bodyBehind (stmts : List Stmt) (scope : Scope) :
    scope.names ⊆ (bodyBehind scope stmts).names := by
  obtain ⟨declared, hnames⟩ := (grows_bodyBehind stmts scope).names
  exact hnames ▸ List.subset_append_right _ _

theorem names_subset_optionalBehind (stmts : Option (List Stmt)) (scope : Scope) :
    scope.names ⊆ (optionalBehind scope stmts).names := by
  obtain ⟨declared, hnames⟩ := (grows_optionalBehind stmts scope).names
  exact hnames ▸ List.subset_append_right _ _

/-- The visible variables of a scope have different slots, and so many slots are taken at most. -/
structure Scope.Within (slots : Nat) (s : Scope) : Prop where
  ordered : s.Ordered
  slots_le : s.slots ≤ slots

theorem Scope.Within.mono {slots slots' : Nat} {s : Scope} (h : s.Within slots) (hle : slots ≤ slots') :
    s.Within slots' :=
  ⟨h.ordered, Nat.le_trans h.slots_le hle⟩

mutual

/-- The scopes at the operations of a statement take no more slots than the one behind it. -/
theorem Stmt.within_scopes : ∀ (s : Stmt) {scope : Scope}, scope.Ordered →
    ∀ inside ∈ s.scopes scope, inside.Within (s.behind scope).slots
  | .declare name value _, scope, h => fun inside hmem => by
    obtain rfl := List.eq_of_mem_replicate hmem
    exact ⟨h, Nat.le_succ _⟩
  | .assign _ value _, scope, h | .expr value, scope, h | .ret (some value) _, scope, h => fun inside hmem => by
    obtain rfl := List.eq_of_mem_replicate hmem
    exact ⟨h, Nat.le_refl _⟩
  | .ret none _, scope, h => fun inside hmem => by
    obtain rfl : inside = scope := by simpa [Stmt.scopes] using hmem
    exact ⟨h, Nat.le_refl _⟩
  | .branch condition thenBody elseBody, scope, h => by
    have hthen := (grows_bodyBehind thenBody scope).leave
    have helse := (grows_optionalBehind elseBody (scope.leave (bodyBehind scope thenBody))).leave
    have hafter := hthen.ordered h
    rw [Stmt.scopes, List.forall_mem_append, List.forall_mem_append, List.forall_mem_append, List.forall_mem_singleton]
    refine ⟨⟨⟨fun inside hmem => ?_, fun inside hmem => ?_⟩, ⟨hafter, helse.slots_le⟩⟩, fun inside hmem => ?_⟩
    · obtain rfl := List.eq_of_mem_replicate hmem
      exact ⟨h, Nat.le_trans hthen.slots_le helse.slots_le⟩
    · exact (within_bodyScopes thenBody h inside hmem).mono helse.slots_le
    · exact within_optionalScopes elseBody hafter inside hmem
  | .loop condition body, scope, h => by
    have hbody := (grows_bodyBehind body scope).leave
    rw [Stmt.scopes, List.forall_mem_append, List.forall_mem_append, List.forall_mem_singleton]
    refine ⟨⟨fun inside hmem => ?_, within_bodyScopes body h⟩, ⟨hbody.ordered h, Nat.le_refl _⟩⟩
    obtain rfl := List.eq_of_mem_replicate hmem
    exact ⟨h, hbody.slots_le⟩

theorem within_bodyScopes : ∀ (stmts : List Stmt) {scope : Scope}, scope.Ordered →
    ∀ inside ∈ bodyScopes scope stmts, inside.Within (bodyBehind scope stmts).slots
  | [], _, _ => nofun
  | s :: rest, scope, h => by
    have hrest := grows_bodyBehind rest (s.behind scope)
    rw [bodyScopes, List.forall_mem_append]
    exact ⟨fun inside hmem => (s.within_scopes h inside hmem).mono hrest.slots_le,
      within_bodyScopes rest ((s.grows_behind scope).ordered h)⟩

theorem within_optionalScopes : ∀ (stmts : Option (List Stmt)) {scope : Scope}, scope.Ordered →
    ∀ inside ∈ optionalScopes scope stmts, inside.Within (optionalBehind scope stmts).slots
  | none, _, _ => nofun
  | some stmts, _, h => within_bodyScopes stmts h

end

/-! ## Agreement with one assignment of scopes -/

section
variable {whole : Nat → Scope} {locals : Nat}

/-- Some scopes are those of the places from some place on. -/
def ScopesAt (whole : Nat → Scope) : Nat → List Scope → Prop
  | _, [] => True
  | start, scope :: rest => whole start = scope ∧ ScopesAt whole (start + 1) rest

/-- An operation reads a visible variable and sets one of some slots, and where it goes on nothing is visible that was
not visible before, but for what it sets. -/
structure Op.KeepsScopes (whole : Nat → Scope) (locals pc : Nat) (op : Op) : Prop where
  load : ∀ slot, op = .load slot → ∃ name, (whole pc).slot? name = some slot
  store : ∀ slot, op = .store slot → slot < locals
  edges : ∀ next ∈ op.successors pc, ∀ entry ∈ (whole next).names,
    entry ∈ (whole pc).names ∨ op = .store entry.2

/-- Some operations that stand from some place on agree with the scopes of all places. -/
def KeepScopes (whole : Nat → Scope) (locals : Nat) : Nat → List Op → Prop
  | _, [] => True
  | start, op :: rest => op.KeepsScopes whole locals start ∧ KeepScopes whole locals (start + 1) rest

theorem along_scopesAt : Along (fun pc scope => whole pc = scope) (ScopesAt whole) :=
  ⟨fun _ => trivial, fun _ _ _ => Iff.rfl⟩

theorem along_keepScopes : Along (fun pc op => op.KeepsScopes whole locals pc) (KeepScopes whole locals) :=
  ⟨fun _ => trivial, fun _ _ _ => Iff.rfl⟩

theorem scopesAt_append {start : Nat} {scopes more : List Scope} :
    ScopesAt whole start (scopes ++ more) ↔
      ScopesAt whole start scopes ∧ ScopesAt whole (start + scopes.length) more :=
  along_scopesAt.append

theorem keepScopes_append {start : Nat} {code more : List Op} :
    KeepScopes whole locals start (code ++ more) ↔
      KeepScopes whole locals start code ∧ KeepScopes whole locals (start + code.length) more :=
  along_keepScopes.append

/-- A stretch of places with one scope. -/
theorem scopesAt_replicate {start n : Nat} {scope : Scope} (h : ScopesAt whole start (List.replicate n scope))
    {pc : Nat} (hfirst : start ≤ pc) (hlast : pc < start + n) : whole pc = scope := by
  induction n generalizing start with
  | zero => omega
  | succ n ih =>
    obtain ⟨hstart, hrest⟩ := h
    obtain rfl | hlt := Nat.eq_or_lt_of_le hfirst
    · exact hstart
    · exact ih hrest hlt (by omega)

/-! ### One operation -/

/-- An operation that touches no slot and goes on behind itself. -/
def Op.Plain : Op → Prop
  | .load _ | .store _ | .jump _ | .jumpIfFalse _ | .ret => False
  | _ => True

namespace Op

variable {op : Op} {pc : Nat}

theorem Plain.keepsScopes (h : op.Plain) (hnext : (whole (pc + 1)).names ⊆ (whole pc).names) :
    op.KeepsScopes whole locals pc where
  load := by
    rintro slot rfl
    exact h.elim
  store := by
    rintro slot rfl
    exact h.elim
  edges := by
    intro next hmem
    obtain rfl : next = pc + 1 := by cases op <;> first | exact h.elim | exact List.mem_singleton.1 hmem
    exact fun entry hentry => .inl (hnext hentry)

theorem keepsScopes_load {slot : Nat} {name : String} (hslot : (whole pc).slot? name = some slot)
    (hnext : (whole (pc + 1)).names ⊆ (whole pc).names) : (load slot).KeepsScopes whole locals pc where
  load := by
    rintro _ ⟨⟩
    exact ⟨name, hslot⟩
  store := nofun
  edges := by
    intro next hmem entry hentry
    obtain rfl := List.mem_singleton.1 hmem
    exact .inl (hnext hentry)

/-- What is visible behind a declaration was visible before, or is set by it. -/
theorem keepsScopes_store {slot : Nat} (hslot : slot < locals)
    (hnext : ∀ entry ∈ (whole (pc + 1)).names, entry ∈ (whole pc).names ∨ entry.2 = slot) :
    (store slot).KeepsScopes whole locals pc where
  load := nofun
  store := by
    rintro _ ⟨⟩
    exact hslot
  edges := by
    intro next hmem entry hentry
    obtain rfl := List.mem_singleton.1 hmem
    exact (hnext entry hentry).imp_right fun heq => by rw [heq]

theorem keepsScopes_jump {target : Nat} (htarget : (whole target).names ⊆ (whole pc).names) :
    (jump target).KeepsScopes whole locals pc where
  load := nofun
  store := nofun
  edges := by
    intro next hmem entry hentry
    obtain rfl := List.mem_singleton.1 hmem
    exact .inl (htarget hentry)

theorem keepsScopes_jumpIfFalse {target : Nat} (hnext : (whole (pc + 1)).names ⊆ (whole pc).names)
    (htarget : (whole target).names ⊆ (whole pc).names) : (jumpIfFalse target).KeepsScopes whole locals pc where
  load := nofun
  store := nofun
  edges := by
    intro next hmem entry hentry
    obtain rfl | rfl : next = pc + 1 ∨ next = target := by simpa [successors] using hmem
    · exact .inl (hnext hentry)
    · exact .inl (htarget hentry)

theorem keepsScopes_ret : ret.KeepsScopes whole locals pc :=
  ⟨nofun, nofun, nofun⟩

end Op
end

/-! ### Expressions -/

/-- Some operations that stand from some place on agree with the scopes of all places, wherever one scope stretches from
some place to another one. -/
def KeepOneScope (scope : Scope) (first last start : Nat) (code : List Op) : Prop :=
  ∀ (whole : Nat → Scope) (locals : Nat), (∀ pc, first ≤ pc → pc ≤ last → whole pc = scope) →
    KeepScopes whole locals start code

namespace KeepOneScope

variable {scope : Scope} {first last start : Nat} {code : List Op} {op : Op}

theorem mono (h : KeepOneScope scope first last start code) {first' last' : Nat} (hfirst : first' ≤ first)
    (hlast : last ≤ last') : KeepOneScope scope first' last' start code :=
  fun whole locals hwhole =>
    h whole locals fun pc hpc hpc' => hwhole pc (Nat.le_trans hfirst hpc) (Nat.le_trans hpc' hlast)

theorem nil : KeepOneScope scope first last start [] :=
  fun _ _ _ => trivial

theorem append {place : Nat} {more : List Op} (h : KeepOneScope scope first last start code)
    (hmore : KeepOneScope scope first last place more) (hplace : start + code.length = place) :
    KeepOneScope scope first last start (code ++ more) := by
  subst hplace
  exact fun whole locals hwhole => keepScopes_append.2 ⟨h whole locals hwhole, hmore whole locals hwhole⟩

/-- One operation between two places. -/
theorem singleton (h : ∀ (whole : Nat → Scope) (locals : Nat), (∀ pc, first ≤ pc → pc ≤ last → whole pc = scope) →
    op.KeepsScopes whole locals start) : KeepOneScope scope first last start [op] :=
  fun whole locals hwhole => ⟨h whole locals hwhole, trivial⟩

theorem plain (h : op.Plain) (hfirst : first ≤ start) (hlast : start < last) :
    KeepOneScope scope first last start [op] :=
  singleton fun whole locals hwhole => h.keepsScopes <| by
    rw [hwhole start hfirst (Nat.le_of_lt hlast), hwhole (start + 1) (Nat.le_succ_of_le hfirst) hlast]
    exact List.Subset.refl _

theorem load {slot : Nat} {name : String} (hslot : scope.slot? name = some slot) (hfirst : first ≤ start)
    (hlast : start < last) : KeepOneScope scope first last start [.load slot] :=
  singleton fun whole locals hwhole => by
    have hstart := hwhole start hfirst (Nat.le_of_lt hlast)
    refine Op.keepsScopes_load (hstart ▸ hslot) ?_
    rw [hstart, hwhole (start + 1) (Nat.le_succ_of_le hfirst) hlast]
    exact List.Subset.refl _

theorem jump {target : Nat} (hfirst : first ≤ start) (hlast : start ≤ last) (htarget : first ≤ target)
    (htarget' : target ≤ last) : KeepOneScope scope first last start [.jump target] :=
  singleton fun whole locals hwhole => Op.keepsScopes_jump <| by
    rw [hwhole start hfirst hlast, hwhole target htarget htarget']
    exact List.Subset.refl _

theorem jumpIfFalse {target : Nat} (hfirst : first ≤ start) (hlast : start < last) (htarget : first ≤ target)
    (htarget' : target ≤ last) : KeepOneScope scope first last start [.jumpIfFalse target] :=
  singleton fun whole locals hwhole => by
    have hstart := hwhole start hfirst (Nat.le_of_lt hlast)
    refine Op.keepsScopes_jumpIfFalse ?_ ?_
    · rw [hstart, hwhole (start + 1) (Nat.le_succ_of_le hfirst) hlast]
      exact List.Subset.refl _
    · rw [hstart, hwhole target htarget htarget']
      exact List.Subset.refl _

end KeepOneScope

/-- Some number of operations that stand from some place on and stay in one scope, the place behind them included. -/
structure InScope (scope : Scope) (start n : Nat) (code : List Op) : Prop where
  length : code.length = n
  keeps : KeepOneScope scope start (start + n) start code

namespace InScope

variable {scope : Scope} {start n k : Nat} {code more l r : List Op} {op : Op}

theorem nil : InScope scope start 0 [] :=
  ⟨rfl, .nil⟩

theorem plain (h : op.Plain) : InScope scope start 1 [op] :=
  ⟨rfl, .plain h (Nat.le_refl _) (Nat.lt_succ_self _)⟩

theorem load {slot : Nat} {name : String} (hslot : scope.slot? name = some slot) :
    InScope scope start 1 [.load slot] :=
  ⟨rfl, .load hslot (Nat.le_refl _) (Nat.lt_succ_self _)⟩

theorem append (h : InScope scope start n code) (hmore : InScope scope (start + code.length) k more) :
    InScope scope start (n + k) (code ++ more) := by
  obtain ⟨rfl, hcode⟩ := h
  obtain ⟨rfl, hmore⟩ := hmore
  exact ⟨List.length_append, (hcode.mono (Nat.le_refl _) (by omega)).append (hmore.mono (by omega) (by omega)) rfl⟩

/-- The code of a conjunction. -/
theorem and (hl : InScope scope start n l) (hr : InScope scope (start + l.length + 1) k r) :
    InScope scope start (n + k + 3)
      (l ++ [.jumpIfFalse (start + l.length + 1 + r.length + 1)] ++ r ++
        [.jump (start + l.length + 1 + r.length + 1 + 1), .const (.bool false)]) := by
  obtain ⟨rfl, hl⟩ := hl
  obtain ⟨rfl, hr⟩ := hr
  let stop := start + (l.length + r.length + 3)
  have hleft : KeepOneScope scope start stop start l := hl.mono (Nat.le_refl _) (by omega)
  have htest : KeepOneScope scope start stop (start + l.length) [.jumpIfFalse (start + l.length + 1 + r.length + 1)] :=
    .jumpIfFalse (by omega) (by omega) (by omega) (by omega)
  have hright : KeepOneScope scope start stop (start + l.length + 1) r := hr.mono (by omega) (by omega)
  have hskip : KeepOneScope scope start stop (start + l.length + 1 + r.length)
      [.jump (start + l.length + 1 + r.length + 1 + 1)] := .jump (by omega) (by omega) (by omega) (by omega)
  have hfalse : KeepOneScope scope start stop (start + l.length + 1 + r.length + 1) [.const (.bool false)] :=
    .plain trivial (by omega) (by omega)
  have hlength : start + (l ++ [Op.jumpIfFalse (start + l.length + 1 + r.length + 1)] ++ r).length =
      start + l.length + 1 + r.length := by
    simp only [List.length_append, List.length_singleton]
    omega
  refine ⟨by simp only [List.length_append, List.length_cons, List.length_nil]; omega, ?_⟩
  exact ((hleft.append htest rfl).append hright (by rw [List.length_append]; rfl)).append
    (hskip.append hfalse rfl) hlength

/-- The code of a disjunction. -/
theorem or (hl : InScope scope start n l) (hr : InScope scope (start + l.length + 3) k r) :
    InScope scope start (n + k + 3)
      (l ++ [.jumpIfFalse (start + l.length + 3), .const (.bool true), .jump (start + l.length + 3 + r.length)] ++
        r) := by
  obtain ⟨rfl, hl⟩ := hl
  obtain ⟨rfl, hr⟩ := hr
  let stop := start + (l.length + r.length + 3)
  have hleft : KeepOneScope scope start stop start l := hl.mono (Nat.le_refl _) (by omega)
  have htest : KeepOneScope scope start stop (start + l.length) [.jumpIfFalse (start + l.length + 3)] :=
    .jumpIfFalse (by omega) (by omega) (by omega) (by omega)
  have htrue : KeepOneScope scope start stop (start + l.length + 1) [.const (.bool true)] :=
    .plain trivial (by omega) (by omega)
  have hskip : KeepOneScope scope start stop (start + l.length + 2) [.jump (start + l.length + 3 + r.length)] :=
    .jump (by omega) (by omega) (by omega) (by omega)
  have hright : KeepOneScope scope start stop (start + l.length + 3) r := hr.mono (by omega) (by omega)
  refine ⟨by simp only [List.length_append, List.length_cons, List.length_nil]; omega, ?_⟩
  exact (hleft.append (htest.append (htrue.append hskip rfl) rfl) rfl).append hright (by rw [List.length_append]; rfl)

end InScope

/-! ### Statements -/

section
variable {whole : Nat → Scope}

/-- A statement starts in the scope that it finds. -/
theorem Stmt.head_scopes (s : Stmt) {scope : Scope} {start : Nat} (hat : ScopesAt whole start (s.scopes scope)) :
    whole start = scope := by
  cases s with
  | declare name value pos | assign name value pos | expr value => exact hat.1
  | branch condition thenBody elseBody =>
    simp only [Stmt.scopes, scopesAt_append] at hat
    exact hat.1.1.1.1
  | loop condition body =>
    simp only [Stmt.scopes, scopesAt_append] at hat
    exact hat.1.1.1
  | ret value pos => cases value <;> exact hat.1

/-- Nothing is visible at the start of a block that is not visible in front of it, also where it is empty. -/
theorem head_bodyScopes (stmts : List Stmt) {scope : Scope} {start : Nat}
    (hat : ScopesAt whole start (bodyScopes scope stmts))
    (hend : (whole (start + (bodyScopes scope stmts).length)).names ⊆ (bodyBehind scope stmts).names) :
    (whole start).names ⊆ scope.names := by
  cases stmts with
  | nil => exact hend
  | cons s rest =>
    rw [bodyScopes, scopesAt_append] at hat
    rw [s.head_scopes hat.1]
    exact List.Subset.refl _

theorem head_optionalScopes (stmts : Option (List Stmt)) {scope : Scope} {start : Nat}
    (hat : ScopesAt whole start (optionalScopes scope stmts))
    (hend : (whole (start + (optionalScopes scope stmts).length)).names ⊆ (optionalBehind scope stmts).names) :
    (whole start).names ⊆ scope.names := by
  cases stmts with
  | none => exact hend
  | some stmts => exact head_bodyScopes stmts hat hend

end

/-- Some operations that stand from some place on have some scopes and agree with the scopes of all places, wherever no
more is visible behind them than in some scope, and no more slots are taken than there are. -/
structure InScopes (scopes : List Scope) (behind : Scope) (start : Nat) (code : List Op) : Prop where
  length : code.length = scopes.length
  keeps : ∀ (whole : Nat → Scope) (locals : Nat), ScopesAt whole start scopes →
    (whole (start + scopes.length)).names ⊆ behind.names → behind.slots ≤ locals → KeepScopes whole locals start code

namespace InScopes

variable {scope behind : Scope} {start n : Nat} {c t e code more : List Op}

theorem nil : InScopes [] scope start [] :=
  ⟨rfl, fun _ _ _ _ _ => trivial⟩

/-- The value of an expression and an operation on it. -/
theorem value (h : InScope scope start n code) {op : Op}
    (hop : ∀ (whole : Nat → Scope) (locals pc : Nat), whole pc = scope → (whole (pc + 1)).names ⊆ behind.names →
      behind.slots ≤ locals → op.KeepsScopes whole locals pc) :
    InScopes (List.replicate (n + 1) scope) behind start (code ++ [op]) := by
  obtain ⟨rfl, hcode⟩ := h
  refine ⟨by rw [List.length_append, List.length_replicate]; rfl, fun whole locals hat hend hslots => ?_⟩
  rw [List.length_replicate, ← Nat.add_assoc] at hend
  refine keepScopes_append.2 ⟨hcode whole locals fun pc hpc hpc' => ?_, hop whole locals _ ?_ hend hslots, trivial⟩
  · exact scopesAt_replicate hat hpc (by omega)
  · exact scopesAt_replicate hat (Nat.le_add_right _ _) (by omega)

/-- A declaration makes a variable visible in the slot that it sets. -/
theorem declare (h : InScope scope start n code) (name : String) :
    InScopes (List.replicate (n + 1) scope) (scope.declare name) start (code ++ [.store scope.slots]) :=
  value h fun whole locals pc hpc hend hslots => by
    refine Op.keepsScopes_store (Nat.lt_of_succ_le hslots) fun entry hentry => ?_
    rw [hpc]
    obtain rfl | hbefore := List.mem_cons.1 (hend hentry)
    · exact .inr rfl
    · exact .inl hbefore

/-- An assignment sets a visible variable. -/
theorem assign (h : InScope scope start n code) (hscope : scope.Ordered) {name : String} {slot : Nat}
    (hslot : scope.slot? name = some slot) :
    InScopes (List.replicate (n + 1) scope) scope start (code ++ [.store slot]) :=
  value h fun whole locals pc hpc hend hslots => by
    refine Op.keepsScopes_store (Nat.lt_of_lt_of_le (hscope.slot?_lt hslot) hslots) fun entry hentry => .inl ?_
    rw [hpc]
    exact hend hentry

/-- An operation on a value that touches no slot. -/
theorem plain (h : InScope scope start n code) {op : Op} (hop : op.Plain) :
    InScopes (List.replicate (n + 1) scope) scope start (code ++ [op]) :=
  value h fun whole locals pc hpc hend _ => hop.keepsScopes (by rw [hpc]; exact hend)

/-- A return. -/
theorem ret (h : InScope scope start n code) :
    InScopes (List.replicate (n + 1) scope) scope start (code ++ [.ret]) :=
  value h fun _ _ _ _ _ _ => Op.keepsScopes_ret

/-- A statement and the ones behind it. -/
theorem cons {s : Stmt} {rest : List Stmt} (h : InScopes (s.scopes scope) (s.behind scope) start code)
    (hmore : InScopes (bodyScopes (s.behind scope) rest) (bodyBehind (s.behind scope) rest) (start + code.length)
      more) :
    InScopes (bodyScopes scope (s :: rest)) (bodyBehind scope (s :: rest)) start (code ++ more) := by
  refine ⟨by rw [bodyScopes, List.length_append, List.length_append, h.length, hmore.length], ?_⟩
  intro whole locals hat hend hslots
  rw [bodyScopes, scopesAt_append] at hat
  rw [bodyScopes, List.length_append, ← Nat.add_assoc] at hend
  refine keepScopes_append.2 ⟨h.keeps whole locals hat.1 (head_bodyScopes rest hat.2 hend) ?_, ?_⟩
  · exact Nat.le_trans (grows_bodyBehind rest _).slots_le hslots
  · rw [h.length] at hmore ⊢
    exact hmore.keeps whole locals hat.2 hend hslots

/-- A branch. -/
theorem branch {condition : Expr} {thenBody : List Stmt} {elseBody : Option (List Stmt)}
    (hc : InScope scope start condition.operations c)
    (ht : InScopes (bodyScopes scope thenBody) (bodyBehind scope thenBody) (start + c.length + 1) t)
    (he : InScopes (optionalScopes (scope.leave (bodyBehind scope thenBody)) elseBody)
      (optionalBehind (scope.leave (bodyBehind scope thenBody)) elseBody) (start + c.length + 1 + t.length + 1) e) :
    InScopes ((Stmt.branch condition thenBody elseBody).scopes scope)
      ((Stmt.branch condition thenBody elseBody).behind scope) start
      (c ++ [.jumpIfFalse (start + c.length + 1 + t.length + 1)] ++ t ++
        [.jump (start + c.length + 1 + t.length + 1 + e.length)] ++ e) := by
  obtain ⟨hclength, hckeeps⟩ := hc
  obtain ⟨htlength, htkeeps⟩ := ht
  obtain ⟨helength, hekeeps⟩ := he
  have hgrows := (grows_optionalBehind elseBody (scope.leave (bodyBehind scope thenBody))).slots_le
  constructor
  · simp only [Stmt.scopes, List.length_append, List.length_replicate, List.length_singleton, hclength, htlength,
      helength]
  intro whole locals hat hend hslots
  simp only [Stmt.scopes, scopesAt_append, ScopesAt, List.length_append, List.length_replicate, List.length_singleton,
    ← hclength, ← htlength, ← helength, ← Nat.add_assoc] at hat hend
  obtain ⟨⟨⟨hcAt, htAt⟩, hskip, _⟩, heAt⟩ := hat
  rw [← hclength] at hckeeps
  have hcondition : ∀ pc, start ≤ pc → pc ≤ start + c.length → whole pc = scope :=
    fun pc hpc hpc' => scopesAt_replicate hcAt hpc (by omega)
  have htest := hcondition (start + c.length) (Nat.le_add_right _ _) (Nat.le_refl _)
  -- behind the blocks there is nothing visible that was not visible in front of them
  have hthenEnd : (whole (start + c.length + 1 + t.length)).names ⊆ (bodyBehind scope thenBody).names := by
    rw [hskip]
    exact names_subset_bodyBehind thenBody scope
  have helseEnd := List.Subset.trans hend
    (names_subset_optionalBehind elseBody (scope.leave (bodyBehind scope thenBody)))
  have hthenHead := head_bodyScopes thenBody htAt (htlength ▸ hthenEnd)
  have helseHead := head_optionalScopes elseBody heAt (helength ▸ helseEnd)
  simp only [keepScopes_append, KeepScopes, List.length_append, List.length_singleton, ← Nat.add_assoc]
  refine ⟨⟨⟨⟨hckeeps whole locals hcondition, ?_, trivial⟩, ?_⟩, ?_, trivial⟩, ?_⟩
  · exact Op.keepsScopes_jumpIfFalse (by rw [htest]; exact hthenHead) (by rw [htest]; exact helseHead)
  · exact htkeeps whole locals htAt (htlength ▸ hthenEnd) (Nat.le_trans hgrows hslots)
  · exact Op.keepsScopes_jump (by rw [hskip]; exact hend)
  · exact hekeeps whole locals heAt (helength ▸ helseEnd) hslots

/-- A loop. -/
theorem loop {condition : Expr} {body : List Stmt} {b : List Op} (hc : InScope scope start condition.operations c)
    (hb : InScopes (bodyScopes scope body) (bodyBehind scope body) (start + c.length + 1) b) :
    InScopes ((Stmt.loop condition body).scopes scope) ((Stmt.loop condition body).behind scope) start
      (c ++ [.jumpIfFalse (start + c.length + 1 + b.length + 1)] ++ b ++ [.jump start]) := by
  obtain ⟨hclength, hckeeps⟩ := hc
  obtain ⟨hblength, hbkeeps⟩ := hb
  constructor
  · simp only [Stmt.scopes, List.length_append, List.length_replicate, List.length_singleton, hclength, hblength]
  intro whole locals hat hend hslots
  simp only [Stmt.scopes, scopesAt_append, ScopesAt, List.length_append, List.length_replicate, List.length_singleton,
    ← hclength, ← hblength, ← Nat.add_assoc] at hat hend
  obtain ⟨⟨hcAt, hbAt⟩, hback, _⟩ := hat
  rw [← hclength] at hckeeps
  have hcondition : ∀ pc, start ≤ pc → pc ≤ start + c.length → whole pc = scope :=
    fun pc hpc hpc' => scopesAt_replicate hcAt hpc (by omega)
  have htest := hcondition (start + c.length) (Nat.le_add_right _ _) (Nat.le_refl _)
  have hfirst := hcondition start (Nat.le_refl _) (Nat.le_add_right _ _)
  have hbodyEnd : (whole (start + c.length + 1 + b.length)).names ⊆ (bodyBehind scope body).names := by
    rw [hback]
    exact names_subset_bodyBehind body scope
  have hbodyHead := head_bodyScopes body hbAt (hblength ▸ hbodyEnd)
  simp only [keepScopes_append, KeepScopes, List.length_append, List.length_singleton, ← Nat.add_assoc]
  refine ⟨⟨⟨hckeeps whole locals hcondition, ?_, trivial⟩, ?_⟩, ?_, trivial⟩
  · exact Op.keepsScopes_jumpIfFalse (by rw [htest]; exact hbodyHead) (by rw [htest]; exact hend)
  · exact hbkeeps whole locals hbAt (hblength ▸ hbodyEnd) hslots
  · exact Op.keepsScopes_jump (by rw [hback, hfirst]; exact List.Subset.refl _)

end InScopes

/-! ## Functions -/

/-- The paths of the control flow of a function from its start: the places that were passed, the last one first, and
the place that the path has come to. -/
inductive Function.Walks (f : Function) : List Nat → Nat → Prop
  | start : f.Walks [] 0
  | next {passed : List Nat} {pc next : Nat} {op : Op} : f.Walks passed pc → f.code[pc]? = some op →
      next ∈ op.successors pc → f.Walks (pc :: passed) next

/-- How a function uses its slots. -/
structure FunctionDecl.KeepsSlots (decl : FunctionDecl) (f : Function) : Prop where
  /-- The parameters are in the first slots. -/
  arity : f.arity = decl.params.length
  /-- There is a slot for each parameter and for each declaration. -/
  locals : f.locals = decl.params.length + bodyLets decl.body
  /-- No other slot is read or set. -/
  used : ∀ pc slot : Nat, f.code[pc]? = some (Op.load slot) ∨ f.code[pc]? = some (Op.store slot) → slot < f.locals
  /-- There is a scope for each operation. -/
  places : decl.scopes.length = f.code.size
  /-- The variables that are visible at a place are in different slots. -/
  apart : ∀ pc, ((decl.scopeAt pc).names.map Prod.snd).Nodup
  /-- What is read is a visible variable. -/
  visible : ∀ pc slot : Nat, f.code[pc]? = some (Op.load slot) → ∃ name, (decl.scopeAt pc).slot? name = some slot
  /-- On every path each visible variable is a parameter or was set. -/
  settled : ∀ passed pc, f.Walks passed pc → ∀ entry ∈ (decl.scopeAt pc).names,
    entry.2 < f.arity ∨ ∃ place ∈ passed, f.code[place]? = some (Op.store entry.2)
  /-- On every path what is read is a parameter or was set. -/
  set : ∀ passed pc slot, f.Walks passed pc → f.code[pc]? = some (Op.load slot) →
    slot < f.arity ∨ ∃ place ∈ passed, f.code[place]? = some (Op.store slot)

theorem Scope.mem_of_slot? {s : Scope} {name : String} {slot : Nat} (h : s.slot? name = some slot) :
    (name, slot) ∈ s.names := by
  obtain ⟨before, after, heq, _⟩ := List.lookup_eq_some_iff.1 h
  simp [heq]

/-- Along a path only what sets a slot makes a variable visible. -/
theorem Function.Walks.settled {f : Function} {whole : Nat → Scope} {locals : Nat}
    (hkeeps : ∀ (pc : Nat) (op : Op), f.code[pc]? = some op → op.KeepsScopes whole locals pc)
    (hstart : ∀ entry ∈ (whole 0).names, entry.2 < f.arity) {passed : List Nat} {pc : Nat} (h : f.Walks passed pc) :
    ∀ entry ∈ (whole pc).names, entry.2 < f.arity ∨ ∃ place ∈ passed, f.code[place]? = some (Op.store entry.2) := by
  induction h with
  | start => exact fun entry hentry => .inl (hstart entry hentry)
  | @next passed pc next op _ hop hnext ih =>
    intro entry hentry
    obtain hbefore | rfl := (hkeeps pc op hop).edges next hnext entry hentry
    · refine (ih entry hbefore).imp_right ?_
      rintro ⟨place, hplace, hstore⟩
      exact ⟨place, List.mem_cons_of_mem _ hplace, hstore⟩
    · exact .inr ⟨pc, List.mem_cons_self, hop⟩

namespace FunctionDecl

variable (decl : FunctionDecl)

theorem ordered_paramScope : decl.paramScope.Ordered :=
  Scope.ordered_empty.declareAll decl.params

theorem slots_paramScope : decl.paramScope.slots = decl.params.length := by
  rw [paramScope, Scope.slots_declareAll, Scope.empty, Nat.zero_add]

theorem scopesAt : ScopesAt decl.scopeAt 0 decl.scopes := by
  refine along_scopesAt.of_getElem? fun i scope hscope => ?_
  rw [Nat.zero_add, scopeAt, List.getD_eq_getElem?_getD, hscope]
  rfl

/-- The scope at a place takes no more slots than there are behind the body. -/
theorem within_scopeAt (pc : Nat) : (decl.scopeAt pc).Within (bodyBehind decl.paramScope decl.body).slots := by
  have hordered := decl.ordered_paramScope
  have hbehind := (grows_bodyBehind decl.body decl.paramScope).ordered hordered
  have hscopes : ∀ inside ∈ decl.scopes, inside.Within (bodyBehind decl.paramScope decl.body).slots := by
    rw [scopes, List.forall_mem_append]
    refine ⟨within_bodyScopes decl.body hordered, fun inside hmem => ?_⟩
    obtain rfl := List.eq_of_mem_replicate hmem
    exact ⟨hbehind, Nat.le_refl _⟩
  rw [scopeAt, List.getD_eq_getElem?_getD]
  cases hscope : decl.scopes[pc]? with
  | none => exact ⟨Scope.ordered_empty, Nat.zero_le _⟩
  | some scope => exact hscopes scope (List.mem_of_getElem? hscope)

/-- Nothing but the parameters is visible at the start. -/
theorem scopeAt_zero : ∀ entry ∈ (decl.scopeAt 0).names, entry.2 < decl.params.length := by
  obtain ⟨hbody, hend, _⟩ := scopesAt_append.1 decl.scopesAt
  have hstart := head_bodyScopes decl.body hbody (by rw [hend]; exact List.Subset.refl _)
  intro entry hentry
  have htaken := decl.ordered_paramScope.taken entry (hstart hentry)
  rwa [slots_paramScope] at htaken

variable {decl}

/-- A function whose body agrees with its scopes uses its slots as it should. -/
theorem keepsSlots {code : List Op} {f : Function}
    (h : InScopes (bodyScopes decl.paramScope decl.body) (bodyBehind decl.paramScope decl.body) 0 code)
    (harity : f.arity = decl.params.length) (hlocals : f.locals = (bodyBehind decl.paramScope decl.body).slots)
    (hcode : f.code.toList = code ++ [Op.const .unit, Op.ret]) : decl.KeepsSlots f := by
  obtain ⟨hbody, hend, hret, _⟩ := scopesAt_append.1 decl.scopesAt
  have hall : KeepScopes decl.scopeAt f.locals 0 f.code.toList := by
    rw [hcode]
    refine keepScopes_append.2 ⟨h.keeps decl.scopeAt f.locals hbody ?_ (Nat.le_of_eq hlocals.symm), ?_⟩
    · rw [hend]
      exact List.Subset.refl _
    rw [h.length]
    refine ⟨Op.Plain.keepsScopes trivial ?_, Op.keepsScopes_ret, trivial⟩
    rw [hend, hret]
    exact List.Subset.refl _
  have hkeeps : ∀ (pc : Nat) (op : Op), f.code[pc]? = some op → op.KeepsScopes decl.scopeAt f.locals pc := by
    intro pc op hop
    rw [← Array.getElem?_toList] at hop
    have hop := along_keepScopes.getElem? hall hop
    rwa [Nat.zero_add] at hop
  have hwithin := decl.within_scopeAt
  rw [← hlocals] at hwithin
  have hvisible : ∀ pc slot : Nat, f.code[pc]? = some (Op.load slot) →
      ∃ name, (decl.scopeAt pc).slot? name = some slot := fun pc slot hop => (hkeeps pc _ hop).load slot rfl
  have hsettled : ∀ passed pc, f.Walks passed pc → ∀ entry ∈ (decl.scopeAt pc).names,
      entry.2 < f.arity ∨ ∃ place ∈ passed, f.code[place]? = some (Op.store entry.2) :=
    fun passed pc hwalk => hwalk.settled hkeeps (harity ▸ decl.scopeAt_zero)
  refine ⟨harity, ?_, ?_, ?_, fun pc => (hwithin pc).ordered.distinct, hvisible, hsettled, ?_⟩
  · rw [hlocals, slots_bodyBehind, slots_paramScope]
  · rintro pc slot (hop | hop)
    · obtain ⟨name, hslot⟩ := hvisible pc slot hop
      exact Nat.lt_of_lt_of_le ((hwithin pc).ordered.slot?_lt hslot) (hwithin pc).slots_le
    · exact (hkeeps pc _ hop).store slot rfl
  · rw [scopes, List.length_append, List.length_replicate, ← h.length, ← Array.length_toList, hcode,
      List.length_append]
    rfl
  · intro passed pc slot hwalk hop
    obtain ⟨name, hslot⟩ := hvisible pc slot hop
    exact hsettled passed pc hwalk _ (Scope.mem_of_slot? hslot)

end FunctionDecl

end PluginSandbox
