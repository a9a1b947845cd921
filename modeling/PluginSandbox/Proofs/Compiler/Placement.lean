import PluginSandbox.Proofs.Compiler.Code

/-!
# Where generated code refers to

Every operation of the code of a function refers to what its function and its module have: slots that were
taken by a declaration (`Scope.Ordered`), places inside the code, and functions with the right number of
arguments (`Op.Placed`).  The code of a construct is at most four times as long as the construct has nodes,
and a construct takes at most as many slots as it has nodes, so everything that is counted stays small.

What is said of the places of a piece of code one after the other is put together from what is said of its parts
(`Along`).
-/

namespace PluginSandbox

/-! ## Scopes -/

/-- The visible names of a scope have different slots, all of which were taken before. -/
structure Scope.Ordered (s : Scope) : Prop where
  taken : ∀ entry ∈ s.names, entry.2 < s.slots
  distinct : (s.names.map Prod.snd).Nodup

namespace Scope

theorem ordered_empty : empty.Ordered :=
  ⟨fun _ h => absurd h (by simp [empty]), List.nodup_nil⟩

theorem Ordered.declare {s : Scope} (h : s.Ordered) (name : String) : (s.declare name).Ordered := by
  constructor
  · intro entry hentry
    rcases List.mem_cons.1 hentry with rfl | hentry
    · exact Nat.lt_succ_self _
    · exact Nat.lt_succ_of_lt (h.taken entry hentry)
  · refine List.nodup_cons.2 ⟨?_, h.distinct⟩
    -- The fresh slot is not one of those that were taken before.
    intro hmem
    obtain ⟨entry, hentry, heq⟩ := List.mem_map.1 hmem
    exact absurd (h.taken entry hentry) (by omega)

theorem Ordered.leave {outer inner : Scope} (h : outer.Ordered) (hslots : outer.slots ≤ inner.slots) :
    (outer.leave inner).Ordered :=
  ⟨fun entry hentry => Nat.lt_of_lt_of_le (h.taken entry hentry) hslots, h.distinct⟩

theorem Ordered.slot?_lt {s : Scope} (h : s.Ordered) {name : String} {slot : Nat}
    (hslot : s.slot? name = some slot) : slot < s.slots := by
  obtain ⟨before, after, heq, _⟩ := List.lookup_eq_some_iff.1 hslot
  exact h.taken (name, slot) (by simp [heq])

theorem declareAll_cons (s : Scope) (param : String × Position) (params : List (String × Position)) :
    s.declareAll (param :: params) = (s.declare param.1).declareAll params := rfl

theorem Ordered.declareAll {s : Scope} (h : s.Ordered) (params : List (String × Position)) :
    (s.declareAll params).Ordered := by
  induction params generalizing s with
  | nil => exact h
  | cons param params ih => exact ih (h.declare param.1)

theorem slots_declareAll (s : Scope) (params : List (String × Position)) :
    (s.declareAll params).slots = s.slots + params.length := by
  induction params generalizing s with
  | nil => rfl
  | cons param params ih =>
    have hslots : (s.declare param.1).slots = s.slots + 1 := rfl
    rw [declareAll_cons, ih, List.length_cons, hslots]
    omega

/-- A scope that another one has grown to: it has more names in front, and takes at most some number of slots
more. -/
structure Grows (s s' : Scope) (most : Nat) : Prop where
  slots_le : s.slots ≤ s'.slots
  le_slots : s'.slots ≤ s.slots + most
  names : ∃ declared, s'.names = declared ++ s.names
  ordered : s.Ordered → s'.Ordered

theorem Grows.refl (s : Scope) (most : Nat) : s.Grows s most :=
  ⟨Nat.le_refl _, Nat.le_add_right _ _, ⟨[], rfl⟩, id⟩

theorem Grows.trans {s s' s'' : Scope} {n m : Nat} (h : s.Grows s' n) (h' : s'.Grows s'' m) :
    s.Grows s'' (n + m) := by
  obtain ⟨inner, hinner⟩ := h.names
  obtain ⟨outer, houter⟩ := h'.names
  refine ⟨Nat.le_trans h.slots_le h'.slots_le, ?_, ⟨outer ++ inner, ?_⟩, h'.ordered ∘ h.ordered⟩
  · have hn := h.le_slots
    have hm := h'.le_slots
    omega
  · rw [houter, hinner, List.append_assoc]

theorem Grows.mono {s s' : Scope} {n m : Nat} (h : s.Grows s' n) (hnm : n ≤ m) : s.Grows s' m :=
  ⟨h.slots_le, Nat.le_trans h.le_slots (Nat.add_le_add_left hnm _), h.names, h.ordered⟩

theorem grows_declare (s : Scope) (name : String) {most : Nat} (h : 0 < most) :
    s.Grows (s.declare name) most :=
  ⟨Nat.le_succ _, Nat.add_le_add_left h _, ⟨[(name, s.slots)], rfl⟩, fun hs => hs.declare name⟩

/-- Behind a block only the slots have grown. -/
theorem Grows.leave {s s' : Scope} {most : Nat} (h : s.Grows s' most) : s.Grows (s.leave s') most :=
  ⟨h.slots_le, h.le_slots, ⟨[], rfl⟩, fun hs => hs.leave h.slots_le⟩

end Scope

/-! ## Operations -/

/-- An operation refers to one of some slots, to a place up to some index, and to a function that takes as
many arguments as it gives, which are at most some number. -/
def Op.Placed (p : Program) (owner : Member) (slots stop most : Nat) : Op → Prop
  | .load slot | .store slot => slot < slots
  | .jump target | .jumpIfFalse target => target ≤ stop
  | .call index argc => argc ≤ most ∧ ∃ callee, CallsTo p owner callee argc (.call index argc)
  | .callNative location symbol argc =>
    argc ≤ most ∧ ∃ callee, CallsTo p owner callee argc (.callNative location symbol argc)
  | .callUnit unit method argc =>
    argc ≤ most ∧ ∃ callee, CallsTo p owner callee argc (.callUnit unit method argc)
  | .const _ | .unary _ | .binary _ | .pop | .ret => True

section
variable {p : Program} {owner : Member} {scope : Scope}

theorem Op.Placed.mono {slots slots' stop stop' most most' : Nat} {op : Op}
    (h : op.Placed p owner slots stop most) (hslots : slots ≤ slots') (hstop : stop ≤ stop')
    (hmost : most ≤ most') : op.Placed p owner slots' stop' most' := by
  cases op with
  | load slot | store slot => exact Nat.lt_of_lt_of_le h hslots
  | jump target | jumpIfFalse target => exact Nat.le_trans h hstop
  | call | callNative | callUnit => exact ⟨Nat.le_trans h.1 hmost, h.2⟩
  | const | unary | binary | pop | ret => trivial

theorem CallsTo.placed {callee : Option Callee} {argc slots stop most : Nat} {op : Op}
    (h : CallsTo p owner callee argc op) (hmost : argc ≤ most) :
    op.Placed p owner slots stop most := by
  cases h with
  | own hdecl => exact ⟨hmost, _, .own hdecl⟩
  | other hunit hdecl => exact ⟨hmost, _, .other hunit hdecl⟩
  | native hname hfound => exact ⟨hmost, _, .native hname hfound⟩

/-- Some operations are placed, in the form in which code is put together. -/
def AllPlaced (p : Program) (owner : Member) (slots stop most : Nat) (code : List Op) : Prop :=
  ∀ op ∈ code, op.Placed p owner slots stop most

theorem AllPlaced.mono {slots slots' stop stop' most most' : Nat} {code : List Op}
    (h : AllPlaced p owner slots stop most code) (hslots : slots ≤ slots') (hstop : stop ≤ stop')
    (hmost : most ≤ most') : AllPlaced p owner slots' stop' most' code :=
  fun op hop => (h op hop).mono hslots hstop hmost

theorem AllPlaced.append {slots stop most : Nat} {code more : List Op}
    (h : AllPlaced p owner slots stop most code) (h' : AllPlaced p owner slots stop most more) :
    AllPlaced p owner slots stop most (code ++ more) :=
  List.forall_mem_append.2 ⟨h, h'⟩

theorem AllPlaced.cons {slots stop most : Nat} {op : Op} {code : List Op}
    (h : op.Placed p owner slots stop most) (h' : AllPlaced p owner slots stop most code) :
    AllPlaced p owner slots stop most (op :: code) :=
  List.forall_mem_cons.2 ⟨h, h'⟩

theorem allPlaced_nil {slots stop most : Nat} : AllPlaced p owner slots stop most [] :=
  fun _ h => absurd h (by simp)

theorem allPlaced_singleton {slots stop most : Nat} {op : Op} (h : op.Placed p owner slots stop most) :
    AllPlaced p owner slots stop most [op] :=
  .cons h allPlaced_nil

/-! ## One place after the other -/

/-- What is said of a list that stands from some place on, if it is said of each item at the place of that item. -/
structure Along {α : Type} (P : Nat → α → Prop) (K : Nat → List α → Prop) : Prop where
  nil : ∀ start, K start []
  cons : ∀ start a rest, K start (a :: rest) ↔ P start a ∧ K (start + 1) rest

namespace Along

variable {α : Type} {P : Nat → α → Prop} {K : Nat → List α → Prop} {start : Nat} {items more : List α}

theorem append (h : Along P K) : K start (items ++ more) ↔ K start items ∧ K (start + items.length) more := by
  induction items generalizing start with
  | nil => exact (and_iff_right (h.nil start)).symm
  | cons a items ih =>
    rw [List.cons_append, h.cons, h.cons, ih, and_assoc, List.length_cons, Nat.add_right_comm, Nat.add_assoc]

theorem of_getElem? (h : Along P K) (hitems : ∀ i a, items[i]? = some a → P (start + i) a) : K start items := by
  induction items generalizing start with
  | nil => exact h.nil start
  | cons a rest ih =>
    refine (h.cons start a rest).2 ⟨hitems 0 a rfl, ih fun i b hb => ?_⟩
    rw [Nat.add_assoc, Nat.add_comm 1]
    exact hitems (i + 1) b hb

theorem getElem? (h : Along P K) (hitems : K start items) {i : Nat} {a : α} (ha : items[i]? = some a) :
    P (start + i) a := by
  induction items generalizing start i with
  | nil => exact absurd ha (by simp)
  | cons first rest ih =>
    obtain ⟨hfirst, hrest⟩ := (h.cons start first rest).1 hitems
    cases i with
    | zero =>
      obtain rfl := Option.some.inj ha
      exact hfirst
    | succ i =>
      have hnext := ih hrest ha
      rwa [Nat.add_assoc, Nat.add_comm 1] at hnext

end Along

/-! ## Expressions -/

mutual

theorem ExprCode.length_le : ∀ {start : Nat} {e : Expr} {code : List Op},
    ExprCode p owner scope start e code → code.length + 3 ≤ 4 * e.size
  | _, _, _, .int | _, _, _, .str | _, _, _, .bool | _, _, _, .var _ => by
    simp [Expr.size]
  | _, _, _, .call hargs _ | _, _, _, .memberCall hargs _ => by
    have hlength := ArgsCode.length_le hargs
    simp only [Expr.size, List.length_append, List.length_singleton]
    omega
  | _, _, _, .neg h | _, _, _, .not h => by
    have hlength := ExprCode.length_le h
    simp only [Expr.size, List.length_append, List.length_singleton]
    omega
  | _, _, _, .binary hl hr | _, _, _, .and hl hr | _, _, _, .or hl hr => by
    have hleft := ExprCode.length_le hl
    have hright := ExprCode.length_le hr
    simp only [Expr.size, List.length_append, List.length_cons, List.length_nil]
    omega

theorem ArgsCode.length_le : ∀ {start : Nat} {es : List Expr} {code : List Op},
    ArgsCode p owner scope start es code → code.length ≤ 4 * argsSize es
  | _, _, _, .nil => Nat.le_refl 0
  | _, _, _, .cons h hrest => by
    have hfirst := ExprCode.length_le h
    have hlength := ArgsCode.length_le hrest
    simp only [argsSize, List.length_append]
    omega

end

mutual

/-- The operations of an expression are placed, up to the end of its code. -/
theorem ExprCode.allPlaced (hscope : scope.Ordered) : ∀ {start : Nat} {e : Expr} {code : List Op},
    ExprCode p owner scope start e code →
      AllPlaced p owner scope.slots (start + code.length) e.size code
  | _, _, _, .int | _, _, _, .str | _, _, _, .bool => allPlaced_singleton trivial
  | _, _, _, .var hslot => allPlaced_singleton (hscope.slot?_lt hslot)
  | _, .call _ es _, _, .call hargs hcalls | _, .memberCall _ _ es _, _, .memberCall hargs hcalls => by
    have hlength := length_le_argsSize es
    refine .append ((ArgsCode.allPlaced hscope hargs).mono (Nat.le_refl _) ?_ ?_)
      (allPlaced_singleton (hcalls.placed (Nat.le_trans hlength ?_)))
    · rw [List.length_append]
      omega
    · rw [Expr.size]
      omega
    · rw [Expr.size]
      omega
  | _, _, _, .neg h | _, _, _, .not h => by
    refine .append ((ExprCode.allPlaced hscope h).mono (Nat.le_refl _) ?_ ?_)
      (allPlaced_singleton trivial)
    · rw [List.length_append]
      omega
    · rw [Expr.size]
      omega
  | _, _, _, .binary hl hr => by
    refine .append (.append ((ExprCode.allPlaced hscope hl).mono (Nat.le_refl _) ?_ ?_)
      ((ExprCode.allPlaced hscope hr).mono (Nat.le_refl _) ?_ ?_)) (allPlaced_singleton trivial) <;>
    simp only [Expr.size, List.length_append, List.length_singleton] <;> omega
  | _, _, _, .and hl hr => by
    refine .append (.append (.append ((ExprCode.allPlaced hscope hl).mono (Nat.le_refl _) ?_ ?_)
      (allPlaced_singleton ?_)) ((ExprCode.allPlaced hscope hr).mono (Nat.le_refl _) ?_ ?_))
      (.cons ?_ (allPlaced_singleton trivial)) <;>
    simp only [Op.Placed, Expr.size, List.length_append, List.length_cons, List.length_nil] <;> omega
  | _, _, _, .or hl hr => by
    refine .append (.append ((ExprCode.allPlaced hscope hl).mono (Nat.le_refl _) ?_ ?_)
      (.cons ?_ (.cons trivial (allPlaced_singleton ?_))))
      ((ExprCode.allPlaced hscope hr).mono (Nat.le_refl _) ?_ ?_) <;>
    simp only [Op.Placed, Expr.size, List.length_append, List.length_cons, List.length_nil] <;> omega

theorem ArgsCode.allPlaced (hscope : scope.Ordered) :
    ∀ {start : Nat} {es : List Expr} {code : List Op}, ArgsCode p owner scope start es code →
      AllPlaced p owner scope.slots (start + code.length) (argsSize es) code
  | _, _, _, .nil => allPlaced_nil
  | _, _, _, .cons h hrest => by
    refine .append ((ExprCode.allPlaced hscope h).mono (Nat.le_refl _) ?_ ?_)
      ((ArgsCode.allPlaced hscope hrest).mono (Nat.le_refl _) ?_ ?_) <;>
    simp only [argsSize, List.length_append] <;> omega

end

/-! ## Statements -/

mutual

theorem StmtCode.length_le : ∀ {scope after : Scope} {start : Nat} {s : Stmt} {code : List Op},
    StmtCode p owner scope start s code after → code.length ≤ 4 * s.size
  | _, _, _, _, _, .declare h | _, _, _, _, _, .assign h _ | _, _, _, _, _, .ret h
  | _, _, _, _, _, .expr h => by
    have hlength := h.length_le
    simp only [Stmt.size, List.length_append, List.length_singleton]
    omega
  | _, _, _, _, _, .retUnit => by
    simp [Stmt.size]
  | _, _, _, _, _, .branch hc ht he => by
    have hcondition := hc.length_le
    have hthen := BodyCode.length_le ht
    have helse := OptionalCode.length_le he
    simp only [Stmt.size, List.length_append, List.length_singleton]
    omega
  | _, _, _, _, _, .loop hc hb => by
    have hcondition := hc.length_le
    have hbody := BodyCode.length_le hb
    simp only [Stmt.size, List.length_append, List.length_singleton]
    omega

theorem BodyCode.length_le : ∀ {scope after : Scope} {start : Nat} {stmts : List Stmt} {code : List Op},
    BodyCode p owner scope start stmts code after → code.length ≤ 4 * bodySize stmts
  | _, _, _, _, _, .nil => Nat.le_refl 0
  | _, _, _, _, _, .cons h hrest => by
    have hfirst := StmtCode.length_le h
    have hlength := BodyCode.length_le hrest
    simp only [bodySize, List.length_append]
    omega

theorem OptionalCode.length_le : ∀ {scope after : Scope} {start : Nat} {stmts : Option (List Stmt)}
    {code : List Op}, OptionalCode p owner scope start stmts code after →
      code.length ≤ 4 * optionalSize stmts
  | _, _, _, _, _, .none => Nat.le_refl 0
  | _, _, _, _, _, .some h => BodyCode.length_le h

end

mutual

/-- The scope behind a statement has grown by at most a slot for each node. -/
theorem StmtCode.grows : ∀ {scope after : Scope} {start : Nat} {s : Stmt} {code : List Op},
    StmtCode p owner scope start s code after → scope.Grows after s.size
  | scope, _, _, .declare name _ _, _, .declare _ =>
    scope.grows_declare name (by rw [Stmt.size]; omega)
  | scope, _, _, _, _, .assign _ _ | scope, _, _, _, _, .ret _ | scope, _, _, _, _, .expr _
  | scope, _, _, _, _, .retUnit => .refl scope _
  | _, _, _, _, _, .branch _ ht he => by
    refine ((BodyCode.grows ht).leave.trans (OptionalCode.grows he).leave).mono ?_
    rw [Stmt.size]
    omega
  | _, _, _, _, _, .loop _ hb => by
    refine (BodyCode.grows hb).leave.mono ?_
    rw [Stmt.size]
    omega

theorem BodyCode.grows : ∀ {scope after : Scope} {start : Nat} {stmts : List Stmt} {code : List Op},
    BodyCode p owner scope start stmts code after → scope.Grows after (bodySize stmts)
  | scope, _, _, _, _, .nil => .refl scope _
  | _, _, _, _, _, .cons h hrest => (StmtCode.grows h).trans (BodyCode.grows hrest)

theorem OptionalCode.grows : ∀ {scope after : Scope} {start : Nat} {stmts : Option (List Stmt)}
    {code : List Op}, OptionalCode p owner scope start stmts code after →
      scope.Grows after (optionalSize stmts)
  | scope, _, _, _, _, .none => .refl scope _
  | _, _, _, _, _, .some h => BodyCode.grows h

end

mutual

/-- The operations of a statement are placed, up to the end of its code. -/
theorem StmtCode.allPlaced : ∀ {scope after : Scope} {start : Nat} {s : Stmt} {code : List Op},
    scope.Ordered → StmtCode p owner scope start s code after →
      AllPlaced p owner after.slots (start + code.length) s.size code
  | _, _, _, _, _, hscope, .declare h => by
    refine .append ((h.allPlaced hscope).mono (Nat.le_succ _) ?_ ?_)
      (allPlaced_singleton (Nat.lt_succ_self _)) <;>
    simp only [Stmt.size, List.length_append] <;> omega
  | _, _, _, _, _, hscope, .assign h hslot => by
    refine .append ((h.allPlaced hscope).mono (Nat.le_refl _) ?_ ?_)
      (allPlaced_singleton (hscope.slot?_lt hslot)) <;>
    simp only [Stmt.size, List.length_append] <;> omega
  | _, _, _, _, _, hscope, .ret h | _, _, _, _, _, hscope, .expr h => by
    refine .append ((h.allPlaced hscope).mono (Nat.le_refl _) ?_ ?_) (allPlaced_singleton trivial) <;>
    simp only [Stmt.size, List.length_append] <;> omega
  | _, _, _, _, _, _, .retUnit => .cons trivial (allPlaced_singleton trivial)
  | _, _, _, _, _, hscope, .branch hc ht he => by
    have hthen := BodyCode.grows ht
    have helse := OptionalCode.grows he
    have hslots := Nat.le_trans hthen.leave.slots_le helse.slots_le
    refine .append (.append (.append (.append ((hc.allPlaced hscope).mono hslots ?_ ?_)
      (allPlaced_singleton ?_)) ((BodyCode.allPlaced hscope ht).mono helse.slots_le ?_ ?_))
      (allPlaced_singleton ?_))
      ((OptionalCode.allPlaced (hthen.leave.ordered hscope) he).mono (Nat.le_refl _) ?_ ?_) <;>
    simp only [Op.Placed, Stmt.size, List.length_append, List.length_singleton] <;> omega
  | _, _, _, _, _, hscope, .loop hc hb => by
    have hbody := BodyCode.grows hb
    refine .append (.append (.append ((hc.allPlaced hscope).mono hbody.slots_le ?_ ?_)
      (allPlaced_singleton ?_)) ((BodyCode.allPlaced hscope hb).mono (Nat.le_refl _) ?_ ?_))
      (allPlaced_singleton ?_) <;>
    simp only [Op.Placed, Stmt.size, List.length_append, List.length_singleton] <;> omega

theorem BodyCode.allPlaced : ∀ {scope after : Scope} {start : Nat} {stmts : List Stmt} {code : List Op},
    scope.Ordered → BodyCode p owner scope start stmts code after →
      AllPlaced p owner after.slots (start + code.length) (bodySize stmts) code
  | _, _, _, _, _, _, .nil => allPlaced_nil
  | _, _, _, _, _, hscope, .cons h hrest => by
    have hfirst := StmtCode.grows h
    have hmore := BodyCode.grows hrest
    refine .append ((StmtCode.allPlaced hscope h).mono hmore.slots_le ?_ ?_)
      ((BodyCode.allPlaced (hfirst.ordered hscope) hrest).mono (Nat.le_refl _) ?_ ?_) <;>
    simp only [bodySize, List.length_append] <;> omega

theorem OptionalCode.allPlaced : ∀ {scope after : Scope} {start : Nat} {stmts : Option (List Stmt)}
    {code : List Op}, scope.Ordered → OptionalCode p owner scope start stmts code after →
      AllPlaced p owner after.slots (start + code.length) (optionalSize stmts) code
  | _, _, _, _, _, _, .none => allPlaced_nil
  | _, _, _, _, _, hscope, .some h => BodyCode.allPlaced hscope h

end

end
end PluginSandbox
