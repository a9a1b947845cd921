import PluginSandbox.Machine.Basic
import PluginSandbox.Proofs.Bytecode.Encoding
import PluginSandbox.Proofs.Bytecode.Verify
import PluginSandbox.Proofs.Compiler.Placement
import PluginSandbox.Proofs.Language.Lexed
import PluginSandbox.Proofs.Order

/-!
# Compiled units

A compiled unit has the functions of its plugin in order, passes the structural checks of the loader
(`ModuleCode.firstFlaw?_eq_none`), and can be written and read back (`ModuleCode.fits`).
-/

namespace PluginSandbox

variable {p : Program} {owner : Member} {contract : String} {m : Module}

/-! ## Functions -/

namespace FunctionCode

variable {decl : FunctionDecl} {f : Function}

theorem name (h : FunctionCode p owner decl f) : f.name = decl.name := by
  cases h
  rfl

theorem arity (h : FunctionCode p owner decl f) : f.arity = decl.params.length := by
  cases h
  rfl

/-- The code of a function is that of its body, and a return of the unit value behind it. -/
theorem exists_body (h : FunctionCode p owner decl f) :
    ∃ code after, BodyCode p owner (Scope.empty.declareAll decl.params) 0 decl.body code after ∧
      f.code.toList = code ++ [Op.const .unit, Op.ret] ∧ f.locals = after.slots := by
  cases h with
  | mk hbody => exact ⟨_, _, hbody, rfl, rfl⟩

/-- A function has a slot for each parameter, and at most one for each node. -/
theorem locals (h : FunctionCode p owner decl f) : f.arity ≤ f.locals ∧ f.locals ≤ decl.size := by
  cases h with
  | mk hbody =>
    have hgrows := hbody.grows
    have hle := hgrows.slots_le
    have hge := hgrows.le_slots
    rw [Scope.slots_declareAll] at hle hge
    have hempty : Scope.empty.slots = 0 := rfl
    rw [FunctionDecl.size]
    dsimp only
    omega

/-- The operations of a function are placed, in front of its last one. -/
theorem placed (h : FunctionCode p owner decl f) :
    f.code.size ≤ 4 * decl.size ∧
      AllPlaced p owner f.locals (f.code.size - 1) decl.size f.code.toList := by
  cases h with
  | mk hbody =>
    have hlength := hbody.length_le
    have hplaced := hbody.allPlaced (Scope.ordered_empty.declareAll decl.params)
    rw [FunctionDecl.size]
    simp only [List.size_toArray, List.length_append, List.length_cons, List.length_nil]
    refine ⟨by omega, .append (hplaced.mono (Nat.le_refl _) ?_ ?_) (.cons trivial (allPlaced_singleton trivial))⟩ <;>
    omega

theorem endsCode (h : FunctionCode p owner decl f) :
    (f.code.back?.map Op.endsCode).getD false = true := by
  cases h
  simp [Op.endsCode]

end FunctionCode

/-! ## Modules -/

namespace ModuleCode

/-- A function stands where its declaration does. -/
theorem getElem? (h : ModuleCode p owner contract m) {index : Nat} {decl : FunctionDecl}
    (hdecl : owner.parsed.functions[index]? = some decl) :
    ∃ f, m.functions[index]? = some f ∧ FunctionCode p owner decl f := by
  obtain ⟨hlt, rfl⟩ := List.getElem?_eq_some_iff.1 hdecl
  have hlt' : index < m.functions.toList.length := h.functions.length_eq ▸ hlt
  refine ⟨m.functions[index], Array.getElem?_eq_getElem (by simpa using hlt'), ?_⟩
  have hcode := h.functions.get hlt hlt'
  simpa using hcode

/-- The first function of a name is the compiled form of the first declaration of the name. -/
theorem function? (h : ModuleCode p owner contract m) {name : String} {decl : FunctionDecl}
    (hdecl : owner.parsed.function? name = some decl) :
    ∃ f, m.function? name = some f ∧ FunctionCode p owner decl f := by
  have hfind : ∀ (decls : List FunctionDecl) (fs : List Function),
      List.Forall₂ (FunctionCode p owner) decls fs → (decls.find? fun f => f.name = name) = some decl →
        ∃ f, (fs.find? fun f => f.name == name) = some f ∧ FunctionCode p owner decl f := by
    intro decls fs hcodes hfind
    induction hcodes with
    | nil => exact absurd hfind (by simp)
    | cons hcode _ ih =>
      rw [List.find?_cons] at hfind
      rw [List.find?_cons, hcode.name]
      split at hfind
      · next hname =>
        obtain rfl := Option.some.inj hfind
        rw [beq_iff_eq.2 (of_decide_eq_true hname)]
        exact ⟨_, rfl, hcode⟩
      · next hname =>
        rw [beq_eq_false_iff_ne.2 (of_decide_eq_false hname)]
        exact ih hfind
  obtain ⟨f, hf, hcode⟩ := hfind _ _ h.functions hdecl
  exact ⟨f, by rwa [Module.function?, ← Array.find?_toList], hcode⟩

/-- Every function is the compiled form of a declaration. -/
theorem exists_decl (h : ModuleCode p owner contract m) {f : Function} (hf : f ∈ m.functions.toList) :
    ∃ decl ∈ owner.parsed.functions, FunctionCode p owner decl f :=
  exists_of_mem_right h.functions hf

/-- The operations of a module are placed in their functions. -/
theorem placed (h : ModuleCode p owner contract m) {f : Function} (hf : f ∈ m.functions.toList) :
    ∃ most, AllPlaced p owner f.locals (f.code.size - 1) most f.code.toList := by
  obtain ⟨decl, _, hcode⟩ := h.exists_decl hf
  exact ⟨_, hcode.placed.2⟩

/-! ## Verification -/

theorem misplaced?_eq_none (h : ModuleCode p owner contract m) {f : Function} {most : Nat} {op : Op}
    (hsize : 0 < f.code.size) (hop : op.Placed p owner f.locals (f.code.size - 1) most) :
    op.misplaced? m f = none := by
  cases op with
  | load slot | store slot => exact if_pos hop
  | jump target | jumpIfFalse target =>
    have htarget : target ≤ f.code.size - 1 := hop
    exact if_pos (by omega)
  | call index argc =>
    obtain ⟨_, callee, hcalls⟩ := hop
    cases hcalls with
    | own hdecl =>
      obtain ⟨g, hg, hcode⟩ := h.getElem? hdecl
      rw [Op.misplaced?, hg]
      exact if_pos hcode.arity
  | const | unary | binary | callNative | callUnit | pop | ret => rfl

/-- A compiled unit passes the structural checks. -/
theorem firstFlaw?_eq_none (h : ModuleCode p owner contract m) : m.firstFlaw? = none := by
  refine Module.firstFlaw?_eq_none.2 fun f hf => ?_
  obtain ⟨decl, _, hcode⟩ := h.exists_decl (Array.mem_toList_iff.2 hf)
  have hend := hcode.endsCode
  have hsize : 0 < f.code.size := by
    rcases Nat.eq_zero_or_pos f.code.size with hzero | hpos
    · rw [Array.eq_empty_of_size_eq_zero hzero] at hend
      exact absurd hend (by simp)
    · exact hpos
  refine Function.firstFlaw?_eq_none.2 ⟨hcode.locals.1, hend, fun op hop => ?_⟩
  exact h.misplaced?_eq_none hsize (hcode.placed.2 op (Array.mem_toList_iff.2 hop))

/-! ## Writing and reading back -/

theorem fits_op {f : Function} {most : Nat} {op : Op} (hfunctions : owner.parsed.functions.length < 1 <<< 64)
    (hlocals : f.locals < 1 <<< 64) (hsize : f.code.size < 1 <<< 64) (hmost : most < 1 <<< 64)
    (hop : op.Placed p owner f.locals (f.code.size - 1) most) : op.Fits := by
  cases op with
  | load slot | store slot => exact Nat.lt_trans hop hlocals
  | jump target | jumpIfFalse target =>
    have htarget : target ≤ f.code.size - 1 := hop
    show target < 1 <<< 64
    omega
  | call index argc =>
    obtain ⟨hargc, callee, hcalls⟩ := hop
    cases hcalls with
    | own hdecl =>
      obtain ⟨hlt, _⟩ := List.getElem?_eq_some_iff.1 hdecl
      exact ⟨Nat.lt_trans hlt hfunctions, Nat.lt_of_le_of_lt hargc hmost⟩
  | callNative | callUnit => exact Nat.lt_of_le_of_lt hop.1 hmost
  | const | unary | binary | pop | ret => trivial

end ModuleCode

/-- No function has more nodes than all of them together, and there are no more functions than nodes. -/
theorem FunctionsWithin.size_le {fs : List FunctionDecl} {n : Nat} (h : FunctionsWithin fs n) :
    fs.length ≤ n ∧ ∀ f ∈ fs, f.size ≤ n := by
  obtain ⟨hsum, -⟩ := h
  induction fs generalizing n with
  | nil => exact ⟨Nat.zero_le _, fun _ hf => absurd hf (by simp)⟩
  | cons f fs ih =>
    rw [totalSize] at hsum
    have hpos : 0 < f.size := by
      rw [FunctionDecl.size]
      omega
    obtain ⟨hlength, hsizes⟩ := ih (n := n - f.size) (by omega)
    refine ⟨?_, List.forall_mem_cons.2 ⟨by omega, fun g hg => ?_⟩⟩
    · rw [List.length_cons]
      omega
    · have hg' := hsizes g hg
      omega

/-- A compiled unit whose functions have no more nodes than a text has bytes can be written and read back. -/
theorem ModuleCode.fits (h : ModuleCode p owner contract m)
    (hsmall : FunctionsWithin owner.parsed.functions PluginUnit.mostBytes) : m.Fits := by
  obtain ⟨hlength, hsizes⟩ := hsmall.size_le
  have hmost : PluginUnit.mostBytes = 164703072086692425 := by decide
  rw [hmost] at hlength hsizes
  refine ⟨by rw [h.formatVersion]; decide, fun f hf => ?_⟩
  obtain ⟨decl, hdecl, hcode⟩ := h.exists_decl hf
  have hsize := hsizes decl hdecl
  obtain ⟨harity, hlocals⟩ := hcode.locals
  obtain ⟨hcodeSize, hplaced⟩ := hcode.placed
  refine ⟨by omega, by omega, fun op hop => ?_⟩
  exact ModuleCode.fits_op (by omega) (by omega) (by omega) (by omega) (hplaced op hop)

/-- The frame of a function of such a unit fits in memory. -/
theorem FunctionCode.not_overflows {decl : FunctionDecl} {f : Function} (h : FunctionCode p owner decl f)
    (hsmall : decl.size ≤ PluginUnit.mostBytes) : ¬ Frame.Overflows f := by
  obtain ⟨harity, hlocals⟩ := h.locals
  have hmost : PluginUnit.mostBytes ≤ Frame.mostSlots := by decide
  rw [Frame.Overflows, Frame.slotCount]
  omega

end PluginSandbox
