import PluginSandbox.Proofs.Bytecode.Encoding

/-!
# The written form of modules

Writing a module and reading it back are inverse to each other (`Module.roundTrip`).

* A module whose counts fit their widths is read back as itself, so its bytes determine it.
* Whatever is read from bytes fits, whoever wrote the bytes: it can be written, and is read back as the same
  module.
* The bytes are a compact document of the form of a module (`Json.Shape.Admits`): a record is an object with its
  fields in their order, and a variant is its name, or an object whose one member has that name.
-/

namespace PluginSandbox

open Json (parsed)

/-! ## The form of documents -/

namespace Json.Shape

mutual

/-- A document has some form. -/
inductive Admits : Shape → Json → Prop
  | bool {b : Bool} : Admits .bool (.bool b)
  | int {kind : String} {low high n : Int} : low ≤ n → n ≤ high → Admits (.int kind low high) (.int n)
  | str {kind s : String} : Admits (.str kind) (.str s)
  | null {inner : Shape} : Admits (.nullable inner) .null
  | nullable {inner : Shape} {j : Json} : Admits inner j → Admits (.nullable inner) j
  | list {item : Shape} {items : List Json} : (∀ j ∈ items, Admits item j) →
      Admits (.list item) (.arr items)
  | map {value : Shape} {members : List (String × Json)} : (∀ m ∈ members, Admits value m.2) →
      Admits (.map value) (.obj members)
  | record {title : String} {defaults : Bool} {fields : List (String × Shape)}
      {members : List (String × Json)} : FieldsAdmit fields members →
      Admits (.record title defaults fields) (.obj members)
  | bare {cases : List (String × Option Shape)} {name : String} : (name, none) ∈ cases →
      Admits (.variant cases) (.str name)
  | carrying {cases : List (String × Option Shape)} {name : String} (payload : Shape) {j : Json} :
      (name, some payload) ∈ cases → Admits payload j → Admits (.variant cases) (.tagged name j)

/-- The members of an object are the fields of a record, in their order. -/
inductive FieldsAdmit : List (String × Shape) → List (String × Json) → Prop
  | nil : FieldsAdmit [] []
  | cons {name : String} {field : Shape} {j : Json} {fields : List (String × Shape)}
      {members : List (String × Json)} : Admits field j → FieldsAdmit fields members →
      FieldsAdmit ((name, field) :: fields) ((name, j) :: members)

end

theorem admits_text (s : String) : text.Admits (.str s) :=
  .str

theorem admits_count {n : Nat} (h : n < 1 <<< 64) : count.Admits (.nat n) := by
  refine .int (Int.natCast_nonneg n) ?_
  omega

/-- A variant that carries nothing is its name. -/
theorem admits_choice {names : List String} {name : String} (h : name ∈ names) :
    (choice names).Admits (.str name) :=
  .bare (List.mem_map.2 ⟨name, h, rfl⟩)

theorem admits_list {α : Type} {write : α → Json} {item : Shape} {items : List α}
    (h : ∀ a ∈ items, item.Admits (write a)) : (list item).Admits (.arr (items.map write)) := by
  refine .list fun j hj => ?_
  obtain ⟨a, ha, rfl⟩ := List.mem_map.1 hj
  exact h a ha

end Json.Shape

/-! ## What is written has the form of a module -/

theorem Value.admits_toJson (v : Value) : Value.shape.Admits v.toJson := by
  cases v with
  | unit => exact .bare (by simp)
  | bool b => exact .carrying .bool (by simp) .bool
  | int n =>
    obtain ⟨hlow, hhigh⟩ := Json.int64_bounds n
    exact .carrying (.int "i64" (-(1 <<< 63)) ((1 <<< 63) - 1)) (by simp) (.int hlow hhigh)
  | str s => exact .carrying .text (by simp) (Json.Shape.admits_text s)

theorem Location.admits_toJson (l : Location) : Location.shape.Admits l.toJson := by
  cases l with
  | systemModule name => exact .carrying .text (by simp) (Json.Shape.admits_text name)
  | _ => exact .bare (by simp)

theorem UnaryOp.mem_names (op : UnaryOp) : op.name ∈ UnaryOp.all.map UnaryOp.name := by
  cases op <;> decide

theorem BinaryOp.mem_names (op : BinaryOp) : op.name ∈ BinaryOp.all.map BinaryOp.name := by
  cases op <;> decide

namespace Op

open Json.Shape

theorem admits_toJson {op : Op} (h : op.Fits) : Op.shape.Admits op.toJson := by
  cases op with
  | const v => exact .carrying Value.shape (by simp) v.admits_toJson
  | load n | store n | jump n | jumpIfFalse n => exact .carrying .count (by simp) (admits_count h)
  | unary op =>
    exact .carrying (.choice (UnaryOp.all.map UnaryOp.name)) (by simp)
      (admits_choice op.mem_names)
  | binary op =>
    exact .carrying (.choice (BinaryOp.all.map BinaryOp.name)) (by simp)
      (admits_choice op.mem_names)
  | call function argc =>
    refine .carrying (.record "struct variant Op::Call" false
      [("function", .count), ("argc", .count)]) (by simp) (.record ?_)
    exact .cons (admits_count h.1) (.cons (admits_count h.2) .nil)
  | callNative location symbol argc =>
    refine .carrying (.record "struct variant Op::CallNative" false
      [("location", Location.shape), ("symbol", .text), ("argc", .count)]) (by simp) (.record ?_)
    exact .cons location.admits_toJson (.cons (admits_text symbol) (.cons (admits_count h) .nil))
  | callUnit unit function argc =>
    refine .carrying (.record "struct variant Op::CallUnit" false
      [("unit", .text), ("function", .text), ("argc", .count)]) (by simp) (.record ?_)
    exact .cons (admits_text unit) (.cons (admits_text function) (.cons (admits_count h) .nil))
  | pop | ret => exact .bare (by simp)

end Op

theorem Function.admits_toJson {f : Function} (h : f.Fits) : Function.shape.Admits f.toJson :=
  .record (.cons (Json.Shape.admits_text f.name) (.cons (Json.Shape.admits_count h.arity)
    (.cons (Json.Shape.admits_count h.locals)
      (.cons (Json.Shape.admits_list fun op hop => op.admits_toJson (h.code op hop)) .nil))))

theorem Module.admits_toJson {m : Module} (h : m.Fits) : Module.shape.Admits m.toJson := by
  have hversion : (m.formatVersion : Int) ≤ (1 <<< 32) - 1 := by
    have hlt := h.formatVersion
    omega
  exact .record (.cons (.int (Int.natCast_nonneg m.formatVersion) hversion)
    (.cons (Json.Shape.admits_text m.name) (.cons (Json.Shape.admits_text m.contract)
      (.cons (Json.Shape.admits_list fun f hf => f.admits_toJson (h.functions f hf)) .nil))))

/-! ## What is read fits -/

namespace Json.Parsed

theorem natBelow?_lt {p : Parsed} {bound n : Nat} (h : p.natBelow? bound = some n) : n < bound := by
  rw [natBelow?.eq_def] at h
  split at h
  · split at h
    · next hlt =>
      obtain rfl := Option.some.inj h
      exact hlt
    · exact absurd h (by simp)
  · exact absurd h (by simp)

theorem count?_lt {p : Parsed} {n : Nat} (h : p.count? = some n) : n < 1 <<< 64 :=
  natBelow?_lt h

/-- Whatever holds of all that is read holds of every item. -/
theorem forall_of_list? {α : Type} {read : Parsed → Option α} {P : α → Prop}
    (hread : ∀ p a, read p = some a → P a) {p : Parsed} {items : List α}
    (h : p.list? read = some items) : ∀ a ∈ items, P a := by
  rw [list?.eq_def] at h
  split at h
  · next parts =>
    induction parts generalizing items with
    | nil =>
      obtain rfl := Option.some.inj h
      exact fun a ha => absurd ha (by simp)
    | cons part parts ih =>
      rw [List.mapM_cons] at h
      obtain ⟨a, ha, h⟩ := Option.bind_eq_some_iff.1 h
      obtain ⟨rest, hrest, h⟩ := Option.bind_eq_some_iff.1 h
      obtain rfl := Option.some.inj h
      exact List.forall_mem_cons.2 ⟨hread part a ha, ih hrest⟩
  · exact absurd h (by simp)

theorem exists_of_required? {α : Type} {read : Parsed → Option α} {field : Option Parsed} {a : α}
    (h : required? read field = some a) : ∃ p, read p = some a := by
  obtain ⟨p, _, hp⟩ := Option.bind_eq_some_iff.1 h
  exact ⟨p, hp⟩

theorem required?_count_lt {field : Option Parsed} {n : Nat} (h : required? count? field = some n) :
    n < 1 <<< 64 := by
  obtain ⟨p, hp⟩ := exists_of_required? h
  exact count?_lt hp

end Json.Parsed

open Json.Parsed

/-- An operation that is read has counts of 64 bits. -/
theorem Op.fits_of_ofParsed? {p : Json.Parsed} {op : Op} (h : Op.ofParsed? p = some op) : op.Fits := by
  rw [Op.ofParsed?] at h
  obtain ⟨variant, _, h⟩ := Option.bind_eq_some_iff.1 h
  split at h
  case h_1 | h_4 | h_5 =>
    obtain ⟨_, _, rfl⟩ := Option.map_eq_some_iff.1 h
    trivial
  case h_2 | h_3 | h_6 | h_7 =>
    obtain ⟨n, hn, rfl⟩ := Option.map_eq_some_iff.1 h
    exact count?_lt hn
  case h_8 =>
    obtain ⟨fields, _, h⟩ := Option.bind_eq_some_iff.1 h
    split at h
    · obtain ⟨function, hfunction, h⟩ := Option.bind_eq_some_iff.1 h
      obtain ⟨argc, hargc, h⟩ := Option.bind_eq_some_iff.1 h
      obtain rfl := Option.some.inj h
      exact ⟨required?_count_lt hfunction, required?_count_lt hargc⟩
    · exact absurd h (by simp)
  case h_9 | h_10 =>
    obtain ⟨fields, _, h⟩ := Option.bind_eq_some_iff.1 h
    split at h
    · obtain ⟨_, _, h⟩ := Option.bind_eq_some_iff.1 h
      obtain ⟨_, _, h⟩ := Option.bind_eq_some_iff.1 h
      obtain ⟨argc, hargc, h⟩ := Option.bind_eq_some_iff.1 h
      obtain rfl := Option.some.inj h
      exact required?_count_lt hargc
    · exact absurd h (by simp)
  case h_11 | h_12 | h_13 | h_14 =>
    obtain rfl := Option.some.inj h
    trivial
  case h_15 => exact absurd h (by simp)

theorem Function.fits_of_ofParsed? {p : Json.Parsed} {f : Function}
    (h : Function.ofParsed? p = some f) : f.Fits := by
  rw [Function.ofParsed?] at h
  obtain ⟨fields, _, h⟩ := Option.bind_eq_some_iff.1 h
  split at h
  · obtain ⟨name, _, h⟩ := Option.bind_eq_some_iff.1 h
    obtain ⟨arity, harity, h⟩ := Option.bind_eq_some_iff.1 h
    obtain ⟨locals, hlocals, h⟩ := Option.bind_eq_some_iff.1 h
    obtain ⟨code, hcode, h⟩ := Option.bind_eq_some_iff.1 h
    obtain rfl := Option.some.inj h
    obtain ⟨part, hpart⟩ := exists_of_required? hcode
    exact ⟨required?_count_lt harity, required?_count_lt hlocals,
      forall_of_list? (fun _ _ => Op.fits_of_ofParsed?) hpart⟩
  · exact absurd h (by simp)

theorem Module.fits_of_ofParsed? {p : Json.Parsed} {m : Module} (h : Module.ofParsed? p = some m) :
    m.Fits := by
  rw [Module.ofParsed?] at h
  obtain ⟨fields, _, h⟩ := Option.bind_eq_some_iff.1 h
  split at h
  · obtain ⟨version, hversion, h⟩ := Option.bind_eq_some_iff.1 h
    obtain ⟨name, _, h⟩ := Option.bind_eq_some_iff.1 h
    obtain ⟨contract, _, h⟩ := Option.bind_eq_some_iff.1 h
    obtain ⟨functions, hfunctions, h⟩ := Option.bind_eq_some_iff.1 h
    obtain rfl := Option.some.inj h
    obtain ⟨versionPart, hversionPart⟩ := exists_of_required? hversion
    obtain ⟨functionsPart, hfunctionsPart⟩ := exists_of_required? hfunctions
    exact ⟨natBelow?_lt hversionPart,
      forall_of_list? (fun _ _ => Function.fits_of_ofParsed?) hfunctionsPart⟩
  · exact absurd h (by simp)

/-- A module that is read from bytes has counts of as many bits as it is written with. -/
theorem Module.fits_of_decode? {bytes : ByteArray} {m : Module} (h : Module.decode? bytes = some m) :
    m.Fits := by
  obtain ⟨p, _, hp⟩ := Option.bind_eq_some_iff.1 h
  exact Module.fits_of_ofParsed? hp

/-! ## The round trip -/

/-- **Round trip.** A module whose counts fit their widths is written as a compact document of the form of a
module, and is read back from its bytes as itself; so modules with the same bytes are the same.  Whatever
module is read from bytes, however these came about, is read back as itself from the bytes that it is
written as. -/
theorem Module.roundTrip {m : Module} (h : m.Fits) :
    Module.decode? m.encode = some m ∧
      (∃ j : Json, m.encode = j.compact.toUTF8 ∧ Module.shape.Admits j ∧
        Json.parse m.encode.toList = some (parsed j)) ∧
      (∀ m' : Module, m'.Fits → m'.encode = m.encode → m' = m) ∧
      ∀ (bytes : ByteArray) (read : Module), Module.decode? bytes = some read →
        read.Fits ∧ Module.decode? read.encode = some read := by
  refine ⟨Module.decode?_encode h,
    ⟨m.toJson, rfl, Module.admits_toJson h, Json.parse_compact (Module.fits_toJson h)⟩, ?_, ?_⟩
  · intro m' h' hbytes
    have hread := Module.decode?_encode h'
    rw [hbytes, Module.decode?_encode h] at hread
    exact (Option.some.inj hread).symm
  · intro bytes read hread
    have hfits := Module.fits_of_decode? hread
    exact ⟨hfits, Module.decode?_encode hfits⟩

/-- A module with counts, integers and characters at their limits, and with every form of operation. -/
def Module.extreme : Module where
  formatVersion := (1 <<< 32) - 1
  name := "\"\\/\x00\x1f\x7f\n\u2028😀"
  contract := ""
  functions := #[
    { name := "\t", arity := (1 <<< 64) - 1, locals := 0
      code := #[.const .unit, .const (.bool true), .const (.int Int64.minValue),
        .const (.int Int64.maxValue), .const (.str "\x08\x0c\r"), .load ((1 <<< 64) - 1), .store 0,
        .unary .not, .binary .ge, .jump 0, .jumpIfFalse ((1 <<< 64) - 1), .call 0 ((1 <<< 64) - 1),
        .callNative (.systemModule "\"") "io.print" 1, .callNative .classOutput "" 0,
        .callUnit "\\" "" ((1 <<< 64) - 1), .pop, .ret] },
    { name := "", arity := 0, locals := 0, code := #[] }]

/-- The limits are written and read back. -/
theorem Module.roundTrip_extreme : Module.extreme.Fits ∧
    Module.decode? Module.extreme.encode = some Module.extreme ∧
      ∃ j : Json, Module.extreme.encode = j.compact.toUTF8 ∧ Module.shape.Admits j := by
  have hfits : Module.extreme.Fits :=
    ⟨by decide, by simp [Module.extreme, Function.fits_iff, Op.Fits]⟩
  obtain ⟨hread, ⟨j, hbytes, hadmits, _⟩, _⟩ := Module.roundTrip hfits
  exact ⟨hfits, hread, j, hbytes, hadmits⟩

end PluginSandbox
