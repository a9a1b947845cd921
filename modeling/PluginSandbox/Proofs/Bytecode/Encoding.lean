import PluginSandbox.Bytecode.Encoding
import PluginSandbox.Proofs.Json.Record

/-!
# Modules that are written and read back

A module whose counts fit their widths is read back from its bytes as itself (`decode?_encode`): a format
version has 32 bits, and every slot, target, index, arity and number of arguments has 64.
-/

namespace PluginSandbox

open Json (parsed)

/-! ## Operations -/

/-- Every count of an operation has 64 bits. -/
def Op.Fits : Op → Prop
  | .load slot => slot < 1 <<< 64
  | .store slot => slot < 1 <<< 64
  | .jump target => target < 1 <<< 64
  | .jumpIfFalse target => target < 1 <<< 64
  | .call function argc => function < 1 <<< 64 ∧ argc < 1 <<< 64
  | .callNative _ _ argc => argc < 1 <<< 64
  | .callUnit _ _ argc => argc < 1 <<< 64
  | _ => True

theorem UnaryOp.ofName?_name (op : UnaryOp) : UnaryOp.ofName? op.name = some op := by
  cases op <;> rfl

theorem BinaryOp.ofName?_name (op : BinaryOp) : BinaryOp.ofName? op.name = some op := by
  cases op <;> rfl

theorem Value.ofParsed?_toJson (v : Value) : Value.ofParsed? (parsed v.toJson) = some v := by
  cases v with
  | unit =>
    rw [Value.ofParsed?, Value.toJson, Json.variant?_str]
    rfl
  | bool b =>
    rw [Value.ofParsed?, Value.toJson, Json.variant?_tagged]
    rfl
  | int n =>
    rw [Value.ofParsed?, Value.toJson, Json.variant?_tagged]
    show ((parsed (.int n.toInt)).int64?).map Value.int = _
    rw [Json.int64?_parsed, Option.map_some]
  | str s =>
    rw [Value.ofParsed?, Value.toJson, Json.variant?_tagged]
    show ((parsed (.str s)).string?).map Value.str = _
    rw [Json.string?_parsed, Option.map_some]

theorem Location.ofParsed?_toJson (l : Location) :
    Location.ofParsed? (parsed l.toJson) = some l := by
  cases l with
  | systemModule name =>
    rw [Location.ofParsed?, Location.toJson, Json.variant?_tagged]
    show ((parsed (.str name)).string?).map Location.systemModule = _
    rw [Json.string?_parsed, Option.map_some]
  | _ =>
    rw [Location.ofParsed?, Location.toJson, Json.variant?_str]
    rfl

/-- An operation is read back as itself. -/
theorem Op.ofParsed?_toJson {op : Op} (h : op.Fits) : Op.ofParsed? (parsed op.toJson) = some op := by
  cases op with
  | const v =>
    rw [Op.ofParsed?, Op.toJson, Json.variant?_tagged]
    show (Value.ofParsed? (parsed v.toJson)).map Op.const = _
    rw [Value.ofParsed?_toJson, Option.map_some]
  | load n | store n | jump n | jumpIfFalse n =>
    rw [Op.ofParsed?, Op.toJson, Json.variant?_tagged]
    exact congrArg (Option.map _) (Json.count?_parsed h)
  | unary op =>
    rw [Op.ofParsed?, Op.toJson, Json.variant?_tagged]
    show (((parsed (.str op.name)).bareVariant?).bind UnaryOp.ofName?).map Op.unary = _
    rw [Json.bareVariant?_str, Option.bind_some, UnaryOp.ofName?_name, Option.map_some]
  | binary op =>
    rw [Op.ofParsed?, Op.toJson, Json.variant?_tagged]
    show (((parsed (.str op.name)).bareVariant?).bind BinaryOp.ofName?).map Op.binary = _
    rw [Json.bareVariant?_str, Option.bind_some, BinaryOp.ofName?_name, Option.map_some]
  | call function argc =>
    have hfields := Json.fields?_parsed [("function", .nat function), ("argc", .nat argc)] (by simp)
    simp only [List.map_cons, List.map_nil] at hfields
    rw [Op.ofParsed?, Op.toJson, Json.variant?_tagged]
    simp only [Option.bind_eq_bind, Option.bind_some, hfields, Json.Parsed.required?,
      Json.count?_parsed h.1, Json.count?_parsed h.2]
    rfl
  | callNative location symbol argc =>
    have hfields := Json.fields?_parsed
      [("location", location.toJson), ("symbol", .str symbol), ("argc", .nat argc)] (by simp)
    simp only [List.map_cons, List.map_nil] at hfields
    have hargc : argc < 1 <<< 64 := h
    rw [Op.ofParsed?, Op.toJson, Json.variant?_tagged]
    simp only [Option.bind_eq_bind, Option.bind_some, hfields, Json.Parsed.required?,
      Location.ofParsed?_toJson, Json.string?_parsed, Json.count?_parsed hargc]
    rfl
  | callUnit unit function argc =>
    have hfields := Json.fields?_parsed
      [("unit", .str unit), ("function", .str function), ("argc", .nat argc)] (by simp)
    simp only [List.map_cons, List.map_nil] at hfields
    have hargc : argc < 1 <<< 64 := h
    rw [Op.ofParsed?, Op.toJson, Json.variant?_tagged]
    simp only [Option.bind_eq_bind, Option.bind_some, hfields, Json.Parsed.required?,
      Json.string?_parsed, Json.count?_parsed hargc]
    rfl
  | pop | ret =>
    rw [Op.ofParsed?, Op.toJson, Json.variant?_str]
    rfl

/-! ## Functions and modules -/

/-- Every count of a function has 64 bits. -/
structure Function.Fits (f : Function) : Prop where
  arity : f.arity < 1 <<< 64
  locals : f.locals < 1 <<< 64
  code : ∀ op ∈ f.code.toList, op.Fits

/-- Every count of a module has as many bits as it is written with. -/
structure Module.Fits (m : Module) : Prop where
  formatVersion : m.formatVersion < 1 <<< 32
  functions : ∀ f ∈ m.functions.toList, f.Fits

theorem Function.fits_iff {f : Function} :
    f.Fits ↔ f.arity < 1 <<< 64 ∧ f.locals < 1 <<< 64 ∧ ∀ op ∈ f.code.toList, op.Fits :=
  ⟨fun h => ⟨h.arity, h.locals, h.code⟩, fun h => ⟨h.1, h.2.1, h.2.2⟩⟩

theorem Function.ofParsed?_toJson {f : Function} (h : f.Fits) :
    Function.ofParsed? (parsed f.toJson) = some f := by
  have hfields := Json.fields?_parsed [("name", .str f.name), ("arity", .nat f.arity),
    ("locals", .nat f.locals), ("code", .arr (f.code.toList.map Op.toJson))] (by simp)
  simp only [List.map_cons, List.map_nil] at hfields
  have hcode := Json.list?_parsed fun op hop => Op.ofParsed?_toJson (h.code op hop)
  rw [Function.ofParsed?, Function.toJson]
  simp only [Option.bind_eq_bind, Option.bind_some, hfields, Json.Parsed.required?,
    Json.string?_parsed, Json.count?_parsed h.arity, Json.count?_parsed h.locals, hcode,
    Array.toArray_toList]
  rfl

theorem Module.ofParsed?_toJson {m : Module} (h : m.Fits) :
    Module.ofParsed? (parsed m.toJson) = some m := by
  have hfields := Json.fields?_parsed [("format_version", .nat m.formatVersion),
    ("name", .str m.name), ("contract", .str m.contract),
    ("functions", .arr (m.functions.toList.map Function.toJson))] (by simp)
  simp only [List.map_cons, List.map_nil] at hfields
  have hfunctions := Json.list?_parsed fun f hf => Function.ofParsed?_toJson (h.functions f hf)
  rw [Module.ofParsed?, Module.toJson]
  simp only [Option.bind_eq_bind, Option.bind_some, hfields, Json.Parsed.required?,
    Json.string?_parsed, Json.natBelow?_parsed h.formatVersion, hfunctions, Array.toArray_toList]
  rfl

/-! ## Bytes -/

theorem Value.fits_toJson (v : Value) : v.toJson.Fits := by
  cases v with
  | unit => exact trivial
  | bool b => exact ⟨trivial, trivial⟩
  | int n => exact Json.fits_tagged (Json.fits_int64 n)
  | str s => exact ⟨trivial, trivial⟩

theorem Location.fits_toJson (l : Location) : l.toJson.Fits := by
  cases l with
  | systemModule name => exact ⟨trivial, trivial⟩
  | _ => exact trivial

theorem Op.fits_toJson {op : Op} (h : op.Fits) : op.toJson.Fits := by
  cases op with
  | const v => exact Json.fits_tagged v.fits_toJson
  | load n | store n | jump n | jumpIfFalse n => exact Json.fits_tagged (Json.fits_nat h)
  | unary op | binary op => exact ⟨trivial, trivial⟩
  | call function argc =>
    exact Json.fits_tagged ⟨Json.fits_nat h.1, Json.fits_nat h.2, trivial⟩
  | callNative location symbol argc =>
    exact Json.fits_tagged ⟨location.fits_toJson, trivial, Json.fits_nat h, trivial⟩
  | callUnit unit function argc =>
    exact Json.fits_tagged ⟨trivial, trivial, Json.fits_nat h, trivial⟩
  | pop | ret => exact trivial

theorem Function.fits_toJson {f : Function} (h : f.Fits) : f.toJson.Fits :=
  ⟨trivial, Json.fits_nat h.arity, Json.fits_nat h.locals,
    Json.fits_arr fun op hop => Op.fits_toJson (h.code op hop), trivial⟩

theorem Module.fits_toJson {m : Module} (h : m.Fits) : m.toJson.Fits := by
  have hversion : m.formatVersion < 1 <<< 64 := Nat.lt_trans h.formatVersion (by decide)
  exact ⟨Json.fits_nat hversion, trivial, trivial,
    Json.fits_arr fun f hf => Function.fits_toJson (h.functions f hf), trivial⟩

/-- A module is read back from its bytes as itself. -/
theorem Module.decode?_encode {m : Module} (h : m.Fits) : Module.decode? m.encode = some m := by
  rw [Module.decode?, Module.encode, Json.parse_compact (Module.fits_toJson h), Option.bind_some,
    Module.ofParsed?_toJson h]

end PluginSandbox
