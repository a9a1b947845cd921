import PluginSandbox.Bytecode.Basic
import PluginSandbox.Json.Review.Hold

/-!
# The written form of modules

A module is written as a compact JSON document in UTF-8, with its members in a fixed order, so equal
modules have equal bytes and equal digests.  `Module.encode` writes and `Module.decode?` reads; where it
reads nothing, `Module.complaint` says why.

Reading accepts more than writing produces: members in any order and unknown ones, blanks, records as
arrays and bare variants as objects.  The fields of numbers must fit their widths: a format version
has 32 bits, every other count 64.
-/

namespace PluginSandbox

namespace Op

/-- The written form of an operation. -/
def toJson : Op → Json
  | .const value => .tagged "Const" value.toJson
  | .load slot => .tagged "Load" (.nat slot)
  | .store slot => .tagged "Store" (.nat slot)
  | .unary op => .tagged "Unary" (.str op.name)
  | .binary op => .tagged "Binary" (.str op.name)
  | .jump target => .tagged "Jump" (.nat target)
  | .jumpIfFalse target => .tagged "JumpIfFalse" (.nat target)
  | .call function argc =>
    .tagged "Call" (.obj [("function", .nat function), ("argc", .nat argc)])
  | .callNative location symbol argc =>
    .tagged "CallNative"
      (.obj [("location", location.toJson), ("symbol", .str symbol), ("argc", .nat argc)])
  | .callUnit unit function argc =>
    .tagged "CallUnit"
      (.obj [("unit", .str unit), ("function", .str function), ("argc", .nat argc)])
  | .pop => .str "Pop"
  | .ret => .str "Return"

/-- The form of an operation in a text. -/
def shape : Json.Shape :=
  .variant [("Const", some Value.shape), ("Load", some .count), ("Store", some .count),
    ("Unary", some (.choice (UnaryOp.all.map UnaryOp.name))),
    ("Binary", some (.choice (BinaryOp.all.map BinaryOp.name))),
    ("Jump", some .count), ("JumpIfFalse", some .count),
    ("Call", some (.record "struct variant Op::Call" false
      [("function", .count), ("argc", .count)])),
    ("CallNative", some (.record "struct variant Op::CallNative" false
      [("location", Location.shape), ("symbol", .text), ("argc", .count)])),
    ("CallUnit", some (.record "struct variant Op::CallUnit" false
      [("unit", .text), ("function", .text), ("argc", .count)])),
    ("Pop", none), ("Return", none)]

/-- The operation that a part of a text stands for. -/
def ofParsed? (p : Json.Parsed) : Option Op := do
  match ← p.variant? with
  | ("Const", some payload) => (Value.ofParsed? payload).map .const
  | ("Load", some payload) => payload.count?.map .load
  | ("Store", some payload) => payload.count?.map .store
  | ("Unary", some payload) => (payload.bareVariant?.bind UnaryOp.ofName?).map .unary
  | ("Binary", some payload) => (payload.bareVariant?.bind BinaryOp.ofName?).map .binary
  | ("Jump", some payload) => payload.count?.map .jump
  | ("JumpIfFalse", some payload) => payload.count?.map .jumpIfFalse
  | ("Call", some payload) =>
    match ← payload.fields? ["function", "argc"] with
    | [function, argc] =>
      let function ← Json.Parsed.required? Json.Parsed.count? function
      let argc ← Json.Parsed.required? Json.Parsed.count? argc
      return .call function argc
    | _ => none
  | ("CallNative", some payload) =>
    match ← payload.fields? ["location", "symbol", "argc"] with
    | [location, symbol, argc] =>
      let location ← Json.Parsed.required? Location.ofParsed? location
      let symbol ← Json.Parsed.required? Json.Parsed.string? symbol
      let argc ← Json.Parsed.required? Json.Parsed.count? argc
      return .callNative location symbol argc
    | _ => none
  | ("CallUnit", some payload) =>
    match ← payload.fields? ["unit", "function", "argc"] with
    | [unit, function, argc] =>
      let unit ← Json.Parsed.required? Json.Parsed.string? unit
      let function ← Json.Parsed.required? Json.Parsed.string? function
      let argc ← Json.Parsed.required? Json.Parsed.count? argc
      return .callUnit unit function argc
    | _ => none
  | ("Pop", none) => some .pop
  | ("Pop", some .null) => some .pop
  | ("Return", none) => some .ret
  | ("Return", some .null) => some .ret
  | _ => none

end Op

namespace Function

/-- The written form of a function. -/
def toJson (f : Function) : Json :=
  .obj [("name", .str f.name), ("arity", .nat f.arity), ("locals", .nat f.locals),
    ("code", .arr (f.code.toList.map Op.toJson))]

/-- The form of a function in a text. -/
def shape : Json.Shape :=
  .record "struct Function" false
    [("name", .text), ("arity", .count), ("locals", .count), ("code", .list Op.shape)]

/-- The function that a part of a text stands for. -/
def ofParsed? (p : Json.Parsed) : Option Function := do
  match ← p.fields? ["name", "arity", "locals", "code"] with
  | [name, arity, locals, code] =>
    let name ← Json.Parsed.required? Json.Parsed.string? name
    let arity ← Json.Parsed.required? Json.Parsed.count? arity
    let locals ← Json.Parsed.required? Json.Parsed.count? locals
    let code ← Json.Parsed.required? (Json.Parsed.list? Op.ofParsed?) code
    return { name, arity, locals, code := code.toArray }
  | _ => none

end Function

namespace Module

/-- The written form of a module. -/
def toJson (m : Module) : Json :=
  .obj [("format_version", .nat m.formatVersion), ("name", .str m.name),
    ("contract", .str m.contract), ("functions", .arr (m.functions.toList.map Function.toJson))]

/-- The form of a module in a text. -/
def shape : Json.Shape :=
  .record "struct Module" false
    [("format_version", .int "u32" 0 ((1 <<< 32) - 1)), ("name", .text), ("contract", .text),
      ("functions", .list Function.shape)]

/-- The module that a part of a text stands for. -/
def ofParsed? (p : Json.Parsed) : Option Module := do
  match ← p.fields? ["format_version", "name", "contract", "functions"] with
  | [formatVersion, name, contract, functions] =>
    let formatVersion ← Json.Parsed.required? (Json.Parsed.natBelow? (1 <<< 32)) formatVersion
    let name ← Json.Parsed.required? Json.Parsed.string? name
    let contract ← Json.Parsed.required? Json.Parsed.string? contract
    let functions ← Json.Parsed.required? (Json.Parsed.list? Function.ofParsed?) functions
    return { formatVersion, name, contract, functions := functions.toArray }
  | _ => none

/-- The bytes that a module is written as. -/
def encode (m : Module) : ByteArray :=
  m.toJson.compact.toUTF8

/-- The module that some bytes stand for. -/
def decode? (bytes : ByteArray) : Option Module :=
  (Json.parse bytes.toList).bind ofParsed?

/-- What is wrong with bytes that stand for no module. -/
def complaint (bytes : ByteArray) : Json.Complaint :=
  shape.complaint bytes.toList

end Module
end PluginSandbox
