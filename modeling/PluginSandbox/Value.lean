import PluginSandbox.Json.Basic
import PluginSandbox.Json.Decoder
import PluginSandbox.Json.Shape

/-!
# Values of the plugin language

A plugin computes with the unit value, truth values, signed 64-bit integers and strings.  This module
holds the values, their text (what `print` shows and `to_string` gives) and their written form inside
a compiled module.
-/

namespace PluginSandbox

/-- A value of the plugin language.  A function without a result returns the unit value. -/
inductive Value where
  | unit
  | bool (value : Bool)
  | int (value : Int64)
  | str (text : String)
  deriving DecidableEq, Inhabited

/-- The types of the plugin language. -/
inductive ValueType where
  | unit
  | bool
  | int
  | str
  deriving DecidableEq, Inhabited

/-- The name of a type, as fault texts show it. -/
def ValueType.name : ValueType → String
  | .unit => "unit"
  | .bool => "bool"
  | .int => "int"
  | .str => "string"

namespace Value

/-- The type of a value. -/
def type : Value → ValueType
  | .unit => .unit
  | .bool _ => .bool
  | .int _ => .int
  | .str _ => .str

/-- The text of a value: a string stands for itself. -/
def text : Value → String
  | .unit => "()"
  | .bool true => "true"
  | .bool false => "false"
  | .int value => String.ofList (Json.intChars value.toInt)
  | .str text => text

/-- The written form of a value in a compiled module. -/
def toJson : Value → Json
  | .unit => .str "Unit"
  | .bool value => .tagged "Bool" (.bool value)
  | .int value => .tagged "Int" (.int value.toInt)
  | .str text => .tagged "Str" (.str text)

/-- The form of a value in a compiled module. -/
def shape : Json.Shape :=
  .variant [("Unit", none), ("Bool", some .bool),
    ("Int", some (.int "i64" (-(1 <<< 63)) ((1 <<< 63) - 1))), ("Str", some .text)]

/-- The value that a part of a text stands for. -/
def ofParsed? (p : Json.Parsed) : Option Value := do
  match ← p.variant? with
  | ("Unit", none) => some .unit
  | ("Unit", some .null) => some .unit
  | ("Bool", some payload) => payload.bool?.map .bool
  | ("Int", some payload) => payload.int64?.map .int
  | ("Str", some payload) => payload.string?.map .str
  | _ => none

end Value
end PluginSandbox
