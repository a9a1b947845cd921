/-!
# The forms of data in JSON texts

A shape says what form a JSON text has that stands for data of some kind.  Texts are held against shapes to
tell what is wrong with them; the names that a shape carries are those that a complaint shows.
-/

namespace PluginSandbox
namespace Json

/-- The form of some data, with what an integer or a string of it is called.  Any field of a record may be left out if
all of them have defaults, and a variant may carry something. -/
inductive Shape where
  | bool
  | int (kind : String) (low high : Int)
  | str (kind : String)
  | nullable (inner : Shape)
  | list (item : Shape)
  | map (value : Shape)
  | record (title : String) (defaults : Bool) (fields : List (String × Shape))
  | variant (cases : List (String × Option Shape))
  deriving Inhabited

namespace Shape

/-- A string that stands for itself. -/
def text : Shape :=
  .str "a string"

/-- A natural number that has 64 bits. -/
def count : Shape :=
  .int "usize" 0 ((1 <<< 64) - 1)

/-- One of some variants that carry nothing. -/
def choice (names : List String) : Shape :=
  .variant (names.map fun n => (n, none))

/-- A shape is that of a record. -/
def isRecord : Shape → Bool
  | .record .. => true
  | _ => false

/-- What a record is called that is given as an array. -/
def arrayTitle (title : String) (size : Nat) : String :=
  let unit := if size = 1 then "element" else "elements"
  s!"{title} with {size} {unit}"

end Shape
end Json
end PluginSandbox
