import PluginSandbox.Bytecode.Basic
import PluginSandbox.Language.Token

/-!
# Syntax trees

What a source text says: imports and one plugin with its functions.  Every node that a message can
point at keeps the place it stands at.
-/

namespace PluginSandbox

/-- An import of a symbol of a package, which is the last segment of its path, with the place of its first word. -/
structure Import where
  segments : List String
  position : Position
  deriving DecidableEq, Inhabited

namespace Import

/-- The whole path. -/
def qualifiedName (i : Import) : String :=
  joinPath i.segments

/-- The path without its last segment. -/
def package (i : Import) : String :=
  joinPath i.segments.dropLast

/-- The name that the import binds in its unit. -/
def name (i : Import) : String :=
  i.segments.getLast?.getD ""

end Import

/-- An expression.  What is called by a bare name is a function of the unit or of the platform, and a member is a
function of another unit.  The second operand of `and` and `or` is not evaluated if the first one decides. -/
inductive Expr where
  | int (value : Int64) (position : Position)
  | str (text : String) (position : Position)
  | bool (value : Bool) (position : Position)
  | var (name : String) (position : Position)
  | call (name : String) (args : List Expr) (position : Position)
  | memberCall (target method : String) (args : List Expr) (position : Position)
  | neg (operand : Expr) (position : Position)
  | not (operand : Expr) (position : Position)
  | binary (op : BinaryOp) (left right : Expr) (position : Position)
  | and (left right : Expr) (position : Position)
  | or (left right : Expr) (position : Position)
  deriving Inhabited

/-- The place of an expression: that of its operator, else of its first token. -/
def Expr.position : Expr → Position
  | .int _ p | .str _ p | .bool _ p | .var _ p | .call _ _ p | .memberCall _ _ _ p | .neg _ p
  | .not _ p | .binary _ _ _ p | .and _ _ p | .or _ _ p => p

/-- A statement.  The value of an expression that is a statement is dropped. -/
inductive Stmt where
  | declare (name : String) (value : Expr) (position : Position)
  | assign (name : String) (value : Expr) (position : Position)
  | branch (condition : Expr) (thenBody : List Stmt) (elseBody : Option (List Stmt))
  | loop (condition : Expr) (body : List Stmt)
  | ret (value : Option Expr) (position : Position)
  | expr (value : Expr)
  deriving Inhabited

/-- A function of a plugin.  Its position is that of its name. -/
structure FunctionDecl where
  name : String
  position : Position
  params : List (String × Position)
  body : List Stmt
  deriving Inhabited

/-- A plugin, with the path of the type that it implements.  Its position is that of its name. -/
structure PluginDecl where
  name : String
  position : Position
  supertype : List String
  supertypePosition : Position
  functions : List FunctionDecl
  deriving Inhabited

/-- What the source text of a unit says: its imports in order, and its plugin, if it declares one. -/
structure ParsedUnit where
  imports : List Import
  plugin : Option PluginDecl
  deriving Inhabited

/-- The names of the declared functions with the numbers of their parameters. -/
def ParsedUnit.signatures (u : ParsedUnit) : List (String × Nat) :=
  match u.plugin with
  | some plugin => plugin.functions.map fun f => (f.name, f.params.length)
  | none => []

end PluginSandbox
