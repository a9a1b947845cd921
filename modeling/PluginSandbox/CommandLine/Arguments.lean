/-!
# Commands

What the command line can be told to do, and how a list of arguments says it.  The first argument names the
command; options follow it in any order, with their values behind them or behind an equals sign.  An option
occurs at most once, but for the one that names further units.  Two dashes end the options, and nothing may
follow them.
-/

namespace PluginSandbox

/-- Which units a command is about, and how it reports on them: the name and the file of the first unit, the other ones,
each as a name, an equals sign and a file, and the configuration file, if it is not the default one. -/
structure UnitArguments where
  name : String
  source : String
  others : List String
  configuration : Option String
  json : Bool
  deriving DecidableEq, Inhabited

/-- The commands: compiling units and executing the first one, compiling them only, and showing what plugins can see. -/
inductive Command where
  | run (units : UnitArguments) (deadlineMillis : Option Nat)
  | check (units : UnitArguments)
  | policy (configuration : Option String)
  deriving DecidableEq, Inhabited

namespace Command

/-- The parts of a text around its first equals sign, if it has one. -/
def splitEquals? (text : String) : Option (String × String) :=
  let chars := text.toList
  if '=' ∈ chars then
    some (String.ofList (chars.takeWhile (· ≠ '=')),
      String.ofList ((chars.dropWhile (· ≠ '=')).drop 1))
  else none

/-- A text may stand as the value of an option on its own. -/
def isValue (text : String) : Bool :=
  match text.toList with
  | '-' :: _ :: _ => false
  | _ => true

/-- The options among some arguments with their values, in order.  A flag has an empty value. -/
def options? (flags valued : List String) : List String → Option (List (String × String))
  | [] => some []
  | ["--"] => some []
  | arg :: rest =>
    if arg ∈ flags then (options? flags valued rest).map ((arg, "") :: ·)
    else if arg ∈ valued then
      match rest with
      | value :: rest =>
        if isValue value then (options? flags valued rest).map ((arg, value) :: ·) else none
      | [] => none
    else
      match splitEquals? arg with
      | some (name, value) =>
        if name ∈ valued then (options? flags valued rest).map ((name, value) :: ·) else none
      | none => none

/-- The values of an option, in order. -/
def valuesOf (options : List (String × String)) (name : String) : List String :=
  (options.filter fun o => o.1 = name).map Prod.snd

/-- The value of an option that occurs at most once: none if it is absent, nothing at all if it occurs
more often. -/
def single? (options : List (String × String)) (name : String) : Option (Option String) :=
  match valuesOf options name with
  | [] => some none
  | [value] => some (some value)
  | _ => none

/-- The file that an option names, which has some name. -/
def file? (options : List (String × String)) (name : String) : Option (Option String) := do
  let value ← single? options name
  if value = some "" then none else some value

/-- The count that a text in decimal digits stands for, if it fits in 64 bits.  A plus sign may stand in
front of it. -/
def count? (text : String) : Option Nat :=
  let digits := match text.toList with
    | '+' :: rest => rest
    | chars => chars
  if !digits.isEmpty ∧ digits.all Char.isDigit then
    let n := digits.foldl (fun n c => 10 * n + (c.toNat - '0'.toNat)) 0
    if n < 1 <<< 64 then some n else none
  else none

/-- The units that some options describe. -/
def unitArguments? (options : List (String × String)) : Option UnitArguments := do
  let name ← (← single? options "--name")
  let source ← (← file? options "--source")
  let configuration ← file? options "--config"
  let json ← single? options "--json"
  return { name, source, others := valuesOf options "--unit", configuration, json := json.isSome }

/-- The options with values that describe units. -/
def unitOptions : List String :=
  ["--name", "--source", "--unit", "--config"]

/-- The command that some arguments describe. -/
def ofArguments? : List String → Option Command
  | "run" :: args => do
    let options ← options? ["--json"] ("--deadline-ms" :: unitOptions) args
    let units ← unitArguments? options
    match ← single? options "--deadline-ms" with
    | none => return .run units none
    | some text => return .run units (some (← count? text))
  | "check" :: args => do
    return .check (← unitArguments? (← options? ["--json"] unitOptions args))
  | "policy" :: args => do
    return .policy (← file? (← options? [] ["--config"] args) "--config")
  | _ => none

end Command
end PluginSandbox
