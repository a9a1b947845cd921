import PluginSandbox.Language.Parser.Statement

/-!
# Parsing units

A unit is a sequence of imports and of one plugin, which holds functions.  What stands between them is
an error and is skipped up to the next import, plugin or function.

`ParsedUnit.ofSource` reads a source text.  It always gives a unit, with all lexical and syntax errors
in the order of their places.
-/

namespace PluginSandbox
namespace Parser

/-- The segments of a path behind its first one, behind those that were read before, which are in
reverse.  The bound limits their number. -/
def moreSegments : Nat → List String → Parser (List String)
  | 0, read => return read.reverse
  | bound + 1, read => do
    if ← eat .dot then
      let t ← expect .identifier
      moreSegments bound (t.text :: read)
    else return read.reverse

/-- A path of identifiers with full stops between them. -/
def path : Parser (List String) := do
  let first ← expect .identifier
  moreSegments ((← remaining) + 1) [first.text]

/-- An import. -/
def importDecl : Parser Import := do
  let start ← expect .importWord
  let segments ← path
  if segments.length < 2 then
    report .incompleteImport start.position
    fail
  let _ ← expect .semicolon
  return { segments, position := start.position }

/-- The parameters of a function that has at least one more, behind those that were read before, which
are in reverse.  The bound limits their number. -/
def moreParams : Nat → List (String × Position) → Parser (List (String × Position))
  | 0, read => return read.reverse
  | bound + 1, read => do
    let t ← expect .identifier
    let read := (t.text, t.position) :: read
    if ← eat .comma then moreParams bound read else return read.reverse

/-- The name and the parameters of a function. -/
def functionHeader : Parser (Token × List (String × Position)) := do
  let name ← expect .identifier
  let _ ← expect .openParen
  let params ← if ← check .closeParen then pure [] else moreParams ((← remaining) + 1) []
  let _ ← expect .closeParen
  return (name, params)

/-- A function.  It never fails; without a header there is no function, but its body is read. -/
def function : Parser (Option FunctionDecl) := do
  let _ ← advance
  let header ← attempt functionHeader
  if header.isNone then
    skipTo fun kind => kind == .openBrace || kind == .fnWord || kind == .closeBrace
  let body ←
    if ← check .openBrace then block (stmt maxNesting)
    else do
      if header.isSome then reportExpected TokenKind.openBrace.text
      pure []
  return header.map fun (name, params) =>
    { name := name.text, position := name.position, params, body }

/-- The functions of a plugin up to and without its closing brace, behind those that were read before,
which are in reverse.  The bound limits the number of attempts. -/
def functions : Nat → List FunctionDecl → Parser (List FunctionDecl)
  | 0, read => return read.reverse
  | bound + 1, read => do
    match (← peek).kind with
    | .closeBrace => return read.reverse
    | .endOfInput => return read.reverse
    | .fnWord =>
      match ← function with
      | some f => functions bound (f :: read)
      | none => functions bound read
    | _ =>
      reportExpected TokenKind.fnWord.text
      let _ ← advance
      skipTo fun kind => kind == .fnWord || kind == .closeBrace
      functions bound read

/-- The name and the type of a plugin, with the place of the type. -/
def pluginHeader : Parser (Token × Position × List String) := do
  let name ← expect .identifier
  let _ ← expect .colon
  let position := (← peek).position
  let supertype ← path
  return (name, position, supertype)

/-- A plugin.  It never fails; without a header or an opening brace there is no plugin, but its
functions are read. -/
def plugin : Parser (Option PluginDecl) := do
  let _ ← advance
  let header ← attempt pluginHeader
  if header.isNone then skipTo fun kind => kind == .openBrace
  match ← attempt (expect .openBrace) with
  | none => return none
  | some _ =>
    let functions ← functions ((← remaining) + 1) []
    let _ ← attempt (expect .closeBrace)
    return header.map fun (name, supertypePosition, supertype) =>
      { name := name.text, position := name.position, supertype, supertypePosition, functions }

/-- The imports and the plugin of a unit, behind what was read of it before.  The bound limits the
number of attempts. -/
def unit : Nat → ParsedUnit → Parser ParsedUnit
  | 0, read => return read
  | bound + 1, read => do
    let t ← peek
    match t.kind with
    | .endOfInput => return read
    | .importWord =>
      match ← orRecover importDecl with
      | some i => unit bound { read with imports := read.imports ++ [i] }
      | none => unit bound read
    | .pluginWord =>
      let p ← plugin
      if read.plugin.isSome then
        report .secondPlugin t.position
        unit bound read
      else unit bound { read with plugin := p }
    | _ =>
      reportExpected "`import` or `plugin`"
      let _ ← advance
      skipTo fun kind => kind == .importWord || kind == .pluginWord
      unit bound read

end Parser

/-- What a source text says, and what is wrong with it in the order of places.  Errors at one place keep
their order, the lexical ones first. -/
def ParsedUnit.ofSource (source : String) : ParsedUnit × List SyntaxError :=
  let lexed := Lexed.ofSource source
  let start : ParserState := { tokens := lexed.tokens, endToken := lexed.endToken, errors := [] }
  let (parsed, state) := Parser.unit (lexed.tokens.length + 1) ⟨[], none⟩ start
  let errors := lexed.errors ++ state.errors.reverse
  (parsed.getD ⟨[], none⟩, errors.mergeSort fun e f => e.position.le f.position)

end PluginSandbox
