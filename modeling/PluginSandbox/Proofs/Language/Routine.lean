import PluginSandbox.Proofs.Language.Derived

/-!
# Reading with a counter of levels

The parsers of `Language.Parser` are given the number of levels that are left, and they are functions because that
number and the bounds of their loops get smaller.  Here the same parts of a unit are read by routines that call each
other.  There is one counter of the levels that are taken, which a routine has to give back; loops go on until
they are left; and nothing says in advance that a routine returns.  `perform` runs a routine within some number of
calls and turns of loops inside each other, and gives nothing if that is not enough.

A run also keeps account of itself: of the most levels that were taken and the most calls that had not returned, each
at one time, of whether a loop ever went on to its next turn without having read a token, and of whether a call ever
returned, failing or not, without giving back exactly the levels that were taken in it.
-/

namespace PluginSandbox

/-- What a routine works on.  It counts the levels that are taken and the calls that have not returned, and the most
that there were of either at a time.  It notes whether a turn of a loop was followed by another one although it had read
nothing (`idle`), and whether a call returned when other levels were taken than when it was made (`uneven`). -/
structure RoutineState extends ParserState where
  depth : Nat
  deepest : Nat
  calls : Nat
  mostCalls : Nat
  idle : Bool
  uneven : Bool

/-- The state with one more level taken. -/
def RoutineState.deeper (s : RoutineState) : RoutineState :=
  { s with depth := s.depth + 1, deepest := max s.deepest (s.depth + 1) }

/-- The state with one more call that has not returned. -/
def RoutineState.inCall (s : RoutineState) : RoutineState :=
  { s with calls := s.calls + 1, mostCalls := max s.mostCalls (s.calls + 1) }

/-- What a routine does: what it returns, unless it fails, and the state behind it, unless it has not ended. -/
def Run (α : Type) : Type :=
  RoutineState → Option (Option α × RoutineState)

namespace Run

variable {α β : Type}

instance : Monad Run where
  pure a := fun s => some (some a, s)
  bind t f := fun s =>
    match t s with
    | some (some a, s) => f a s
    | some (none, s) => some (none, s)
    | none => none

/-- The run that has not ended. -/
def stuck : Run α :=
  fun _ => none

/-- What a parser does that calls no routine. -/
def lift (p : Parser α) : Run α :=
  fun s => some ((p s.toParserState).1, { s with toParserState := (p s.toParserState).2 })

/-- The run that does the same and does not fail, but says whether the other one did. -/
def attempt (t : Run α) : Run (Option α) :=
  fun s => (t s).map fun (a, s) => (some a, s)

/-- A run behind which a statement is skipped if it fails, and which says what it read if it does not. -/
def orRecover (t : Run α) : Run (Option α) := do
  match ← attempt t with
  | some a => return some a
  | none =>
    lift Parser.recover
    return none

/-- Takes a level, or fails. -/
def enter : Run Unit :=
  fun s => if s.depth < maxNesting then some (some (), s.deeper) else lift Parser.failTooDeep s

/-- A run behind which every level that it took is given back. -/
def guarded (t : Run α) : Run α :=
  fun s => (t s).map fun (a, s') => (a, { s' with depth := s.depth })

/-- A run one level deeper. -/
def nested (t : Run α) : Run α :=
  guarded do
    enter
    t

/-- A run as a call. -/
def called (t : Run α) : Run α :=
  fun s => (t s.inCall).map fun (a, s') =>
    (a, { s' with calls := s'.calls - 1, uneven := s'.uneven || s'.depth != s.depth })

/-- A run that is the next turn of a loop, given the number of tokens that the last turn began with. -/
def again (before : Nat) (t : Run α) : Run α :=
  fun s => t { s with idle := s.idle || decide (before ≤ s.tokens.length) }

/-- A block, which must begin here. -/
def requiredBlock (body : Run (List Stmt)) : Run (List Stmt) := do
  if ← lift (Parser.check .openBrace) then body
  else lift (Parser.failExpected TokenKind.openBrace.text)

end Run

/-- The routines that read the parts of a unit, and their loops.  A loop is given what was read before, in reverse.  A
statement is read by `stmt`, which takes a level for it, and `statement`, which has taken one.  What is read by a
routine with `more` in its name has at least one more part. -/
inductive Routine : Type → Type
  | unit : Routine ParsedUnit
  | units (read : ParsedUnit) : Routine ParsedUnit
  | importDecl : Routine Import
  | path : Routine (List String)
  | moreSegments (read : List String) : Routine (List String)
  | plugin : Routine (Option PluginDecl)
  | functions (read : List FunctionDecl) : Routine (List FunctionDecl)
  | function : Routine (Option FunctionDecl)
  | moreParams (read : List (String × Position)) : Routine (List (String × Position))
  | block : Routine (List Stmt)
  | statements (read : List Stmt) : Routine (List Stmt)
  | stmt : Routine Stmt
  | statement : Routine Stmt
  | branch : Routine Stmt
  | expr : Routine Expr
  | tier (tier : Nat) : Routine Expr
  | operators (tier : Nat) (left : Expr) : Routine Expr
  | unary : Routine Expr
  | primary : Routine Expr
  | args : Routine (List Expr)
  | moreArgs (read : List Expr) : Routine (List Expr)

namespace Routine

open Run

/-- Whether going on with a routine is another turn of a loop and no call. -/
def isLoop {α : Type} : Routine α → Bool
  | units _ | moreSegments _ | functions _ | moreParams _ | statements _ | operators _ _ | moreArgs _ => true
  | _ => false

/-- What a routine does, given how it goes on with others. -/
def body (go : ∀ {β : Type}, Routine β → Run β) : {α : Type} → Routine α → Run α
  | _, .unit => go (.units ⟨[], none⟩)
  | _, .units read => do
    let before ← lift Parser.remaining
    let t ← lift Parser.peek
    match t.kind with
    | .endOfInput => return read
    | .importWord =>
      match ← orRecover (go .importDecl) with
      | some i => again before (go (.units { read with imports := read.imports ++ [i] }))
      | none => again before (go (.units read))
    | .pluginWord =>
      let p ← go .plugin
      if read.plugin.isSome then
        lift (Parser.report .secondPlugin t.position)
        again before (go (.units read))
      else again before (go (.units { read with plugin := p }))
    | _ =>
      lift (Parser.reportExpected "`import` or `plugin`")
      let _ ← lift Parser.advance
      lift (Parser.skipTo fun kind => kind == .importWord || kind == .pluginWord)
      again before (go (.units read))
  | _, .importDecl => do
    let start ← lift (Parser.expect .importWord)
    let segments ← go .path
    if segments.length < 2 then
      lift (Parser.report .incompleteImport start.position)
      lift Parser.fail
    let _ ← lift (Parser.expect .semicolon)
    return { segments, position := start.position }
  | _, .path => do
    let first ← lift (Parser.expect .identifier)
    go (.moreSegments [first.text])
  | _, .moreSegments read => do
    let before ← lift Parser.remaining
    if ← lift (Parser.eat .dot) then
      let t ← lift (Parser.expect .identifier)
      again before (go (.moreSegments (t.text :: read)))
    else return read.reverse
  | _, .plugin => do
    let _ ← lift Parser.advance
    let header ← attempt do
      let name ← lift (Parser.expect .identifier)
      let _ ← lift (Parser.expect .colon)
      let position := (← lift Parser.peek).position
      let supertype ← go .path
      return (name, position, supertype)
    if header.isNone then lift (Parser.skipTo fun kind => kind == .openBrace)
    match ← attempt (lift (Parser.expect .openBrace)) with
    | none => return none
    | some _ =>
      let functions ← go (.functions [])
      let _ ← attempt (lift (Parser.expect .closeBrace))
      return header.map fun (name, supertypePosition, supertype) =>
        { name := name.text, position := name.position, supertype, supertypePosition, functions }
  | _, .functions read => do
    let before ← lift Parser.remaining
    match (← lift Parser.peek).kind with
    | .closeBrace => return read.reverse
    | .endOfInput => return read.reverse
    | .fnWord =>
      match ← go .function with
      | some f => again before (go (.functions (f :: read)))
      | none => again before (go (.functions read))
    | _ =>
      lift (Parser.reportExpected TokenKind.fnWord.text)
      let _ ← lift Parser.advance
      lift (Parser.skipTo fun kind => kind == .fnWord || kind == .closeBrace)
      again before (go (.functions read))
  | _, .function => do
    let _ ← lift Parser.advance
    let header ← attempt do
      let name ← lift (Parser.expect .identifier)
      let _ ← lift (Parser.expect .openParen)
      let params ← if ← lift (Parser.check .closeParen) then pure [] else go (.moreParams [])
      let _ ← lift (Parser.expect .closeParen)
      return (name, params)
    if header.isNone then
      lift (Parser.skipTo fun kind => kind == .openBrace || kind == .fnWord || kind == .closeBrace)
    let body ←
      if ← lift (Parser.check .openBrace) then go .block
      else do
        if header.isSome then lift (Parser.reportExpected TokenKind.openBrace.text)
        pure []
    return header.map fun (name, params) =>
      { name := name.text, position := name.position, params, body }
  | _, .moreParams read => do
    let before ← lift Parser.remaining
    let t ← lift (Parser.expect .identifier)
    let read := (t.text, t.position) :: read
    if ← lift (Parser.eat .comma) then again before (go (.moreParams read)) else return read.reverse
  | _, .block => do
    match ← attempt (lift (Parser.expect .openBrace)) with
    | none => return []
    | some _ =>
      let body ← go (.statements [])
      let _ ← attempt (lift (Parser.expect .closeBrace))
      return body
  | _, .statements read => do
    let before ← lift Parser.remaining
    match (← lift Parser.peek).kind with
    | .closeBrace => return read.reverse
    | .endOfInput => return read.reverse
    | _ =>
      match ← orRecover (go .stmt) with
      | some s => again before (go (.statements (s :: read)))
      | none => again before (go (.statements read))
  | _, .stmt => nested (go .statement)
  | _, .statement => do
    let t ← lift Parser.peek
    match t.kind with
    | .letWord =>
      let _ ← lift Parser.advance
      let name ← lift (Parser.expect .identifier)
      let _ ← lift (Parser.expect .assign)
      let value ← go .expr
      let _ ← lift (Parser.expect .semicolon)
      return .declare name.text value t.position
    | .ifWord => go .branch
    | .whileWord =>
      let _ ← lift Parser.advance
      let condition ← go .expr
      let body ← requiredBlock (go .block)
      return .loop condition body
    | .returnWord =>
      let _ ← lift Parser.advance
      let value ← if ← lift (Parser.check .semicolon) then pure none else some <$> go .expr
      let _ ← lift (Parser.expect .semicolon)
      return .ret value t.position
    | kind =>
      if kind == .identifier && (← lift Parser.peekSecond) == .assign then
        let _ ← lift Parser.advance
        let _ ← lift Parser.advance
        let value ← go .expr
        let _ ← lift (Parser.expect .semicolon)
        return .assign t.text value t.position
      else
        let value ← go .expr
        let _ ← lift (Parser.expect .semicolon)
        return .expr value
  | _, .branch => do
    let _ ← lift Parser.advance
    let c ← go .expr
    let thenBody ← requiredBlock (go .block)
    if ← lift (Parser.eat .elseWord) then
      if ← lift (Parser.check .ifWord) then
        let s ← nested (go .branch)
        return .branch c thenBody (some [s])
      else if ← lift (Parser.check .openBrace) then
        let elseBody ← go .block
        return .branch c thenBody (some elseBody)
      else lift (Parser.failExpected "`\x7b` or `if`")
    else return .branch c thenBody none
  | _, .expr => nested (go (.tier Grammar.loosest))
  | _, .tier 0 => go .unary
  | _, .tier (k + 1) =>
    guarded do
      let first ← go (.tier k)
      go (.operators k first)
  | _, .operators k left => do
    match Parser.operatorsOf (k + 1) (← lift Parser.peek).kind with
    | none => return left
    | some join =>
      let before ← lift Parser.remaining
      enter
      let t ← lift Parser.advance
      let right ← go (.tier k)
      again before (go (.operators k (join left right t.position)))
  | _, .unary => do
    match Parser.unaryOperator? (← lift Parser.peek).kind with
    | none => go .primary
    | some apply =>
      let t ← lift Parser.advance
      let operand ← nested (go .unary)
      return apply operand t.position
  | _, .primary => do
    let t ← lift Parser.peek
    match t.kind with
    | .integer value =>
      let _ ← lift Parser.advance
      return .int value t.position
    | .stringLiteral =>
      let _ ← lift Parser.advance
      return .str t.text t.position
    | .trueWord =>
      let _ ← lift Parser.advance
      return .bool true t.position
    | .falseWord =>
      let _ ← lift Parser.advance
      return .bool false t.position
    | .openParen =>
      let _ ← lift Parser.advance
      let inner ← go .expr
      let _ ← lift (Parser.expect .closeParen)
      return inner
    | .identifier =>
      let _ ← lift Parser.advance
      if ← lift (Parser.check .openParen) then
        return .call t.text (← go .args) t.position
      else if ← lift (Parser.eat .dot) then
        let method ← lift (Parser.expect .identifier)
        return .memberCall t.text method.text (← go .args) t.position
      else return .var t.text t.position
    | _ => lift (Parser.failExpected "expression")
  | _, .args => do
    let _ ← lift (Parser.expect .openParen)
    let es ← if ← lift (Parser.check .closeParen) then pure [] else go (.moreArgs [])
    let _ ← lift (Parser.expect .closeParen)
    return es
  | _, .moreArgs read => do
    let before ← lift Parser.remaining
    let e ← go .expr
    if ← lift (Parser.eat .comma) then again before (go (.moreArgs (e :: read))) else return (e :: read).reverse

/-- What a routine does within some number of calls and turns of loops inside each other. -/
def perform : Nat → {α : Type} → Routine α → Run α
  | 0, _, _ => stuck
  | bound + 1, _, r => if r.isLoop then r.body (perform bound) else called (r.body (perform bound))

end Routine

/-- The state in which a source text is read. -/
def RoutineState.start (source : String) : RoutineState where
  tokens := (Lexed.ofSource source).tokens
  endToken := (Lexed.ofSource source).endToken
  errors := []
  depth := 0
  deepest := 0
  calls := 0
  mostCalls := 0
  idle := false
  uneven := false

end PluginSandbox
