import TypedConfig.Tree.Parse

/-!
# A cursor over a vector of tokens

Reading the tree once more, as a program does that keeps all tokens and moves a cursor over them.

**No bounds.** No loop of the program counts its turns: what reads fields, statements and arguments
goes on until it finds what ends them.  Here each of them is told how many turns it may take at most,
and `none` is what a walk gives that would have to go on behind the last one, or that looks at a token
which is not there.  Any other answer is the one of the loop itself: what was read, or the fault, and
the cursor.

**The cursor remembers.** It keeps all places at which it has stood, so that what it does in between
can be told from where it stands in the end.

**Calls.** One vector may be read several times, and each call goes on where the last one stopped.
-/

namespace TypedConfig

/-- The tokens that a walk is over: the given ones, with an end of the input behind them unless one
stands there already. -/
def tokenVector (ts : List Token) : List Token :=
  if ts.getLast?.map (·.kind) = some .endOfInput then ts
  else ts ++ [⟨.endOfInput, (ts.getLast?.map (·.span.atEnd)).getD {}⟩]

/-- Where the first end of the input stands. -/
def firstEnd (tokens : List Token) : Nat := tokens.findIdx (·.kind = .endOfInput)

/-- The number of the token that comes next, and the places where the cursor has stood before, the
last one first. -/
structure Cursor where
  index : Nat := 0
  earlier : List Nat := []
deriving DecidableEq, Repr

/-- All places at which the cursor has stood, the last one first. -/
def Cursor.places (c : Cursor) : List Nat := c.index :: c.earlier

/-- A computation that moves a cursor and may end with a fault; `none` if it needs more turns than it
has, or looks where no token is. -/
abbrev Walk := ExceptT ParseError (StateT Cursor Option)

namespace Walk

variable {α : Type}

/-- What a walk that begins at the cursor gives. -/
def startAt (w : Walk α) (c : Cursor) : Option (Except ParseError α × Cursor) := w.run.run c

/-- A walk that has no turn left, or looks where no token is. -/
def lost : Walk α := fun _ => none

variable (tokens : List Token)

/-! ## Tokens -/

/-- The token with the given number. -/
def tokenAt (i : Nat) : Walk Token :=
  match tokens[i]? with
  | some token => pure token
  | none => lost

/-- The next token. -/
def token : Walk Token := do tokenAt tokens (← get).index

/-- What the next token says. -/
def peek : Walk TokenKind := return (← token tokens).kind

/-- Where the next token stands. -/
def here : Walk Span := return (← token tokens).span

/-- The token behind the next one, or the last one of all. -/
def second : Walk Token := do
  let i := (← get).index + 1
  tokenAt tokens (if i < tokens.length then i else tokens.length - 1)

/-- The token before the next one, or the first one of all. -/
def previous : Walk Token := do tokenAt tokens ((← get).index - 1)

/-- Whether the input ends here. -/
def atEnd : Walk Bool := return (← peek tokens) = .endOfInput

/-- Takes the next token, unless it is the end of the input. -/
def advance : Walk Token := do
  if ← atEnd tokens then token tokens
  else
    modify fun c => ⟨c.index + 1, c.places⟩
    previous tokens

/-- Whether the next token is the given one. -/
def check (k : TokenKind) : Walk Bool := do
  if ← atEnd tokens then return false else return (← peek tokens) = k

/-- Takes the next token if it is the given one, and says whether it was. -/
def accept (k : TokenKind) : Walk Bool := do
  if ← check tokens k then
    let _ ← advance tokens
    return true
  else return false

/-- Ends with a fault at the next token. -/
def fail (fault : ParseFault) : Walk α := do throw ⟨fault, ← here tokens⟩

/-- Ends because something else was expected than the next token. -/
def unexpected (expected : String) : Walk α := do
  if ← atEnd tokens then fail tokens .unexpectedEnd
  else fail tokens (.unexpectedToken expected (← peek tokens).text)

/-- Takes the given token. -/
def expect (k : TokenKind) : Walk Unit := do
  if ← check tokens k then
    let _ ← advance tokens
    return ()
  else unexpected tokens ("'" ++ k.text ++ "'")

/-- Takes a name. -/
def name : Walk String := do
  match ← peek tokens with
  | .name s =>
    let _ ← advance tokens
    return s
  | _ => unexpected tokens "identifier"

/-- From the given span to the token before the cursor. -/
def spanFrom (start : Span) : Walk Span := return start.merge (← previous tokens).span

/-! ## Types -/

/-- The name of a type and whether it is an array. -/
def arrayAndName : Walk (Bool × String) := do
  if ← accept tokens (.symbol .openBracket) then
    if ← accept tokens (.symbol .closeBracket) then
      return (true, ← name tokens)
    else
      let name ← name tokens
      expect tokens (.symbol .closeBracket)
      return (true, name)
  else return (false, ← name tokens)

/-- A type that must not be a shape where it stands. -/
def noShape (misplaced : TypeExpr → Bool) (t : TypeExpr) : Walk TypeExpr := do
  if misplaced t then throw ⟨.objectOutsideTypedef, t.span⟩
  return t

/-- A type; the given walk reads the fields of a shape. -/
def typeWith (fieldDecls : Walk (List FieldDecl)) : Walk TypeExpr := do
  let start ← here tokens
  let (isArray, name) ← arrayAndName tokens
  if name = objectName then
    expect tokens (.symbol .openBrace)
    let fields ← fieldDecls
    let span ← spanFrom tokens start
    if ← check tokens (.symbol .question) then fail tokens .optionalObject
    return ⟨name, isArray, false, fields, span⟩
  else
    let isOptional ← accept tokens (.symbol .question)
    return ⟨name, isArray, isOptional, [], ← spanFrom tokens start⟩

/-- The type of a binding or a field, which is no shape. -/
def plainType (anyType : Walk TypeExpr) : Walk TypeExpr := do
  noShape TypeExpr.isObject (← anyType)

/-- A field of a shape, and a comma if one follows. -/
def fieldDecl (anyType : Walk TypeExpr) : Walk FieldDecl := do
  let start ← here tokens
  let name ← name tokens
  expect tokens (.symbol .colon)
  let t ← plainType anyType
  let span ← spanFrom tokens start
  let _ ← accept tokens (.symbol .comma)
  return ⟨name, t, span⟩

/-- The fields of a shape, up to the closing brace. -/
def fieldDecls : Nat → Walk (List FieldDecl)
  | 0 => lost
  | turns + 1 => do
    if ← check tokens (.symbol .closeBrace) then
      expect tokens (.symbol .closeBrace)
      return []
    else
      let field ← fieldDecl tokens (typeWith tokens (fieldDecls turns))
      let rest ← fieldDecls turns
      return field :: rest

/-- A type of any kind. -/
def anyType (turns : Nat) : Walk TypeExpr := typeWith tokens (fieldDecls tokens turns)

/-- The type of a type definition, which is no array of shapes. -/
def typedefType (turns : Nat) : Walk TypeExpr := do
  noShape (fun t => t.isObject && t.isArray) (← anyType tokens turns)

/-! ## Values -/

/-- The members that follow a path. -/
def members (start : Span) (path : Expr) : Nat → Walk Expr
  | 0 => lost
  | turns + 1 => do
    if ← accept tokens (.symbol .dot) then
      let name ← name tokens
      members start (.member path name (← spanFrom tokens start)) turns
    else return path

/-- A name and the members that follow it. -/
def path (turns : Nat) : Walk Expr := do
  let start ← here tokens
  let name ← name tokens
  members tokens start (.name name start) turns

/-- A value, which must not be called. -/
def notCalled (e : Expr) : Walk Expr := do
  if ← check tokens (.symbol .openParen) then fail tokens .callAsValue
  return e

/-- A value; the given walk reads the fields of a new object. -/
def valueWith (turns : Nat) (fieldInits : Walk (List FieldInit)) (allowsObject : Bool) :
    Walk Expr := do
  let start ← here tokens
  match ← peek tokens with
  | .literal l =>
    let _ ← advance tokens
    notCalled tokens (.literal l start)
  | .keyword .newWord =>
    if allowsObject then
      let start ← here tokens
      expect tokens (.keyword .newWord)
      expect tokens (.symbol .openBrace)
      let fields ← fieldInits
      notCalled tokens (.object fields (← spanFrom tokens start))
    else fail tokens .untypedObject
  | .name _ =>
    let e ← path tokens turns
    notCalled tokens e
  | _ => unexpected tokens "value"

/-- A field of a new object, and a comma if one follows. -/
def fieldInit (value : Walk Expr) : Walk FieldInit := do
  let start ← here tokens
  let name ← name tokens
  expect tokens (.symbol .equals)
  let e ← value
  let span ← spanFrom tokens start
  let _ ← accept tokens (.symbol .comma)
  return ⟨name, e, span⟩

/-- The fields of a new object, up to the closing brace. -/
def fieldInits : Nat → Walk (List FieldInit)
  | 0 => lost
  | turns + 1 => do
    if ← check tokens (.symbol .closeBrace) then
      expect tokens (.symbol .closeBrace)
      return []
    else
      let field ← fieldInit tokens (valueWith tokens turns (fieldInits turns) true)
      let rest ← fieldInits turns
      return field :: rest

/-- A value of any kind. -/
def value (turns : Nat) (allowsObject : Bool) : Walk Expr :=
  valueWith tokens turns (fieldInits tokens turns) allowsObject

/-! ## Statements -/

/-- Values that each follow a comma. -/
def moreArguments : Nat → Walk (List Expr)
  | 0 => lost
  | turns + 1 => do
    if ← accept tokens (.symbol .comma) then
      let e ← value tokens turns false
      let es ← moreArguments turns
      return e :: es
    else return []

/-- One or more values with commas between them. -/
def someArguments (turns : Nat) : Walk (List Expr) := do
  let e ← value tokens turns false
  let es ← moreArguments tokens turns
  return e :: es

/-- The arguments of a call, with their parentheses. -/
def arguments (turns : Nat) : Walk (List Expr) := do
  expect tokens (.symbol .openParen)
  if ← check tokens (.symbol .closeParen) then
    expect tokens (.symbol .closeParen)
    return []
  else
    let es ← someArguments tokens turns
    expect tokens (.symbol .closeParen)
    return es

/-- A call: a path and its arguments. -/
def call (turns : Nat) : Walk Stmt := do
  let start ← here tokens
  match ← peek tokens with
  | .name _ =>
    let callee ← path tokens turns
    if !(← check tokens (.symbol .openParen)) then
      fail tokens (.unexpectedToken "'(' or '\x7b'" (← peek tokens).text)
    let args ← arguments tokens turns
    let span ← spanFrom tokens callee.span
    return .effect (.call callee args span) (← spanFrom tokens start)
  | _ => unexpected tokens "statement"

/-- A type definition. -/
def typedef (turns : Nat) : Walk Stmt := do
  let start ← here tokens
  expect tokens (.keyword .typeWord)
  let name ← name tokens
  expect tokens (.symbol .colon)
  let type ← typedefType tokens turns
  return .typedef name type (← spanFrom tokens start)

/-- A binding. -/
def binding (turns : Nat) : Walk Stmt := do
  let start ← here tokens
  expect tokens (.keyword .letWord)
  let name ← name tokens
  expect tokens (.symbol .colon)
  let type ← plainType (anyType tokens turns)
  if ← accept tokens (.symbol .equals) then
    let e ← value tokens turns true
    return .binding name type (some e) (← spanFrom tokens start)
  else return .binding name type none (← spanFrom tokens start)

/-- Whether a name and an opening brace come next; only behind a name the second token is looked
at. -/
def beginsScope : Walk Bool := do
  match ← peek tokens with
  | .name _ => return (← second tokens).kind = .symbol .openBrace
  | _ => return false

/-- A scope or a call; the given walk reads the statements of a scope. -/
def statement (turns : Nat) (scopeStatements : Walk (List Stmt)) : Walk Stmt := do
  if ← beginsScope tokens then
    let start ← here tokens
    let name ← name tokens
    let bodyStart ← here tokens
    expect tokens (.symbol .openBrace)
    let body ← scopeStatements
    let bodySpan ← spanFrom tokens bodyStart
    return .scope name body bodySpan (← spanFrom tokens start)
  else call tokens turns

/-- A statement of any kind. -/
def declaration (turns : Nat) (scopeStatements : Walk (List Stmt)) : Walk Stmt := do
  if ← check tokens (.keyword .typeWord) then typedef tokens turns
  else if ← check tokens (.keyword .letWord) then binding tokens turns
  else statement tokens turns scopeStatements

/-- The statements of a scope, up to the closing brace. -/
def scopeStatements : Nat → Walk (List Stmt)
  | 0 => lost
  | turns + 1 => do
    if ← check tokens (.symbol .closeBrace) then
      expect tokens (.symbol .closeBrace)
      return []
    else if ← atEnd tokens then fail tokens .unexpectedEnd
    else
      let s ← declaration tokens turns (scopeStatements turns)
      let ss ← scopeStatements turns
      return s :: ss

/-- The statements of a program, up to the end of the input. -/
def statements : Nat → Walk (List Stmt)
  | 0 => lost
  | turns + 1 => do
    if ← atEnd tokens then return []
    else if ← check tokens (.symbol .closeBrace) then
      fail tokens (.unexpectedToken "statement" "\x7d")
    else
      let s ← declaration tokens turns (scopeStatements tokens turns)
      let ss ← statements turns
      return s :: ss

/-- A whole program. -/
def program (turns : Nat) : Walk Block := do
  let start ← here tokens
  let ss ← statements tokens turns
  return ⟨ss, start.merge (← here tokens)⟩

/-- What that many calls give, one after the other, and the cursor behind them. -/
def calls (turns : Nat) : Nat → Cursor → Option (List (Except ParseError Block) × Cursor)
  | 0, c => some ([], c)
  | n + 1, c => do
    let (first, c) ← startAt (program tokens turns) c
    let (rest, c) ← calls turns n c
    return (first :: rest, c)

end Walk

end TypedConfig
