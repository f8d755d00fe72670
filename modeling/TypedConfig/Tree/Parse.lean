import TypedConfig.Tree.Basic
import TypedConfig.Tree.Stream

/-!
# Reading the tree

Each construct has a parser that takes its tokens and gives its node.

**Bounds.** Types, values and statements hold types, values and statements.  Their parsers are
given a bound on the depth, and the parsers without a bound give the number of tokens that are
left, which is more than the depth of anything that can be made of them.

**Spans.** A node begins at the first of its tokens and ends at the last one taken.  The comma that
may follow a field is not a part of it.

**A brace decides.** A name is the beginning of a scope if a brace follows at once, else of a call.
-/

namespace TypedConfig.Parser

/-! ## Types -/

/-- A type that is no shape. -/
def notObject (type : Parser TypeExpr) : Parser TypeExpr := do
  let t ← type
  if t.isObject then throw ⟨.objectOutsideTypedef, t.span⟩
  return t

/-- A field of a shape, given how to read its type, and a comma if one follows. -/
def fieldDecl (type : Parser TypeExpr) : Parser FieldDecl := do
  let start ← here
  let name ← name
  expect (.symbol .colon)
  let t ← type
  let span ← spanFrom start
  let _ ← accept (.symbol .comma)
  return ⟨name, t, span⟩

/-- The name of a type and whether it is an array, which is written `[]T` or `[T]`. -/
def arrayAndName : Parser (Bool × String) := do
  if ← accept (.symbol .openBracket) then
    if ← accept (.symbol .closeBracket) then
      return (true, ← name)
    else
      let name ← name
      expect (.symbol .closeBracket)
      return (true, name)
  else return (false, ← name)

/-- A type, the fields of a shape included, to the given depth. -/
def typeWithin : Nat → Parser TypeExpr
  | 0 => fail .unexpectedEnd
  | depth + 1 => do
    let start ← here
    let (isArray, name) ← arrayAndName
    if name = objectName then
      let fields ← braced (fieldDecl (notObject (typeWithin depth)))
      let span ← spanFrom start
      if (← peek) = .symbol .question then fail .optionalObject
      return ⟨name, isArray, false, fields, span⟩
    else
      let isOptional ← accept (.symbol .question)
      return ⟨name, isArray, isOptional, [], ← spanFrom start⟩

/-- A type. -/
def anyType : Parser TypeExpr := do typeWithin ((← get).rest.length + 1)

/-- The type of a type definition: a shape or any other type, but no array of shapes. -/
def typedefType : Parser TypeExpr := do
  let t ← anyType
  if t.isObject && t.isArray then throw ⟨.objectOutsideTypedef, t.span⟩
  return t

/-! ## Values -/

/-- The members that follow a path, each after a dot; there are at most `n`. -/
def members (start : Span) (path : Expr) : Nat → Parser Expr
  | 0 => return path
  | n + 1 => do
    if ← accept (.symbol .dot) then
      let name ← name
      members start (.member path name (← spanFrom start)) n
    else return path

/-- A name and the members that follow it. -/
def path : Parser Expr := do
  let start ← here
  let name ← name
  members start (.name name start) (← get).rest.length

/-- A field of a new object, given how to read its value, and a comma if one follows. -/
def fieldInit (value : Parser Expr) : Parser FieldInit := do
  let start ← here
  let name ← name
  expect (.symbol .equals)
  let v ← value
  let span ← spanFrom start
  let _ ← accept (.symbol .comma)
  return ⟨name, v, span⟩

/-- A value to the given depth.  A new object is allowed where something says what its type is: as
the value of a binding and of a field of a new object. -/
def valueWithin (allowsObject : Bool) : Nat → Parser Expr
  | 0 => fail .unexpectedEnd
  | depth + 1 => do
    let start ← here
    let value ← match ← peek with
      | .literal l => do
        advance
        pure (.literal l start)
      | .keyword .newWord =>
        if allowsObject then do
          advance
          let fields ← braced (fieldInit (valueWithin true depth))
          pure (.object fields (← spanFrom start))
        else fail .untypedObject
      | .name _ => path
      | _ => unexpected "value"
    if (← peek) = .symbol .openParen then fail .callAsValue
    return value

/-- A value. -/
def value (allowsObject : Bool) : Parser Expr := do
  valueWithin allowsObject ((← get).rest.length + 1)

/-! ## Statements -/

/-- The arguments of a call, with their parentheses. -/
def arguments : Parser (List Expr) := do
  expect (.symbol .openParen)
  if ← accept (.symbol .closeParen) then return []
  else
    let args ← commaSeparated (value false)
    expect (.symbol .closeParen)
    return args

/-- A call: a path and its arguments. -/
def call : Parser Stmt := do
  let start ← here
  let callee ← path
  if (← peek) ≠ .symbol .openParen then
    fail (.unexpectedToken "'(' or '\x7b'" (← peek).text)
  let args ← arguments
  let span ← spanFrom callee.span
  return .effect (.call callee args span) (← spanFrom start)

/-- A type definition. -/
def typedef : Parser Stmt := do
  let start ← here
  expect (.keyword .typeWord)
  let name ← name
  expect (.symbol .colon)
  let type ← typedefType
  return .typedef name type (← spanFrom start)

/-- A binding. -/
def binding : Parser Stmt := do
  let start ← here
  expect (.keyword .letWord)
  let name ← name
  expect (.symbol .colon)
  let type ← notObject anyType
  let value ← if ← accept (.symbol .equals) then some <$> value true else pure none
  return .binding name type value (← spanFrom start)

/-- Whether a name and an opening brace come next. -/
def beginsScope (s : TokenStream) : Bool :=
  match s.rest with
  | ⟨.name _, _⟩ :: ⟨.symbol .openBrace, _⟩ :: _ => true
  | _ => false

/-- A statement to the given depth. -/
def statementWithin : Nat → Parser Stmt
  | 0 => fail .unexpectedEnd
  | depth + 1 => do
    match ← peek with
    | .keyword .typeWord => typedef
    | .keyword .letWord => binding
    | .name _ =>
      if beginsScope (← get) then
        let start ← here
        let name ← name
        let bodyStart ← here
        let body ← braced (statementWithin depth)
        return .scope name body (← spanFrom bodyStart) (← spanFrom start)
      else call
    | _ => unexpected "statement"

/-- The statements of a program; there are at most `n`. -/
def statements : Nat → Parser (List Stmt)
  | 0 => return []
  | n + 1 => do
    match ← peek with
    | .endOfInput => return []
    | _ =>
      let s ← statementWithin ((← get).rest.length + 1)
      let ss ← statements n
      return s :: ss

/-- A whole program.  Its span ends with the end of the input. -/
def program : Parser Block := do
  let start ← here
  let ss ← statements (← get).rest.length
  return ⟨ss, start.merge (← here)⟩

end TypedConfig.Parser

namespace TypedConfig

/-- The program that a list of tokens spells, or the first fault in it. -/
def parseTokens (ts : List Token) : Except ParseError Block :=
  match Parser.program (TokenStream.ofTokens ts) with
  | .ok block _ => .ok block
  | .error e _ => .error e

end TypedConfig
