import TypedConfig.Token.Basic

/-!
# Reading tokens one by one

A `TokenStream` is what is left of a list of tokens.  A `Parser` takes tokens from it and either
gives a result or ends with a fault; in both cases the stream stays where the parser stopped, so
that a caller can see how far it came and go on from there.

**The end of the input** is not a token of the stream: the stream holds the tokens before the first
end and knows where that end is.  Nothing behind it is ever looked at, and a list without an end
ends where its last token does.
-/

namespace TypedConfig

/-- What can be wrong with the order of tokens. -/
inductive ParseFault where
  | unexpectedToken (expected found : String)
  | unexpectedEnd
  | objectOutsideTypedef
  | optionalObject
  /-- A new object where nothing says what its type is. -/
  | untypedObject
  | callAsValue
  | other (message : String)
deriving DecidableEq, Repr

/-- The words for a fault. -/
def ParseFault.text : ParseFault → String
  | .unexpectedToken expected found =>
    "Unexpected token '" ++ found ++ "', expected " ++ expected
  | .unexpectedEnd => "Unexpected end of file"
  | .objectOutsideTypedef => "'object' can only be used as the type of a typedef"
  | .optionalObject => "'object' types cannot be optional"
  | .untypedObject => "An initializer needs a declared type; use it in a 'let' or a field"
  | .callAsValue => "Calls have no result and cannot be used as values"
  | .other message => message

/-- A fault in the order of tokens. -/
abbrev ParseError := Located ParseFault

/-- What is left of a list of tokens: the tokens before the end of the input, where that end is,
and the span of the token that was taken last. -/
structure TokenStream where
  rest : List Token
  stop : Span
  last : Span
deriving DecidableEq, Repr

namespace TokenStream

/-- The stream of a list of tokens. -/
def ofTokens (ts : List Token) : TokenStream :=
  let stop := match ts.find? (·.kind = .endOfInput) with
    | some t => t.span
    | none => (ts.getLast?.map (·.span.atEnd)).getD {}
  ⟨ts.takeWhile (·.kind ≠ .endOfInput), stop, stop⟩

/-- What the next token says. -/
def kind (s : TokenStream) : TokenKind := (s.rest.head?.map (·.kind)).getD .endOfInput

/-- Where the next token stands. -/
def span (s : TokenStream) : Span := (s.rest.head?.map (·.span)).getD s.stop

/-- The stream behind the next token. -/
def tail : TokenStream → TokenStream
  | ⟨[], stop, last⟩ => ⟨[], stop, last⟩
  | ⟨t :: ts, stop, _⟩ => ⟨ts, stop, t.span⟩

end TokenStream

/-- A computation that takes tokens from a stream and may end with a fault. -/
abbrev Parser := EStateM ParseError TokenStream

namespace Parser

variable {α : Type}

/-- What the next token says. -/
def peek : Parser TokenKind := return (← get).kind

/-- Where the next token stands. -/
def here : Parser Span := return (← get).span

/-- Takes the next token. -/
def advance : Parser Unit := modify TokenStream.tail

/-- Ends with a fault at the next token. -/
def fail (fault : ParseFault) : Parser α := do throw ⟨fault, ← here⟩

/-- Ends because something else was expected. -/
def unexpected (expected : String) : Parser α := do
  match ← peek with
  | .endOfInput => fail .unexpectedEnd
  | found => fail (.unexpectedToken expected found.text)

/-- Takes the next token if it is the given one, and says whether it was. -/
def accept (k : TokenKind) : Parser Bool := do
  if (← peek) = k then
    advance
    return true
  else return false

/-- Takes the given token. -/
def expect (k : TokenKind) : Parser Unit := do
  if (← peek) = k then advance else unexpected ("'" ++ k.text ++ "'")

/-- Takes a name. -/
def name : Parser String := do
  match ← peek with
  | .name s =>
    advance
    return s
  | _ => unexpected "identifier"

/-- From the given span to the token that was taken last. -/
def spanFrom (start : Span) : Parser Span := return start.merge (← get).last

/-- Items up to the closing brace, which is taken as well; there are at most `n`. -/
def itemsToBrace (item : Parser α) : Nat → Parser (List α)
  | 0 => fail .unexpectedEnd
  | n + 1 => do
    match ← peek with
    | .symbol .closeBrace =>
      advance
      return []
    | .endOfInput => fail .unexpectedEnd
    | _ =>
      let x ← item
      let xs ← itemsToBrace item n
      return x :: xs

/-- Items between braces.  Every item takes a token, so there are fewer than tokens. -/
def braced (item : Parser α) : Parser (List α) := do
  expect (.symbol .openBrace)
  itemsToBrace item ((← get).rest.length + 1)

/-- Items that each follow a comma; there are at most `n`. -/
def itemsAfterComma (item : Parser α) : Nat → Parser (List α)
  | 0 => return []
  | n + 1 => do
    if ← accept (.symbol .comma) then
      let x ← item
      let xs ← itemsAfterComma item n
      return x :: xs
    else return []

/-- One or more items with commas between them. -/
def commaSeparated (item : Parser α) : Parser (List α) := do
  let x ← item
  let xs ← itemsAfterComma item (← get).rest.length
  return x :: xs

end Parser

end TypedConfig
