import TypedConfig.Literal
import TypedConfig.Span

/-!
# Tokens

A source text is read as a sequence of tokens: literals, names, three keywords and eleven symbols,
closed by one token for the end of the input.

**Words.** The words `true` and `false` are literals and `type`, `let` and `new` are keywords; every
other word is a name.  In particular the word `object` is a name, which only the place where it
stands gives its meaning.
-/

namespace TypedConfig

/-- The words with a fixed meaning. -/
inductive Keyword where
  | typeWord
  | letWord
  | newWord
deriving DecidableEq, Repr

/-- The symbols, each of one character. -/
inductive Symbol where
  | openParen
  | closeParen
  | openBrace
  | closeBrace
  | openBracket
  | closeBracket
  | colon
  | question
  | equals
  | comma
  | dot
deriving DecidableEq, Repr

/-- What a token says. -/
inductive TokenKind where
  | literal (l : Literal)
  | name (s : String)
  | keyword (k : Keyword)
  | symbol (s : Symbol)
  | endOfInput
deriving DecidableEq, Repr

/-- A token and the part of the text that it takes up. -/
structure Token where
  kind : TokenKind
  span : Span
deriving DecidableEq, Repr

/-- The spelling of a keyword. -/
def Keyword.text : Keyword → String
  | .typeWord => "type"
  | .letWord => "let"
  | .newWord => "new"

/-- The character of a symbol. -/
def Symbol.char : Symbol → Char
  | .openParen => '('
  | .closeParen => ')'
  | .openBrace => '\x7b'
  | .closeBrace => '\x7d'
  | .openBracket => '['
  | .closeBracket => ']'
  | .colon => ':'
  | .question => '?'
  | .equals => '='
  | .comma => ','
  | .dot => '.'

/-- The symbol with the given character. -/
def Symbol.ofChar? (c : Char) : Option Symbol :=
  [openParen, closeParen, openBrace, closeBrace, openBracket, closeBracket, colon, question, equals,
    comma, dot].find? fun s => s.char = c

/-- Every symbol is found by its character. -/
theorem Symbol.ofChar?_char (s : Symbol) : ofChar? s.char = some s := by
  cases s <;> decide

namespace TokenKind

/-- The keyword or truth value with the given spelling. -/
def ofWord? (word : String) : Option TokenKind :=
  if word = "type" then some (.keyword .typeWord)
  else if word = "let" then some (.keyword .letWord)
  else if word = "new" then some (.keyword .newWord)
  else if word = "true" then some (.literal (.boolean true))
  else if word = "false" then some (.literal (.boolean false))
  else none

/-- What a word says: a keyword, a truth value or a name. -/
def ofWord (word : String) : TokenKind := (ofWord? word).getD (.name word)

/-- The text by which a message mentions a token.  Strings stand between double quotes as they
are, without escapes. -/
def text : TokenKind → String
  | .literal (.string s) => "\"" ++ s ++ "\""
  | .literal (.integer n) => integerText n
  | .literal (.float x) => x.render .plain
  | .literal (.boolean b) => booleanText b
  | .name s => s
  | .keyword k => k.text
  | .symbol s => s.char.toString
  | .endOfInput => "EOF"

end TokenKind

end TypedConfig
