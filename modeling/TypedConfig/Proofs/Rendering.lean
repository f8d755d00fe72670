import TypedConfig.Proofs.Lists
import TypedConfig.Token.Scan

/-!
# Lexemes and texts

What the lexemes of a text look like, said without a scanner: how each is written, what it says,
and what may stand between two of them.

**Nothing ill-formed.** A lexeme carries the reasons why it is well-formed: the characters of a
string do not end it, an integer has at most sixty-four bits, a float has a digit behind its point.
A separator is a list of blanks and closed comments.

**Payloads are computed from the lexeme**, not from its characters: the digits of a number are
digits, its underscores are already known for what they are, and an escape is one of six.

**Places are counted.** A lexeme begins behind as many bytes as the text before it has, on the line
after its line feeds and in the column after the characters of that line.
-/

namespace TypedConfig

/-! ## Separators -/

/-- Whether two characters side by side open or close a block comment. -/
def IsCommentMark (c d : Char) : Prop := (c = '/' ∧ d = '*') ∨ (c = '*' ∧ d = '/')

/-- The text of a block comment behind its opening, up to and with the closing: characters that are
not part of a mark and further comments, whole. -/
inductive ClosesComment : List Char → Prop where
  | close : ClosesComment ['*', '/']
  | char {c d : Char} {cs : List Char} :
      ¬ IsCommentMark c d → ClosesComment (d :: cs) → ClosesComment (c :: d :: cs)
  | comment {inner cs : List Char} :
      ClosesComment inner → ClosesComment cs → ClosesComment ('/' :: '*' :: (inner ++ cs))

/-- A blank or a comment. -/
inductive Filler where
  | blank (c : Char) (h : c = ' ' ∨ c = '\t' ∨ c = '\r' ∨ c = '\n')
  | line (body : List Char) (h : '\n' ∉ body)
  | block (tail : List Char) (h : ClosesComment tail)

/-- How a filler is written. -/
def Filler.chars : Filler → List Char
  | .blank c _ => [c]
  | .line body _ => '/' :: '/' :: (body ++ ['\n'])
  | .block tail _ => '/' :: '*' :: tail

/-- Fillers one after the other. -/
abbrev Separator := List Filler

/-- How a separator is written. -/
def Separator.chars (s : Separator) : List Char := s.flatMap Filler.chars

/-! ## Words and strings -/

/-- A name, a keyword or a truth value. -/
structure Word where
  first : Char
  more : List Char
  first_begins : Text.isLetter first ∨ first = '_'
  more_continues : ∀ c ∈ more, Text.isLetterOrNumber c ∨ c = '_'

/-- How a word is written. -/
def Word.chars (w : Word) : List Char := w.first :: w.more

/-- What a word says. -/
def Word.payload (w : Word) : TokenKind :=
  match String.ofList w.chars with
  | "type" => .keyword .typeWord
  | "let" => .keyword .letWord
  | "new" => .keyword .newWord
  | "true" => .literal (.boolean true)
  | "false" => .literal (.boolean false)
  | name => .name name

/-- The quotes between which strings stand. -/
inductive Quote where
  | double
  | single

/-- The character of a quote. -/
def Quote.char : Quote → Char
  | .double => '"'
  | .single => '\''

/-- What may stand behind a backslash. -/
inductive Escape where
  | lineFeed
  | tab
  | carriageReturn
  | backslash
  | doubleQuote
  | singleQuote

/-- The letter that stands behind the backslash. -/
def Escape.letter : Escape → Char
  | .lineFeed => 'n'
  | .tab => 't'
  | .carriageReturn => 'r'
  | .backslash => '\\'
  | .doubleQuote => '"'
  | .singleQuote => '\''

/-- The character that an escape stands for. -/
def Escape.value : Escape → Char
  | .lineFeed => '\n'
  | .tab => '\t'
  | .carriageReturn => '\r'
  | .backslash => '\\'
  | .doubleQuote => '"'
  | .singleQuote => '\''

/-- The escape of a quote. -/
def Quote.escape : Quote → Escape
  | .double => .doubleQuote
  | .single => .singleQuote

/-- One character of a string between the given quotes, as it is or by an escape. -/
inductive StringPart (q : Quote) where
  | raw (c : Char) (h : c ≠ q.char ∧ c ≠ '\\' ∧ c ≠ '\n')
  | escape (e : Escape)

namespace StringPart

variable {q : Quote}

/-- How a part is written. -/
def chars : StringPart q → List Char
  | raw c _ => [c]
  | escape e => ['\\', e.letter]

/-- The character that a part stands for. -/
def value : StringPart q → Char
  | raw c _ => c
  | escape e => e.value

/-- A part that stands for the given character, with an escape only where there must be one. -/
def ofChar (q : Quote) (c : Char) : StringPart q :=
  if h : c ≠ q.char ∧ c ≠ '\\' ∧ c ≠ '\n' then raw c h
  else if c = '\\' then escape .backslash
  else if c = '\n' then escape .lineFeed
  else escape q.escape

lemma value_ofChar (q : Quote) (c : Char) : (ofChar q c).value = c := by
  unfold ofChar
  split
  · rfl
  · next h =>
      split
      · next hc => exact hc.symm
      · next hslash =>
          split
          · next hc => exact hc.symm
          · next hfeed =>
              have hquote : c = q.char := by simpa [hslash, hfeed] using h
              rw [hquote]
              cases q <;> rfl

end StringPart

/-! ## Numbers -/

/-- Digits and, behind the first of them, underscores, which are `none`. -/
structure Numeral where
  first : Fin 10
  more : List (Option (Fin 10))

namespace Numeral

/-- How a digit is written. -/
def digitChar (d : Fin 10) : Char := Nat.digitChar d

/-- How a digit or an underscore is written. -/
def markChar : Option (Fin 10) → Char
  | some d => digitChar d
  | none => '_'

/-- How a numeral is written. -/
def chars (n : Numeral) : List Char := digitChar n.first :: n.more.map markChar

/-- The digits of a numeral, without the underscores. -/
def digits (n : Numeral) : List (Fin 10) := n.first :: n.more.filterMap id

end Numeral

/-- The number with the given decimal digits. -/
def decimalValue (digits : List (Fin 10)) : Nat := digits.foldl (fun n d => 10 * n + d.val) 0

/-- How a sign is written. -/
def signChars (negative : Bool) : List Char := if negative then ['-'] else []

/-- The number with the given sign and magnitude. -/
def signedValue (negative : Bool) (magnitude : Nat) : Int :=
  if negative then -magnitude else magnitude

/-! ## Lexemes -/

/-- What stands between separators. -/
inductive Lexeme where
  | symbol (s : Symbol)
  | word (w : Word)
  | string (q : Quote) (body : List (StringPart q))
  | integer (negative : Bool) (n : Numeral)
      (fits : Int64.minValue.toInt ≤ signedValue negative (decimalValue n.digits) ∧
        signedValue negative (decimalValue n.digits) ≤ Int64.maxValue.toInt)
  | float (negative : Bool) (whole places : Numeral)

namespace Lexeme

/-- How a lexeme is written. -/
def chars : Lexeme → List Char
  | symbol s => [s.char]
  | word w => w.chars
  | string q body => q.char :: (body.flatMap StringPart.chars ++ [q.char])
  | integer negative n _ => signChars negative ++ n.chars
  | float negative whole places => signChars negative ++ whole.chars ++ '.' :: places.chars

/-- What a lexeme says. -/
def payload : Lexeme → TokenKind
  | symbol s => .symbol s
  | word w => w.payload
  | string _ body => .literal (.string (String.ofList (body.map StringPart.value)))
  | integer negative n _ =>
    .literal (.integer (Int64.ofInt (signedValue negative (decimalValue n.digits))))
  | float negative whole places =>
    .literal (.float (.ofCode negative (Binary64.nearestDecimal
      (decimalValue (whole.digits ++ places.digits)) (-places.digits.length))))

end Lexeme

/-! ## Texts -/

/-- The part of a text that `cs` takes up behind `before`. -/
def spanBehind (before cs : List Char) : Span where
  start := (String.ofList before).utf8ByteSize
  stop := (String.ofList (before ++ cs)).utf8ByteSize
  line := before.count '\n' + 1
  column := (before.reverse.takeWhile (· ≠ '\n')).length + 1

/-- Lexemes, each with the separator behind it, and the separator before them all.  Two lexemes
never touch. -/
structure Rendering where
  lead : Separator
  items : List (Lexeme × Separator)
  apart : ∀ item ∈ items.dropLast, item.2 ≠ []

namespace Rendering

/-- How lexemes with their separators are written. -/
def itemChars (items : List (Lexeme × Separator)) : List Char :=
  items.flatMap fun item => item.1.chars ++ item.2.chars

/-- The text of a rendering. -/
def text (r : Rendering) : String := String.ofList (r.lead.chars ++ itemChars r.items)

/-- The tokens of lexemes that stand behind `before`, with the one for the end of the input. -/
def tokensBehind (before : List Char) : List (Lexeme × Separator) → List Token
  | [] => [⟨.endOfInput, spanBehind before []⟩]
  | (l, s) :: items =>
    ⟨l.payload, spanBehind before l.chars⟩ :: tokensBehind (before ++ l.chars ++ s.chars) items

/-- The tokens that a rendering stands for. -/
def tokens (r : Rendering) : List Token := tokensBehind r.lead.chars r.items

end Rendering

end TypedConfig
