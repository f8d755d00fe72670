import TypedConfig.Text.Letter
import TypedConfig.Token.Basic

/-!
# Reading one token

`Reading.of c cs` reads the token that begins with the character `c` when `cs` follows.  It looks at
characters only: where the token stands is added later, from the characters that were taken.

**Every reading takes something.** A reading says what it found, which characters it took and what
is left.  The first character is always taken, also by a reading that ends in a fault, so scanning
goes on behind a fault and comes to an end.

**Strings** begin and end with the same kind of quote and stay on one line.  **Numbers** may begin
with a minus sign that stands directly before a digit, may hold underscores after the first digit,
and have a fraction only where a digit follows the point, so that `1.len` is a member of `1`.
-/

namespace TypedConfig

/-- What can be wrong with the characters of a text. -/
inductive ScanFault where
  | unexpectedChar (c : Char)
  | unterminatedString
  | invalidEscape (c : Char)
  | invalidNumber (digits : String)
deriving DecidableEq, Repr

/-- The words for a fault. -/
def ScanFault.text : ScanFault → String
  | .unexpectedChar c => "Unexpected character '" ++ c.toString ++ "'"
  | .unterminatedString => "Unterminated string"
  | .invalidEscape c => "Invalid escape sequence '\\" ++ c.toString ++ "'"
  | .invalidNumber digits => "Invalid number '" ++ digits ++ "'"

/-- What was read at the beginning of a text. -/
structure Reading (α : Type) where
  outcome : Except ScanFault α
  taken : List Char
  rest : List Char

namespace Reading

variable {α β : Type}

/-- The same reading with more characters taken before it. -/
def after (cs : List Char) (r : Reading α) : Reading α := { r with taken := cs ++ r.taken }

/-- The same reading with another result. -/
def map (f : α → β) (r : Reading α) : Reading β := ⟨f <$> r.outcome, r.taken, r.rest⟩

/-! ## Strings -/

/-- The character that a letter stands for after a backslash. -/
def unescape? : Char → Option Char
  | 'n' => some '\n'
  | 't' => some '\t'
  | 'r' => some '\r'
  | '\\' => some '\\'
  | '"' => some '"'
  | '\'' => some '\''
  | _ => none

/-- The characters of a string up to its closing quote.  A letter that is no escape is left for
the next token, the backslash before it is not. -/
def stringBody (quote : Char) : List Char → Reading (List Char)
  | [] => ⟨.error .unterminatedString, [], []⟩
  | '\n' :: cs => ⟨.error .unterminatedString, [], '\n' :: cs⟩
  | '\\' :: [] => ⟨.error .unterminatedString, ['\\'], []⟩
  | '\\' :: e :: cs =>
    match unescape? e with
    | some d => ((stringBody quote cs).map (d :: ·)).after ['\\', e]
    | none => ⟨.error (.invalidEscape e), ['\\'], e :: cs⟩
  | c :: cs =>
    if c = quote then ⟨.ok [], [c], cs⟩
    else ((stringBody quote cs).map (c :: ·)).after [c]

/-- A string that begins with the given quote. -/
def string (quote : Char) (cs : List Char) : Reading TokenKind :=
  ((stringBody quote cs).map fun body => .literal (.string (String.ofList body))).after [quote]

/-! ## Numbers -/

/-- The characters of which numbers go on. -/
def isDigitOrMark (c : Char) : Bool := c.isDigit || c = '_'

/-- The sign and the digits of the characters of a number, without underscores. -/
def signAndDigits (cs : List Char) : Bool × List Char :=
  (cs.head? = some '-', cs.filter Char.isDigit)

/-- The integer that the characters spell, when it has at most sixty-four bits. -/
def integer? (cs : List Char) : Option Int64 :=
  let (negative, digits) := signAndDigits cs
  let magnitude := Nat.ofDigitChars 10 digits 0
  let value : Int := if negative then -magnitude else magnitude
  if Int64.minValue.toInt ≤ value ∧ value ≤ Int64.maxValue.toInt then some (Int64.ofInt value)
  else none

/-- The number nearest to the decimal with the given characters before and after its point. -/
def float (whole fraction : List Char) : Binary64 :=
  let (negative, digits) := signAndDigits whole
  let places := fraction.filter Char.isDigit
  let exponent : Int := -places.length
  .ofCode negative (Binary64.nearestDecimal (Nat.ofDigitChars 10 (digits ++ places) 0) exponent)

/-- A number that begins with a digit or a minus sign. -/
def number (first : Char) (cs : List Char) : Reading TokenKind :=
  let whole := first :: cs.takeWhile isDigitOrMark
  let rest := cs.dropWhile isDigitOrMark
  let asInteger : Reading TokenKind :=
    { outcome := match integer? whole with
        | some n => .ok (.literal (.integer n))
        | none => .error (.invalidNumber (String.ofList (whole.filter (· ≠ '_'))))
      taken := whole
      rest := rest }
  match rest with
  | '.' :: d :: ds =>
    if d.isDigit then
      let fraction := (d :: ds).takeWhile isDigitOrMark
      { outcome := .ok (.literal (.float (float whole fraction)))
        taken := whole ++ '.' :: fraction
        rest := (d :: ds).dropWhile isDigitOrMark }
    else asInteger
  | _ => asInteger

/-! ## Words and the rest -/

/-- The characters with which a word begins. -/
def beginsWord (c : Char) : Bool := Text.isLetter c || c = '_'

/-- The characters of which a word goes on. -/
def continuesWord (c : Char) : Bool := Text.isLetterOrNumber c || c = '_'

/-- A word that begins with the given character. -/
def word (first : Char) (cs : List Char) : Reading TokenKind :=
  let chars := first :: cs.takeWhile continuesWord
  ⟨.ok (.ofWord (String.ofList chars)), chars, cs.dropWhile continuesWord⟩

/-- Whether a number begins here. -/
def beginsNumber (c : Char) (cs : List Char) : Bool :=
  c.isDigit || (c = '-' && (cs.head?.map Char.isDigit).getD false)

/-- The token that begins with `c` when `cs` follows. -/
def of (c : Char) (cs : List Char) : Reading TokenKind :=
  match Symbol.ofChar? c with
  | some s => ⟨.ok (.symbol s), [c], cs⟩
  | none =>
    if c = '"' || c = '\'' then string c cs
    else if beginsNumber c cs then number c cs
    else if beginsWord c then word c cs
    else ⟨.error (.unexpectedChar c), [c], cs⟩

/-! ## A reading splits the text -/

/-- What is read of a string and what is left of the text make up the text. -/
theorem stringBody_split (quote : Char) (cs : List Char) :
    (stringBody quote cs).taken ++ (stringBody quote cs).rest = cs := by
  fun_induction stringBody quote cs <;> simp_all [after, map]

/-- So do a number and what is left. -/
theorem number_split (first : Char) (cs : List Char) :
    (number first cs).taken ++ (number first cs).rest = first :: cs := by
  have h := List.takeWhile_append_dropWhile (p := isDigitOrMark) (l := cs)
  unfold number
  dsimp only
  split
  · next d ds hrest =>
    split
    · simp only [List.cons_append, List.append_assoc, List.takeWhile_append_dropWhile]
      rw [← hrest, h]
    · simp [h]
  · simp [h]

/-- A reading keeps the text. -/
theorem of_split (c : Char) (cs : List Char) : (of c cs).taken ++ (of c cs).rest = c :: cs := by
  unfold of
  split
  · rfl
  · split
    · simpa [string, after, map] using stringBody_split c cs
    · split
      · exact number_split c cs
      · split
        · simp [word]
        · rfl

/-- A reading takes at least the first character. -/
theorem length_rest_of (c : Char) (cs : List Char) : (of c cs).rest.length ≤ cs.length := by
  have hsplit := congrArg List.length (of_split c cs)
  have htaken : 0 < (of c cs).taken.length := by
    unfold of
    split
    · simp
    · split
      · simp [string, after, map]
      · split
        · unfold number
          dsimp only
          split
          · split <;> simp
          · simp
        · split <;> simp [word]
  simp only [List.length_append, List.length_cons] at hsplit
  omega

end Reading

end TypedConfig
