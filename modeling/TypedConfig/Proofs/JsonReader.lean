import TypedConfig.Decimal.Nearest
import TypedConfig.Proofs.Lists
import TypedConfig.Value.Json

/-!
# Reading JSON

What a JSON text stands for is said by a reader for the whole of JSON: with blanks wherever they may
stand, all escapes, numbers in every form, and nothing else.  It gives as much as a text tells: the
members of an object keep their order and are there as often as they are written, and a numeral
without a fraction and an exponent is an integer as long as it fits.

**Readers.** A `JsonReader` reads what a text begins with and gives the text behind it.  The depth
to which values may be nested and the number of items are bounded by the length of the text.

**Strings** are read back from what `Json.quote` writes (`JsonReader.string_quote`), and **lists**
from their items (`JsonReader.listed_flatMap`), whatever the items are.
-/

namespace TypedConfig

/-- Reads what a text begins with and gives the text behind it. -/
abbrev JsonReader (α : Type) := List Char → Option (α × List Char)

namespace JsonReader

/-- Whether a character may stand between the parts of a text without a meaning. -/
def isBlank (c : Char) : Bool := c = ' ' || c = '\t' || c = '\n' || c = '\r'

/-- A text without the blanks at its beginning. -/
def skip (text : List Char) : List Char := text.dropWhile isBlank

/-! ## Strings -/

/-- What a hexadecimal digit stands for. -/
def hexDigit? (c : Char) : Option Nat :=
  if c.isDigit then some (c.toNat - '0'.toNat)
  else if 'a' ≤ c ∧ c ≤ 'f' then some (c.toNat - 'a'.toNat + 10)
  else if 'A' ≤ c ∧ c ≤ 'F' then some (c.toNat - 'A'.toNat + 10)
  else none

/-- Four hexadecimal digits. -/
def codeUnit : JsonReader Nat
  | a :: b :: c :: d :: text => do
    let a ← hexDigit? a
    let b ← hexDigit? b
    let c ← hexDigit? c
    let d ← hexDigit? d
    return (((a * 16 + b) * 16 + c) * 16 + d, text)
  | _ => none

/-- What a letter behind a backslash stands for. -/
def unescape? : Char → Option Char
  | '"' => some '"'
  | '\\' => some '\\'
  | '/' => some '/'
  | 'b' => some '\x08'
  | 'f' => some '\x0c'
  | 'n' => some '\n'
  | 'r' => some '\r'
  | 't' => some '\t'
  | _ => none

/-- The second half of a character that is written as a pair of code units. -/
def lowSurrogate (high : Nat) : JsonReader Char
  | '\\' :: 'u' :: text => do
    let (low, text) ← codeUnit text
    if 0xDC00 ≤ low ∧ low < 0xE000 then
      return (Char.ofNat (0x10000 + (high - 0xD800) * 0x400 + (low - 0xDC00)), text)
    else none
  | _ => none

/-- What stands behind a backslash. -/
def escaped : JsonReader Char
  | [] => none
  | c :: text =>
    if c = 'u' then do
      let (unit, text) ← codeUnit text
      if 0xD800 ≤ unit ∧ unit < 0xDC00 then lowSurrogate unit text
      else if 0xDC00 ≤ unit ∧ unit < 0xE000 then none
      else return (Char.ofNat unit, text)
    else do
      let c ← unescape? c
      return (c, text)

/-- A character of a string. -/
def character : JsonReader Char
  | [] => none
  | c :: text =>
    if c = '\\' then escaped text
    else if c.toNat < 32 then none
    else some (c, text)

/-- The characters of a string up to its closing quote, fewer than the given number. -/
def characters : Nat → JsonReader (List Char)
  | _, [] | 0, _ => none
  | n + 1, c :: text =>
    if c = '"' then some ([], text)
    else do
      let (c, text) ← character (c :: text)
      let (cs, text) ← characters n text
      return (c :: cs, text)

/-- A string behind its opening quote. -/
def string (text : List Char) : Option (String × List Char) := do
  let (cs, text) ← characters text.length text
  return (String.ofList cs, text)

/-! ## Numbers -/

/-- One digit or more. -/
def digits (text : List Char) : Option (List Char × List Char) :=
  if text.takeWhile Char.isDigit = [] then none
  else some (text.takeWhile Char.isDigit, text.dropWhile Char.isDigit)

/-- A numeral without its sign. -/
structure Numeral where
  whole : List Char
  /-- The digits behind the point, none if there is no point. -/
  fraction : List Char
  exponent : Option Int

/-- The digits in front of the point: a zero stands alone. -/
def whole : JsonReader (List Char)
  | [] => none
  | c :: text => if c = '0' then some (['0'], text) else digits (c :: text)

/-- A point with digits behind it, or nothing. -/
def fraction : JsonReader (List Char)
  | [] => some ([], [])
  | c :: text => if c = '.' then digits text else some ([], c :: text)

/-- Digits with or without a sign. -/
def signed : JsonReader Int
  | [] => none
  | c :: text => do
    let (ds, text) ← digits (if c = '+' ∨ c = '-' then text else c :: text)
    let n : Int := Nat.ofDigitChars 10 ds 0
    return (if c = '-' then -n else n, text)

/-- An exponent, or nothing. -/
def exponent : JsonReader (Option Int)
  | [] => some (none, [])
  | c :: text =>
    if c = 'e' ∨ c = 'E' then do
      let (e, text) ← signed text
      return (some e, text)
    else some (none, c :: text)

/-- A numeral without a sign. -/
def numeral (text : List Char) : Option (Numeral × List Char) := do
  let (whole, text) ← whole text
  let (fraction, text) ← fraction text
  let (exponent, text) ← exponent text
  return (⟨whole, fraction, exponent⟩, text)

namespace Numeral

/-- The digits of a numeral, without regard to its point. -/
def digits (x : Numeral) : Nat := Nat.ofDigitChars 10 (x.whole ++ x.fraction) 0

/-- The code of the magnitude that a numeral stands for. -/
def code (x : Numeral) : Nat :=
  Binary64.nearestDecimal x.digits (x.exponent.getD 0 - x.fraction.length)

/-- The number that a numeral stands for, if it is not too large. -/
def json (negative : Bool) (x : Numeral) : Option Json :=
  let n : Int := if negative then -x.digits else x.digits
  if x.fraction = [] ∧ x.exponent = none ∧ Int64.minValue.toInt ≤ n ∧ n ≤ Int64.maxValue.toInt then
    some (.integer (.ofInt n))
  else if x.code < Binary64.infinityCode then some (.float (.ofCode negative x.code))
  else none

end Numeral

/-- A number. -/
def number : JsonReader Json
  | [] => none
  | c :: text => do
    let (x, text) ← numeral (if c = '-' then text else c :: text)
    let j ← x.json (c = '-')
    return (j, text)

/-! ## Values -/

/-- One of the three words. -/
def word : JsonReader Json
  | 'n' :: 'u' :: 'l' :: 'l' :: text => some (.null, text)
  | 't' :: 'r' :: 'u' :: 'e' :: text => some (.boolean true, text)
  | 'f' :: 'a' :: 'l' :: 's' :: 'e' :: text => some (.boolean false, text)
  | _ => none

variable {α : Type}

/-- At most so many items, with commas between them, up to a closing character. -/
def items (item : JsonReader α) (close : Char) : Nat → JsonReader (List α)
  | 0, _ => none
  | n + 1, text => do
    let (x, text) ← item text
    match skip text with
    | [] => none
    | c :: text =>
      if c = close then return ([x], text)
      else if c = ',' then do
        let (xs, text) ← items item close n text
        return (x :: xs, text)
      else none

/-- Items, if there are any, behind the opening character. -/
def listed (item : JsonReader α) (close : Char) (text : List Char) : Option (List α × List Char) :=
  match skip text with
  | [] => none
  | c :: rest => if c = close then some ([], rest) else items item close text.length text

/-- A member of an object: a name, a colon and a value. -/
def member (value : JsonReader Json) (text : List Char) : Option ((String × Json) × List Char) :=
  match skip text with
  | '"' :: text => do
    let (name, text) ← string text
    match skip text with
    | ':' :: text => do
      let (j, text) ← value text
      return ((name, j), text)
    | _ => none
  | _ => none

/-- A value that is nested to less than the given depth. -/
def value : Nat → JsonReader Json
  | 0, _ => none
  | n + 1, text =>
    match skip text with
    | [] => none
    | c :: text =>
      if c = '"' then do
        let (s, text) ← string text
        return (.string s, text)
      else if c = '[' then do
        let (js, text) ← listed (value n) ']' text
        return (.array js, text)
      else if c = '\x7b' then do
        let (members, text) ← listed (member (value n)) '\x7d' text
        return (.object members, text)
      else if c = '-' ∨ c.isDigit then number (c :: text)
      else word (c :: text)

end JsonReader

/-- The JSON tree that a text stands for: a value with nothing but blanks around it. -/
def Json.read? (text : String) : Option Json := do
  let (j, rest) ← JsonReader.value (text.length + 1) text.toList
  if JsonReader.skip rest = [] then return j else none

/-! ## What is written is read -/

namespace JsonReader

lemma skip_append {blanks rest : List Char} (hblanks : ∀ c ∈ blanks, isBlank c) :
    skip (blanks ++ rest) = skip rest :=
  List.dropWhile_append_of_pos hblanks

lemma skip_cons {c : Char} (hc : isBlank c = false) (rest : List Char) :
    skip (c :: rest) = c :: rest :=
  List.dropWhile_cons_of_neg (by rw [hc]; exact Bool.false_ne_true)

lemma isBlank_newline (depth : Nat) : ∀ c ∈ (Json.newline depth).toList, isBlank c := by
  intro c hc
  rw [Json.newline, String.toList_ofList, List.mem_cons] at hc
  rcases hc with rfl | hc
  · rfl
  · rw [List.eq_of_mem_replicate hc]
    rfl

/-! ### Strings -/

/-- The code units of the characters that have no escape of one letter. -/
lemma codeUnit_control {n : Nat} (h : n < 32) (rest : List Char) :
    codeUnit (List.replicate (4 - (Text.hexDigits n).length) '0' ++ (Text.hexDigits n ++ rest)) =
      some (n, rest) := by
  have hdigits : ∀ n : Fin 32,
      List.replicate (4 - (Text.hexDigits n).length) '0' ++ Text.hexDigits n =
        ['0', '0', (n.val / 16).digitChar, (n.val % 16).digitChar] := by decide
  have hdigit : ∀ n : Fin 16, hexDigit? n.val.digitChar = some n.val := by decide
  have hzero : hexDigit? '0' = some 0 := rfl
  have hhigh := hdigit ⟨n / 16, by omega⟩
  have hlow := hdigit ⟨n % 16, by omega⟩
  have hn : n / 16 * 16 + n % 16 = n := by omega
  rw [← List.append_assoc, hdigits ⟨n, h⟩]
  simp [codeUnit, hzero, hhigh, hlow, hn]

/-- What is written for a character is read as this character. -/
lemma character_escapeChar (c : Char) (rest : List Char) :
    character (Json.escapeChar c ++ rest) = some (c, rest) := by
  rw [Json.escapeChar]
  split_ifs with hquote hbackslash hb hf hn hr ht hcontrol
  · rw [hquote]; rfl
  · rw [hbackslash]; rfl
  · rw [hb]; rfl
  · rw [hf]; rfl
  · rw [hn]; rfl
  · rw [hr]; rfl
  · rw [ht]; rfl
  · have hunit := codeUnit_control hcontrol rest
    have hhigh : ¬ (0xD800 ≤ c.toNat ∧ c.toNat < 0xDC00) := by omega
    have hlow : ¬ (0xDC00 ≤ c.toNat ∧ c.toNat < 0xE000) := by omega
    have hchar : Char.ofNat c.toNat = c := Char.ofNat_toNat c
    simp [character, escaped, hunit, hhigh, hlow, hchar]
  · simp [character, hbackslash, hcontrol]

/-- No character is written with a quote in front. -/
lemma escapeChar_cons (c : Char) : ∃ d ds, Json.escapeChar c = d :: ds ∧ d ≠ '"' := by
  rw [Json.escapeChar]
  split_ifs with hquote hbackslash hb hf hn hr ht hcontrol
  all_goals first
    | exact ⟨_, _, rfl, hquote⟩
    | exact ⟨_, _, rfl, by decide⟩

lemma characters_flatMap {n : Nat} {cs : List Char} (hn : cs.length < n) (rest : List Char) :
    characters n (cs.flatMap Json.escapeChar ++ '"' :: rest) = some (cs, rest) := by
  induction cs generalizing n with
  | nil =>
      obtain ⟨n, rfl⟩ := Nat.exists_eq_succ_of_ne_zero (Nat.ne_zero_of_lt hn)
      rfl
  | cons c cs ih =>
      obtain ⟨n, rfl⟩ := Nat.exists_eq_succ_of_ne_zero (Nat.ne_zero_of_lt hn)
      have hcs := ih (Nat.lt_of_succ_lt_succ hn)
      have hc := character_escapeChar c (cs.flatMap Json.escapeChar ++ '"' :: rest)
      obtain ⟨d, ds, hd, hquote⟩ := escapeChar_cons c
      rw [hd, List.cons_append] at hc
      rw [List.flatMap_cons, hd, List.append_assoc, List.cons_append]
      simp [characters, hquote, hc, hcs]

/-- A string is read back from its written form. -/
lemma string_quote (s : String) (rest : List Char) :
    ∃ text, (Json.quote s).toList ++ rest = '"' :: text ∧ string text = some (s, rest) := by
  refine ⟨s.toList.flatMap Json.escapeChar ++ '"' :: rest, ?_, ?_⟩
  · simp [Json.quote]
  · have hchars : s.toList.length < (s.toList.flatMap Json.escapeChar ++ '"' :: rest).length := by
      have hle : s.toList.length ≤ (s.toList.flatMap Json.escapeChar).length := by
        refine length_le_flatMap (fun c => ?_) _
        obtain ⟨d, ds, hd, -⟩ := escapeChar_cons c
        rw [hd]
        exact List.cons_ne_nil d ds
      rw [List.length_append, List.length_cons]
      omega
    rw [string, characters_flatMap hchars]
    simp

/-! ### Lists -/

/-- Items are read back one by one, each with what stands behind it: another one behind a comma, or
the closing character, before which there may be blanks. -/
lemma items_flatMap {α : Type} {item : JsonReader α} {text : α → List Char} {close : Char}
    {behind rest : List Char} (hclose : close ≠ ',') (hbehind : skip behind = close :: rest)
    {x : α} {xs : List α} (hitem : ∀ y ∈ x :: xs, item (text y ++ behind) = some (y, behind) ∧
      ∀ more, item (text y ++ ',' :: more) = some (y, ',' :: more))
    {n : Nat} (hn : xs.length < n) :
    items item close n (text x ++ (xs.flatMap (fun y => ',' :: text y) ++ behind)) =
      some (x :: xs, rest) := by
  induction xs generalizing x n with
  | nil =>
      obtain ⟨n, rfl⟩ := Nat.exists_eq_succ_of_ne_zero (Nat.ne_zero_of_lt hn)
      obtain ⟨hlast, -⟩ := hitem x List.mem_cons_self
      rw [List.flatMap_nil, List.nil_append]
      simp [items, hlast, hbehind]
  | cons y ys ih =>
      obtain ⟨n, rfl⟩ := Nat.exists_eq_succ_of_ne_zero (Nat.ne_zero_of_lt hn)
      have hys := ih (fun z hz => hitem z (List.mem_cons_of_mem x hz)) (Nat.lt_of_succ_lt_succ hn)
      obtain ⟨-, hcomma⟩ := hitem x List.mem_cons_self
      have hskip (more : List Char) : skip (',' :: more) = ',' :: more := skip_cons rfl more
      rw [List.flatMap_cons, List.append_assoc, List.cons_append]
      simp [items, hcomma, hskip, hclose.symm, hys]

/-- A list is read back from its items. -/
lemma listed_flatMap {α : Type} {item : JsonReader α} (text : α → List Char) {close : Char}
    {behind rest : List Char} (hclose : close ≠ ',') (hbehind : skip behind = close :: rest)
    {x : α} {xs : List α} (hitem : ∀ y ∈ x :: xs, item (text y ++ behind) = some (y, behind) ∧
      ∀ more, item (text y ++ ',' :: more) = some (y, ',' :: more))
    (hfirst : ∀ more, ∃ c cs, skip (text x ++ more) = c :: cs ∧ c ≠ close) :
    listed item close (text x ++ (xs.flatMap (fun y => ',' :: text y) ++ behind)) =
      some (x :: xs, rest) := by
  obtain ⟨c, cs, hskip, hc⟩ := hfirst (xs.flatMap (fun y => ',' :: text y) ++ behind)
  have hpos : 0 < behind.length := by
    cases behind with
    | nil => cases hbehind
    | cons d ds => exact Nat.succ_pos _
  have hxs := length_le_flatMap (fun y => List.cons_ne_nil ',' (text y)) xs
  rw [listed, hskip]
  dsimp only
  rw [if_neg hc]
  refine items_flatMap hclose hbehind hitem ?_
  rw [List.length_append, List.length_append]
  omega

end JsonReader

end TypedConfig
