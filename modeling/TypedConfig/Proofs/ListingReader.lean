import Mathlib.Tactic.Common
import TypedConfig.Code.Listing
import TypedConfig.Proofs.JsonNumbers

/-!
# Reading a listing

A line of a listing is read back as the instruction and the line of the text that it was written
for (`ListingReader.line_listingLine`), whatever stands behind it, so the lines of a listing need not
be told apart before they are read.

**Names** go up to the end of their line and are read back unless they are longer than that.
**Strings** end with their closing quote; a character that cannot be shown is read back from its
code point.  **Numbers** are numerals as they are in JSON, the infinite ones apart, and a numeral
for a floating-point number cannot be taken for an integer.

**Instructions** are told apart by what their lines begin with: the beginning of one is never that
of another (`Opcode.eq_of_prefix`).
-/

namespace TypedConfig

namespace ListingReader

/-- Puts a character in front of those that are read. -/
def found (c : Char) (read : Option (List Char × List Char)) : Option (List Char × List Char) :=
  read.map fun r => (c :: r.1, r.2)

/-! ## Strings -/

/-- What a letter behind a backslash stands for. -/
def unescape? : Char → Option Char
  | '0' => some '\x00'
  | 't' => some '\t'
  | 'r' => some '\r'
  | 'n' => some '\n'
  | '"' => some '"'
  | '\\' => some '\\'
  | _ => none

/-- Where in a string a reader is: between characters, behind a backslash, behind the letter that
announces a code point, or among the digits of one, which make a number so far. -/
inductive StringState where
  | between
  | escape
  | announced
  | code (n : Nat)

/-- The characters of a string up to its closing quote. -/
def characters : StringState → JsonReader (List Char)
  | _, [] => none
  | .between, c :: text =>
    if c = '"' then some ([], text)
    else if c = '\\' then characters .escape text
    else found c (characters .between text)
  | .escape, c :: text =>
    if c = 'u' then characters .announced text
    else (unescape? c).bind fun d => found d (characters .between text)
  | .announced, c :: text => if c = '\x7b' then characters (.code 0) text else none
  | .code n, c :: text =>
    if c = '\x7d' then found (Char.ofNat n) (characters .between text)
    else (JsonReader.hexDigit? c).bind fun d => characters (.code (16 * n + d)) text

lemma characters_digit (n : Nat) {d : Nat} (hd : d < 16) (text : List Char) :
    characters (.code n) (d.digitChar :: text) = characters (.code (16 * n + d)) text := by
  have hdigit : ∀ d : Fin 16, d.val.digitChar ≠ '\x7d' ∧
      JsonReader.hexDigit? d.val.digitChar = some d.val := by decide
  obtain ⟨hbrace, hvalue⟩ := hdigit ⟨d, hd⟩
  rw [characters, if_neg hbrace, hvalue, Option.bind_some]

/-- The digits of a code point are read back. -/
lemma characters_hexDigits (n : Nat) (text : List Char) :
    characters (.code 0) (Text.hexDigits n ++ text) = characters (.code n) text := by
  rw [Text.hexDigits]
  -- the last digit is read when those in front of it have made a sixteenth of the number
  induction n using Nat.strong_induction_on generalizing text with
  | _ n ih =>
      by_cases hsmall : n < 16
      · rw [Nat.toDigits_of_lt_base hsmall, List.singleton_append, characters_digit 0 hsmall,
          Nat.mul_zero, Nat.zero_add]
      · rw [Nat.toDigits_of_base_le (by decide) (by omega), List.append_assoc,
          ih (n / 16) (by omega), List.singleton_append, characters_digit _ (by omega),
          Nat.div_add_mod]

/-- What is written for a character is read as this character. -/
lemma characters_quoteChar (c : Char) (text : List Char) :
    characters .between (Text.quoteChar c ++ text) = found c (characters .between text) := by
  rw [Text.quoteChar]
  split_ifs with hnul htab hreturn hnewline hquote hbackslash hprintable
  · rw [hnul]; rfl
  · rw [htab]; rfl
  · rw [hreturn]; rfl
  · rw [hnewline]; rfl
  · rw [hquote]; rfl
  · rw [hbackslash]; rfl
  · rw [List.singleton_append, characters, if_neg hquote, if_neg hbackslash]
  · have hdigits := characters_hexDigits c.toNat ('\x7d' :: text)
    simp [characters, hdigits, Char.ofNat_toNat]

lemma characters_quote (cs text : List Char) :
    characters .between (cs.flatMap Text.quoteChar ++ '"' :: text) = some (cs, text) := by
  induction cs with
  | nil => rfl
  | cons c cs ih =>
      rw [List.flatMap_cons, List.append_assoc, characters_quoteChar, ih]
      rfl

/-! ## Literals -/

/-- What a literal is if it is not a numeral: a string, a truth value or an infinite number. -/
def word : JsonReader Literal
  | '"' :: text => (characters .between text).map fun r => (.string (String.ofList r.1), r.2)
  | 't' :: 'r' :: 'u' :: 'e' :: text => some (.boolean true, text)
  | 'f' :: 'a' :: 'l' :: 's' :: 'e' :: text => some (.boolean false, text)
  | 'i' :: 'n' :: 'f' :: text => some (.float (.ofCode false Binary64.infinityCode), text)
  | '-' :: 'i' :: 'n' :: 'f' :: text => some (.float (.ofCode true Binary64.infinityCode), text)
  | _ => none

/-- A literal. -/
def literal (text : List Char) : Option (Literal × List Char) :=
  match JsonReader.number text with
  | some (.integer n, rest) => some (.integer n, rest)
  | some (.float x, rest) => some (.float x, rest)
  | _ => word text

/-- An infinite number is its sign. -/
lemma eq_infinity {x : Binary64} (hnan : x.isNaN = false) (hfinite : x.isFinite = false) :
    .ofCode x.isNegative Binary64.infinityCode = x := by
  have hcode : x.code = Binary64.infinityCode := by
    rw [Binary64.isNaN, decide_eq_false_iff_not] at hnan
    rw [Binary64.isFinite, decide_eq_false_iff_not] at hfinite
    omega
  rw [← hcode, JsonReader.ofCode_code]

/-- A literal that is a number, if it is a floating-point one, is read back from its text. -/
lemma literal_text {l : Literal} (hl : ∀ x, l = .float x → x.isNaN = false) (rest : List Char) :
    literal (l.text.toList ++ '\n' :: rest) = some (l, '\n' :: rest) := by
  have hends : JsonReader.Ends ('\n' :: rest) := JsonReader.ends_cons (by decide) rest
  cases l with
  | string s =>
      have htext : (Literal.string s).text.toList ++ '\n' :: rest =
          '"' :: (s.toList.flatMap Text.quoteChar ++ '"' :: '\n' :: rest) := by
        simp [Literal.text, Text.quote]
      have hnumber (text : List Char) : JsonReader.number ('"' :: text) = none := rfl
      rw [htext, literal, hnumber]
      dsimp only
      rw [word, characters_quote]
      simp
  | integer n =>
      obtain ⟨c, cs, htext, -, hnumber⟩ := JsonReader.number_integerText n hends
      rw [Literal.text, htext, List.cons_append, literal, hnumber]
  | float x =>
      cases hfinite : x.isFinite with
      | true =>
          obtain ⟨c, cs, htext, -, hnumber⟩ :=
            JsonReader.number_render Binary64.Layout.isNumeral_literal hfinite hends
          rw [Literal.text, htext, List.cons_append, literal, hnumber]
      | false =>
          have hx := eq_infinity (hl x rfl) hfinite
          have htext : (Literal.float x).text =
              String.ofList (if x.isNegative then '-' :: "inf".toList else "inf".toList) := by
            simp [Literal.text, Binary64.render, hl x rfl, hfinite]
          rw [htext]
          cases hsign : x.isNegative with
          | true =>
              rw [hsign] at hx
              have hread : literal ('-' :: 'i' :: 'n' :: 'f' :: '\n' :: rest) =
                  some (.float (.ofCode true Binary64.infinityCode), '\n' :: rest) := rfl
              rw [hx] at hread
              exact hread
          | false =>
              rw [hsign] at hx
              have hread : literal ('i' :: 'n' :: 'f' :: '\n' :: rest) =
                  some (.float (.ofCode false Binary64.infinityCode), '\n' :: rest) := rfl
              rw [hx] at hread
              exact hread
  | boolean b => cases b <;> rfl

/-! ## What instructions carry -/

/-- Whether a text begins with a mark, and what stands behind it if it does. -/
def mark (m : String) (text : List Char) : Bool × List Char :=
  if m.toList.isPrefixOf text then (true, text.drop m.length) else (false, text)

/-- A name, which goes up to the end of the line. -/
def name (text : List Char) : String × List Char :=
  (String.ofList (text.takeWhile (· ≠ '\n')), text.dropWhile (· ≠ '\n'))

/-- A count. -/
def count (text : List Char) : Option (Nat × List Char) :=
  (JsonReader.digits text).map fun r => (Nat.ofDigitChars 10 r.1 0, r.2)

/-- What a type's name refers to, with the marks behind it. -/
def typeRef (text : List Char) : (TypeRef × Bool × Bool) × List Char :=
  let ref := TypeRef.ofName (String.ofList (text.takeWhile Char.isAlpha))
  let (isArray, text) := mark " []" (text.dropWhile Char.isAlpha)
  let (isOptional, text) := mark " ?" text
  ((ref, isArray, isOptional), text)

lemma name_line {s : String} (hs : '\n' ∉ s.toList) (rest : List Char) :
    name (s.toList ++ '\n' :: rest) = (s, '\n' :: rest) := by
  have hrun : ∀ c ∈ s.toList, (decide (c ≠ '\n')) = true := by
    rintro c hc
    rw [decide_eq_true_iff]
    rintro rfl
    exact hs hc
  have hrest : ∀ c ∈ ('\n' :: rest).head?, (decide (c ≠ '\n')) = false := by
    rintro _ ⟨⟩
    decide
  obtain ⟨htake, hdrop⟩ := takeWhile_run hrun hrest
  rw [name, htake, hdrop, String.ofList_toList]

lemma count_repr (n : Nat) {rest : List Char} (hrest : ∀ c ∈ rest.head?, c.isDigit = false) :
    count (n.repr.toList ++ rest) = some (n, rest) := by
  have hrun : ∀ c ∈ Nat.toDigits 10 n, c.isDigit :=
    fun c hc => Nat.isDigit_of_mem_toDigits (by decide) (le_refl 10) hc
  rw [Nat.toList_repr, count, JsonReader.digits_run Nat.toDigits_ne_nil hrun hrest,
    Option.map_some, Nat.ofDigitChars_ten_toDigits]

lemma typeRef_text (ref : TypeRef) (isArray isOptional : Bool) (rest : List Char) :
    typeRef ((ref.builtinName?.getD "user" ++ ((if isArray then " []" else "") ++
      (if isOptional then " ?" else ""))).toList ++ '\n' :: rest) =
        ((ref, isArray, isOptional), '\n' :: rest) := by
  cases ref <;> cases isArray <;> cases isOptional <;> rfl

end ListingReader

/-! ## Instructions -/

/-- What kind of instruction an instruction is. -/
inductive Opcode where
  | pushName
  | pushLiteral
  | loadValue
  | resolveType
  | makeField
  | makeShape
  | bindType
  | store
  | newObject
  | setField
  | sealObject
  | openScope
  | closeScope
  | loadMember
  | call
deriving DecidableEq

namespace Opcode

def all : List Opcode :=
  [pushName, pushLiteral, loadValue, resolveType, makeField, makeShape, bindType, store, newObject,
    setField, sealObject, openScope, closeScope, loadMember, call]

/-- What is listed of an instruction in front of what it carries. -/
def text : Opcode → String
  | pushName => "LOAD_NAME       "
  | pushLiteral => "LOAD_CONST      "
  | loadValue => "LOAD_VALUE"
  | resolveType => "RESOLVE_TYPE    "
  | makeField => "MAKE_FIELD      "
  | makeShape => "MAKE_OBJECT_DEF "
  | bindType => "BIND_TYPE"
  | store => "STORE           "
  | newObject => "NEW_OBJECT"
  | setField => "SET_FIELD"
  | sealObject => "FINALIZE_INIT"
  | openScope => "OPEN_SECTION"
  | closeScope => "CLOSE_SECTION"
  | loadMember => "LOAD_MEMBER"
  | call => "MAKE_CALL       "

open ListingReader in
/-- The instruction of a kind, from what it carries. -/
def operand : Opcode → JsonReader Instr
  | pushName, text => some (.pushName (name text).1, (name text).2)
  | pushLiteral, text => (literal text).map fun r => (.pushLiteral r.1, r.2)
  | loadValue, text => some (.loadValue, text)
  | resolveType, text =>
    let ((ref, isArray, isOptional), text) := typeRef text
    some (.resolveType ref isArray isOptional, text)
  | makeField, text => some (.makeField (name text).1, (name text).2)
  | makeShape, text => (count text).map fun r => (.makeShape r.1, r.2)
  | bindType, text => some (.bindType, text)
  | store, text => some (.store ((name text).1 = "value"), (name text).2)
  | newObject, text => some (.newObject, text)
  | setField, text => some (.setField, text)
  | sealObject, text => some (.sealObject, text)
  | openScope, text => some (.openScope, text)
  | closeScope, text => some (.closeScope, text)
  | loadMember, text => some (.loadMember, text)
  | call, text => (count text).map fun r => (.call r.1, r.2)

lemma mem_all (o : Opcode) : o ∈ all := by cases o <;> decide

/-- No line begins as those of two kinds of instructions do. -/
lemma eq_of_prefix {o p : Opcode} {text : List Char} (ho : o.text.toList <+: text)
    (hp : p.text.toList <+: text) : o = p := by
  have hapart : ∀ o ∈ all, ∀ p ∈ all, o.text.toList <+: p.text.toList → o = p := by decide
  rcases List.prefix_or_prefix_of_prefix ho hp with h | h
  · exact hapart o o.mem_all p p.mem_all h
  · exact (hapart p p.mem_all o o.mem_all h).symm

end Opcode

/-- The kind of an instruction. -/
def Instr.opcode : Instr → Opcode
  | .pushName _ => .pushName
  | .pushLiteral _ => .pushLiteral
  | .loadValue => .loadValue
  | .resolveType _ _ _ => .resolveType
  | .makeField _ => .makeField
  | .makeShape _ => .makeShape
  | .bindType => .bindType
  | .store _ => .store
  | .newObject => .newObject
  | .setField => .setField
  | .sealObject => .sealObject
  | .openScope => .openScope
  | .closeScope => .closeScope
  | .loadMember => .loadMember
  | .call _ => .call

/-- Whether an instruction can be told from its line: a name in it is not longer than a line, and a
number in it is a number. -/
def Instr.Legible : Instr → Prop
  | .pushName name | .makeField name => '\n' ∉ name.toList
  | .pushLiteral l => ∀ x, l = .float x → x.isNaN = false
  | _ => True

namespace ListingReader

/-- An instruction. -/
def instr (text : List Char) : Option (Instr × List Char) := do
  let o ← Opcode.all.find? fun o => o.text.toList.isPrefixOf text
  o.operand (text.drop o.text.length)

lemma instr_of_opcode (o : Opcode) (text : List Char) :
    instr (o.text.toList ++ text) = o.operand text := by
  have hfind : Opcode.all.find? (fun p => p.text.toList.isPrefixOf (o.text.toList ++ text)) =
      some o := by
    cases hp : Opcode.all.find? fun p => p.text.toList.isPrefixOf (o.text.toList ++ text) with
    | none =>
        have hbegins := List.find?_eq_none.mp hp o o.mem_all
        exact absurd (List.isPrefixOf_iff_prefix.mpr (List.prefix_append _ _)) hbegins
    | some p =>
        -- a line that begins like one of another kind would be one of both
        have hbegins : p.text.toList.isPrefixOf (o.text.toList ++ text) = true := by
          simpa using List.find?_some hp
        rw [Opcode.eq_of_prefix (List.isPrefixOf_iff_prefix.mp hbegins) (List.prefix_append _ _)]
  have hdrop : (o.text.toList ++ text).drop o.text.length = text := by
    rw [← String.length_toList, List.drop_left]
  rw [instr, hfind]
  exact congrArg o.operand hdrop

/-- An instruction is read back from its text. -/
lemma instr_text {i : Instr} (hi : i.Legible) (rest : List Char) :
    instr (i.text.toList ++ '\n' :: rest) = some (i, '\n' :: rest) := by
  have hdigit : ∀ c ∈ ('\n' :: rest).head?, c.isDigit = false := by
    rintro _ ⟨⟩
    decide
  have hread (operand : String) (h : i.text = i.opcode.text ++ operand) :
      instr (i.text.toList ++ '\n' :: rest) =
        i.opcode.operand (operand.toList ++ '\n' :: rest) := by
    rw [h, String.toList_append, List.append_assoc, instr_of_opcode]
  cases i with
  | pushName n => rw [hread n rfl, Instr.opcode, Opcode.operand, name_line hi]
  | pushLiteral l =>
      rw [hread l.text rfl, Instr.opcode, Opcode.operand, literal_text hi]
      rfl
  | resolveType ref isArray isOptional =>
      -- by computation: the equations of the listing would compare its texts
      have htext : (Instr.resolveType ref isArray isOptional).text = "RESOLVE_TYPE    " ++
          ref.builtinName?.getD "user" ++ (if isArray then " []" else "") ++
            (if isOptional then " ?" else "") := rfl
      rw [String.append_assoc, String.append_assoc] at htext
      rw [hread _ htext, Instr.opcode, Opcode.operand, typeRef_text]
  | makeField n => rw [hread n rfl, Instr.opcode, Opcode.operand, name_line hi]
  | makeShape n =>
      rw [hread n.repr rfl, Instr.opcode, Opcode.operand, count_repr n hdigit]
      rfl
  | store hasValue => cases hasValue <;> rfl
  | call n =>
      rw [hread n.repr rfl, Instr.opcode, Opcode.operand, count_repr n hdigit]
      rfl
  | loadValue | bindType | newObject | setField | sealObject | openScope | closeScope
  | loadMember => rfl

/-! ## Lines -/

/-- The line of the text that an instruction is from, given that of the instruction before it, which
a bar stands for. -/
def place (previous : Option Nat) : JsonReader Nat
  | [] => none
  | c :: text =>
    if c = '|' then previous.map fun line => (line, text)
    else do
      let (line, text) ← count (c :: text)
      let (_, text) ← count (text.drop 1)
      return (line, text)

/-- A line of a listing: an offset, a place and an instruction, with blanks between them. -/
def line (previous : Option Nat) (text : List Char) : Option ((Instr × Nat) × List Char) := do
  let (n, text) ← place previous ((text.dropWhile (· ≠ ' ')).dropWhile (· = ' '))
  let (i, text) ← instr (text.drop 1)
  return ((i, n), text.drop 1)

lemma place_text (previous : Option Nat) (s : Span) (rest : List Char) :
    ∃ c cs, s.text.toList = c :: cs ∧ c.isDigit ∧
      place previous (c :: (cs ++ ' ' :: rest)) = some (s.line, ' ' :: rest) := by
  have htext : s.text.toList = s.line.repr.toList ++ ':' :: s.column.repr.toList := by
    simp [Span.text, toString]
  have hline : count (s.text.toList ++ ' ' :: rest) =
      some (s.line, ':' :: (s.column.repr.toList ++ ' ' :: rest)) := by
    rw [htext, List.append_assoc, List.cons_append]
    exact count_repr s.line (by rintro _ ⟨⟩; decide)
  have hcolumn : count (s.column.repr.toList ++ ' ' :: rest) = some (s.column, ' ' :: rest) :=
    count_repr s.column (by rintro _ ⟨⟩; decide)
  obtain ⟨c, ds, hc⟩ := List.exists_cons_of_ne_nil (Nat.toDigits_ne_nil (b := 10) (n := s.line))
  have hdigit : c.isDigit :=
    Nat.isDigit_of_mem_toDigits (by decide) (le_refl 10) (hc ▸ List.mem_cons_self)
  have hbar : c ≠ '|' := by
    rintro rfl
    exact absurd hdigit (by decide)
  rw [Nat.toList_repr, hc, List.cons_append] at htext
  rw [htext, List.cons_append] at hline
  refine ⟨c, _, htext, hdigit, ?_⟩
  rw [place, if_neg hbar, hline]
  simp only [Option.bind_eq_bind, Option.bind_some, List.drop_one, List.tail_cons, hcolumn]
  rfl

/-- A place is read back, written out or as a bar, without the blanks in front of it. -/
lemma place_placeText (previous : Option Nat) (s : Span) (rest : List Char) :
    place previous (((placeText previous s).toList ++ ' ' :: rest).dropWhile (· = ' ')) =
      some (s.line, ' ' :: rest) := by
  rw [placeText]
  by_cases hprevious : previous = some s.line
  · rw [if_pos hprevious, hprevious]
    rfl
  · obtain ⟨c, cs, htext, hdigit, hplace⟩ := place_text previous s rest
    have hblank : c ≠ ' ' := by
      rintro rfl
      exact absurd hdigit (by decide)
    have hblanks : ∀ d ∈ List.replicate (6 - s.text.length) ' ', decide (d = ' ') = true :=
      fun d hd => decide_eq_true (List.eq_of_mem_replicate hd)
    rw [if_neg hprevious, padLeft, String.toList_append, String.toList_ofList, List.append_assoc,
      List.dropWhile_append_of_pos hblanks, htext, List.cons_append,
      List.dropWhile_cons_of_neg (by simpa using hblank), hplace]

/-- A line of a listing is read back, whatever stands behind it. -/
lemma line_listingLine (offset : Nat) (previous : Option Nat) {i : Instr} (hi : i.Legible)
    (s : Span) (rest : List Char) :
    line previous ((listingLine offset previous i s).toList ++ rest) =
      some ((i, s.line), rest) := by
  have hoffset : ∀ c ∈ (padLeft 4 '0' offset.repr).toList, decide (c ≠ ' ') = true := by
    intro c hc
    rw [padLeft, String.toList_append, String.toList_ofList, Nat.toList_repr,
      List.mem_append] at hc
    have hdigit : c.isDigit := by
      rcases hc with hc | hc
      · rw [List.eq_of_mem_replicate hc]
        rfl
      · exact Nat.isDigit_of_mem_toDigits (by decide) (le_refl 10) hc
    rw [decide_eq_true_iff]
    rintro rfl
    exact absurd hdigit (by decide)
  have htext : (listingLine offset previous i s).toList ++ rest =
      (padLeft 4 '0' offset.repr).toList ++ ' ' :: ((placeText previous s).toList ++
        ' ' :: (i.text.toList ++ '\n' :: rest)) := by
    simp [listingLine]
  have hplace := place_placeText previous s (i.text.toList ++ '\n' :: rest)
  rw [htext, line, List.dropWhile_append_of_pos hoffset, List.dropWhile_cons_of_neg (by decide),
    List.dropWhile_cons_of_pos (by decide), hplace]
  simp [instr_text hi]

end ListingReader

end TypedConfig
