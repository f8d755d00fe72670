import TypedConfig.Proofs.Decimals
import TypedConfig.Proofs.JsonReader

/-!
# Numbers in JSON

A finite number is read back from its text, bit by bit (`JsonReader.number_render`), and so is an
integer (`JsonReader.number_integerText`).

**Texts.** What a number is written as is a numeral (`Numeral.text`): with a point or an exponent
for a floating-point number, which keeps it from being taken for an integer, and with neither for an
integer.  A numeral is read back wherever its digits can end (`JsonReader.Ends`).  This holds of
every layout that keeps a fraction of zero, whether or not it puts a plus in front of an exponent
(`Binary64.Layout.IsNumeral`).

**Values.** The three forms in which digits are laid out, with zeros in front of them, with zeros
behind them and with an exponent, are numerals for the magnitude that the digits spell.
-/

namespace TypedConfig

/-- Whether a layout writes finite numbers as numerals that cannot be taken for integers. -/
structure Binary64.Layout.IsNumeral (layout : Layout) : Prop where
  sign : layout.exponentSign = "" ∨ layout.exponentSign = "+"
  keepsFraction : layout.keepsFraction = true

lemma Binary64.Layout.isNumeral_json : json.IsNumeral := ⟨Or.inr rfl, rfl⟩

lemma Binary64.Layout.isNumeral_literal : literal.IsNumeral := ⟨Or.inl rfl, rfl⟩

namespace JsonReader

variable {rest : List Char} {plus : String}

/-- Whether a numeral can go on with a character. -/
def goesOn (c : Char) : Bool := c.isDigit || c = '.' || c = 'e' || c = 'E'

/-- Whether a numeral can end in front of a text. -/
def Ends (rest : List Char) : Prop := ∀ c ∈ rest.head?, goesOn c = false

lemma ends_nil : Ends [] := nofun

lemma ends_cons {c : Char} (hc : goesOn c = false) (rest : List Char) : Ends (c :: rest) := by
  rintro _ ⟨⟩
  exact hc

lemma Ends.not_digit (hrest : Ends rest) : ∀ c ∈ rest.head?, c.isDigit = false := by
  intro c hc
  have hends := hrest c hc
  simp only [goesOn, Bool.or_eq_false_iff] at hends
  exact hends.1.1.1

lemma Ends.ne_point (hrest : Ends rest) : ∀ c ∈ rest.head?, c ≠ '.' := by
  rintro _ hc rfl
  exact absurd (hrest '.' hc) (by decide)

lemma Ends.not_exponent (hrest : Ends rest) : ∀ c ∈ rest.head?, ¬ (c = 'e' ∨ c = 'E') := by
  rintro c hc (rfl | rfl)
  · exact absurd (hrest 'e' hc) (by decide)
  · exact absurd (hrest 'E' hc) (by decide)

/-! ## Numerals -/

namespace Numeral

/-- A point with digits behind it, if there are any. -/
def fractionText (ds : List Char) : List Char := if ds = [] then [] else '.' :: ds

/-- An exponent with its sign, if there is one. -/
def exponentText (plus : String) : Option Int → List Char
  | none => []
  | some e => 'e' :: ((if 0 ≤ e then plus.toList else ['-']) ++ Nat.toDigits 10 e.natAbs)

/-- The text of a numeral, given what is written in front of an exponent that is not negative. -/
def text (plus : String) (x : Numeral) : List Char :=
  x.whole ++ (fractionText x.fraction ++ exponentText plus x.exponent)

/-- Whether the parts of a numeral are made of digits, with a zero in front only if it stands
alone. -/
structure Valid (x : Numeral) : Prop where
  whole : ∀ c ∈ x.whole, c.isDigit
  head : x.whole = ['0'] ∨ ∃ c cs, x.whole = c :: cs ∧ c ≠ '0'
  fraction : ∀ c ∈ x.fraction, c.isDigit

end Numeral

lemma digits_run {run : List Char} (hne : run ≠ []) (hrun : ∀ c ∈ run, c.isDigit)
    (hrest : ∀ c ∈ rest.head?, c.isDigit = false) : digits (run ++ rest) = some (run, rest) := by
  obtain ⟨htake, hdrop⟩ := takeWhile_run hrun hrest
  rw [digits, htake, hdrop, if_neg hne]

lemma whole_text {x : Numeral} (hx : x.Valid) (hrest : ∀ c ∈ rest.head?, c.isDigit = false) :
    whole (x.whole ++ rest) = some (x.whole, rest) := by
  rcases hx.head with hzero | ⟨c, cs, hcs, hc⟩
  · rw [hzero]
    rfl
  · have hrun := digits_run (hcs ▸ List.cons_ne_nil c cs) hx.whole hrest
    rw [hcs, List.cons_append] at hrun ⊢
    rw [whole, if_neg hc, hrun]

lemma fraction_text {ds : List Char} (hds : ∀ c ∈ ds, c.isDigit)
    (hrest : ∀ c ∈ rest.head?, c.isDigit = false ∧ c ≠ '.') :
    fraction (Numeral.fractionText ds ++ rest) = some (ds, rest) := by
  rw [Numeral.fractionText]
  by_cases hne : ds = []
  · rw [if_pos hne, List.nil_append, hne]
    cases rest with
    | nil => rfl
    | cons c cs => rw [fraction, if_neg (hrest c rfl).2]
  · rw [if_neg hne, List.cons_append, fraction, if_pos rfl]
    exact digits_run hne hds fun c hc => (hrest c hc).1

lemma signed_cons {c : Char} {text ds : List Char}
    (h : digits (if c = '+' ∨ c = '-' then text else c :: text) = some (ds, rest)) :
    signed (c :: text) = some (if c = '-' then -(Nat.ofDigitChars 10 ds 0 : Int)
      else Nat.ofDigitChars 10 ds 0, rest) := by
  rw [signed, h]
  rfl

/-- An exponent is read back whether or not there is a plus in front of it. -/
lemma signed_text (hplus : plus = "" ∨ plus = "+") (e : Int) (hrest : Ends rest) :
    signed ((if 0 ≤ e then plus.toList else ['-']) ++ (Nat.toDigits 10 e.natAbs ++ rest)) =
      some (e, rest) := by
  have hrun : ∀ c ∈ Nat.toDigits 10 e.natAbs, c.isDigit :=
    fun c hc => Nat.isDigit_of_mem_toDigits (by decide) (le_refl 10) hc
  have hdigits : digits (Nat.toDigits 10 e.natAbs ++ rest) =
      some (Nat.toDigits 10 e.natAbs, rest) :=
    digits_run Nat.toDigits_ne_nil hrun hrest.not_digit
  by_cases he : 0 ≤ e
  · have hvalue : (e.natAbs : Int) = e := Int.natAbs_of_nonneg he
    rw [if_pos he]
    rcases hplus with rfl | rfl
    · obtain ⟨c, cs, hcs⟩ := List.exists_cons_of_ne_nil (Nat.toDigits_ne_nil (n := e.natAbs))
      have hc : c.isDigit := hrun c (hcs ▸ List.mem_cons_self)
      have hsign : ¬ (c = '+' ∨ c = '-') := by
        rintro (rfl | rfl) <;> exact absurd hc (by decide)
      have hread : digits (if c = '+' ∨ c = '-' then cs ++ rest else c :: (cs ++ rest)) =
          some (Nat.toDigits 10 e.natAbs, rest) := by
        rw [if_neg hsign, ← List.cons_append, ← hcs, hdigits]
      have htext : "".toList ++ (Nat.toDigits 10 e.natAbs ++ rest) = c :: (cs ++ rest) := by
        rw [hcs]
        rfl
      rw [htext, signed_cons hread, if_neg fun h => hsign (Or.inr h), Nat.ofDigitChars_ten_toDigits,
        hvalue]
    · have hread : digits (if '+' = '+' ∨ '+' = '-' then Nat.toDigits 10 e.natAbs ++ rest
          else '+' :: (Nat.toDigits 10 e.natAbs ++ rest)) =
            some (Nat.toDigits 10 e.natAbs, rest) := by
        rw [if_pos (Or.inl rfl), hdigits]
      have htext : "+".toList ++ (Nat.toDigits 10 e.natAbs ++ rest) =
          '+' :: (Nat.toDigits 10 e.natAbs ++ rest) := rfl
      rw [htext, signed_cons hread, if_neg (by decide), Nat.ofDigitChars_ten_toDigits, hvalue]
  · have hvalue : -(e.natAbs : Int) = e := by omega
    have hread : digits (if '-' = '+' ∨ '-' = '-' then Nat.toDigits 10 e.natAbs ++ rest
        else '-' :: (Nat.toDigits 10 e.natAbs ++ rest)) =
          some (Nat.toDigits 10 e.natAbs, rest) := by
      rw [if_pos (Or.inr rfl), hdigits]
    rw [if_neg he, List.singleton_append, signed_cons hread, if_pos rfl,
      Nat.ofDigitChars_ten_toDigits, hvalue]

lemma exponent_text (hplus : plus = "" ∨ plus = "+") (e : Option Int) (hrest : Ends rest) :
    exponent (Numeral.exponentText plus e ++ rest) = some (e, rest) := by
  cases e with
  | none =>
      rw [Numeral.exponentText, List.nil_append]
      cases rest with
      | nil => rfl
      | cons c cs => rw [exponent, if_neg (hrest.not_exponent c rfl)]
  | some e =>
      rw [Numeral.exponentText, List.cons_append, List.append_assoc, exponent, if_pos (Or.inl rfl),
        signed_text hplus e hrest]
      rfl

/-- A numeral is read back from its text. -/
lemma numeral_text (hplus : plus = "" ∨ plus = "+") {x : Numeral} (hx : x.Valid)
    (hrest : Ends rest) : numeral (x.text plus ++ rest) = some (x, rest) := by
  have hexponent : ∀ c ∈ (Numeral.exponentText plus x.exponent ++ rest).head?,
      c.isDigit = false ∧ c ≠ '.' := by
    cases x.exponent with
    | none => exact fun c hc => ⟨hrest.not_digit c hc, hrest.ne_point c hc⟩
    | some e =>
        rintro _ ⟨⟩
        decide
  have hfraction : ∀ c ∈ (Numeral.fractionText x.fraction ++
      (Numeral.exponentText plus x.exponent ++ rest)).head?, c.isDigit = false := by
    rw [Numeral.fractionText]
    split
    · exact fun c hc => (hexponent c hc).1
    · rintro _ ⟨⟩
      decide
  rw [Numeral.text, List.append_assoc, List.append_assoc, numeral, whole_text hx hfraction]
  simp [fraction_text hx.fraction hexponent, exponent_text hplus x.exponent hrest]

/-- A number is read back from the text of its numeral. -/
lemma number_text (hplus : plus = "" ∨ plus = "+") {x : Numeral} (hx : x.Valid)
    (hrest : Ends rest) {negative : Bool} {j : Json} (hj : x.json negative = some j) :
    ∃ c cs, (if negative then '-' :: x.text plus else x.text plus) = c :: cs ∧
      (c = '-' ∨ c.isDigit) ∧ number (c :: (cs ++ rest)) = some (j, rest) := by
  have hnumeral := numeral_text hplus hx hrest
  cases negative with
  | true => exact ⟨'-', x.text plus, rfl, Or.inl rfl, by simp [number, hnumeral, hj]⟩
  | false =>
      obtain ⟨c, cs, hcs⟩ : ∃ c cs, x.whole = c :: cs := by
        rcases hx.head with hzero | ⟨c, cs, hcs, -⟩
        · exact ⟨'0', [], hzero⟩
        · exact ⟨c, cs, hcs⟩
      have hdigit : c.isDigit := hx.whole c (hcs ▸ List.mem_cons_self)
      have hminus : c ≠ '-' := by
        rintro rfl
        exact absurd hdigit (by decide)
      obtain ⟨more, htext⟩ : ∃ more, x.text plus = c :: more := by
        rw [Numeral.text, hcs, List.cons_append]
        exact ⟨_, rfl⟩
      rw [htext, List.cons_append] at hnumeral
      exact ⟨c, more, htext, Or.inr hdigit, by simp [number, hminus, hnumeral, hj]⟩

/-! ## Integers -/

/-- An integer is read back from its text. -/
lemma number_integerText (n : Int64) (hrest : Ends rest) :
    ∃ c cs, (integerText n).toList = c :: cs ∧ (c = '-' ∨ c.isDigit) ∧
      number (c :: (cs ++ rest)) = some (.integer n, rest) := by
  obtain ⟨x, hx⟩ : ∃ x : Numeral, x = ⟨Nat.toDigits 10 n.toInt.natAbs, [], none⟩ := ⟨_, rfl⟩
  have hvalid : x.Valid := by
    rw [hx]
    refine ⟨fun c hc => Nat.isDigit_of_mem_toDigits (by decide) (le_refl 10) hc, ?_, by simp⟩
    by_cases hzero : n.toInt.natAbs = 0
    · exact Or.inl (hzero ▸ rfl)
    · exact Or.inr (Binary64.head_toDigits (Nat.pos_of_ne_zero hzero))
  have hdigits : x.digits = n.toInt.natAbs := by
    rw [hx, Numeral.digits, List.append_nil, Nat.ofDigitChars_ten_toDigits]
  have hjson (negative : Bool) (h : (if negative then -(x.digits : Int) else x.digits) = n.toInt) :
      x.json negative = some (.integer n) := by
    have hlow := n.minValue_le_toInt
    have hhigh := n.toInt_le
    rw [Numeral.json, h, if_pos ⟨hx ▸ rfl, hx ▸ rfl, hlow, hhigh⟩, Int64.ofInt_toInt]
  have htext : x.text "" = Nat.toDigits 10 n.toInt.natAbs := by
    rw [hx, Numeral.text, Numeral.fractionText, if_pos rfl, Numeral.exponentText, List.append_nil,
      List.append_nil]
  rw [integerText]
  cases hn : n.toInt with
  | ofNat k =>
      have hread := number_text (Or.inl rfl) hvalid hrest (hjson false (by simp [hdigits, hn]))
      rw [htext, hn] at hread
      have hrepr : (Int.repr (Int.ofNat k)).toList = Nat.toDigits 10 k := by
        simp [Int.repr, Nat.repr_eq_ofList_toDigits]
      rw [hrepr]
      exact hread
  | negSucc k =>
      have hread := number_text (Or.inl rfl) hvalid hrest (hjson true (by simp [hdigits, hn]; omega))
      rw [htext, hn] at hread
      have hrepr : (Int.repr (Int.negSucc k)).toList = '-' :: Nat.toDigits 10 (k + 1) := by
        simp [Int.repr, Nat.repr_eq_ofList_toDigits]
      rw [hrepr]
      exact hread

/-! ## Floating-point numbers -/

/-- Whether a text is that of a numeral for the magnitude with code `n` that cannot be taken for an
integer. -/
structure Writes (plus : String) (text : List Char) (n : Nat) (x : Numeral) : Prop where
  valid : x.Valid
  text : x.text plus = text
  code : x.code = n
  float : x.fraction ≠ [] ∨ x.exponent ≠ none

section Laying

open Binary64

variable {ds : List Char} {n : Nat}

lemma isDigit_zeros {k : Nat} : ∀ c ∈ List.replicate k '0', c.isDigit := by
  intro c hc
  rw [List.eq_of_mem_replicate hc]
  rfl

lemma ofDigitChars_zeros (k : Nat) (ds : List Char) :
    Nat.ofDigitChars 10 (List.replicate k '0' ++ ds) 0 = Nat.ofDigitChars 10 ds 0 := by
  rw [Nat.ofDigitChars_append, Nat.ofDigitChars_replicate_zero, Nat.mul_zero]

/-- Digits behind the point, with zeros in front of them. -/
lemma writes_zeros_digits {k : Nat} (h : Digits.Spells ⟨ds, -(k : Int)⟩ n) :
    Writes plus ('0' :: '.' :: (List.replicate k '0' ++ ds)) n
      ⟨['0'], List.replicate k '0' ++ ds, none⟩ := by
  obtain ⟨hdigits, ⟨c, cs, hcs, -⟩, hreads⟩ := h
  dsimp only at hdigits hcs hreads
  have hne : List.replicate k '0' ++ ds ≠ [] := by
    rw [hcs]
    exact List.append_ne_nil_of_right_ne_nil _ (List.cons_ne_nil c cs)
  refine ⟨⟨isDigit_zeros (k := 1), Or.inl rfl, ?_⟩, ?_, ?_, Or.inl hne⟩
  · intro d hd
    exact (List.mem_append.mp hd).elim (isDigit_zeros d) (hdigits d)
  · rw [Numeral.text, Numeral.fractionText, if_neg hne, Numeral.exponentText, List.append_nil]
    rfl
  · have hvalue : Numeral.digits ⟨['0'], List.replicate k '0' ++ ds, none⟩ =
        Nat.ofDigitChars 10 ds 0 := ofDigitChars_zeros (k + 1) ds
    rw [Numeral.code, hvalue, ← hreads]
    congr 1
    simp
    omega

/-- Digits with the point among them. -/
lemma writes_digits {p : Nat} (h : Digits.Spells ⟨ds, p⟩ n) (hpos : 0 < p) (hp : p < ds.length) :
    Writes plus (ds.take p ++ '.' :: ds.drop p) n ⟨ds.take p, ds.drop p, none⟩ := by
  obtain ⟨hdigits, ⟨c, cs, hcs, hc⟩, hreads⟩ := h
  dsimp only at hdigits hcs hreads
  have hne : ds.drop p ≠ [] := by
    rw [Ne, List.drop_eq_nil_iff]
    omega
  obtain ⟨q, rfl⟩ := Nat.exists_eq_succ_of_ne_zero (Nat.ne_of_gt hpos)
  refine ⟨⟨fun d hd => hdigits d (List.mem_of_mem_take hd), Or.inr ⟨c, cs.take q, ?_, hc⟩,
    fun d hd => hdigits d (List.mem_of_mem_drop hd)⟩, ?_, ?_, Or.inl hne⟩
  · rw [hcs]
    rfl
  · rw [Numeral.text, Numeral.fractionText, if_neg hne, Numeral.exponentText, List.append_nil]
  · rw [Numeral.code, Numeral.digits, List.take_append_drop, ← hreads]
    congr 1
    simp
    omega

/-- Digits in front of the point, with zeros behind them. -/
lemma writes_digits_zeros {k : Nat} (h : Digits.Spells ⟨ds, (ds.length + k : Nat)⟩ n) :
    Writes plus (ds ++ List.replicate k '0' ++ ['.', '0']) n
      ⟨ds ++ List.replicate k '0', ['0'], none⟩ := by
  obtain ⟨hdigits, ⟨c, cs, hcs, hc⟩, hreads⟩ := h
  dsimp only at hdigits hcs hreads
  refine ⟨⟨fun d hd => (List.mem_append.mp hd).elim (hdigits d) (isDigit_zeros d),
    Or.inr ⟨c, cs ++ List.replicate k '0', ?_, hc⟩, isDigit_zeros (k := 1)⟩, ?_, ?_,
    Or.inl (List.cons_ne_nil _ _)⟩
  · rw [hcs, List.cons_append]
  · rw [Numeral.text, Numeral.fractionText, if_neg (List.cons_ne_nil _ _), Numeral.exponentText,
      List.append_nil]
  · have hvalue : Numeral.digits ⟨ds ++ List.replicate k '0', ['0'], none⟩ =
        Nat.ofDigitChars 10 ds 0 * 10 ^ (k + 1) := by
      have hzeros : ds ++ List.replicate k '0' ++ ['0'] = ds ++ List.replicate (k + 1) '0' := by
        rw [List.append_assoc, List.replicate_succ']
      rw [Numeral.digits, hzeros, Nat.ofDigitChars_append, Nat.ofDigitChars_replicate_zero,
        Nat.mul_comm]
    rw [Numeral.code, hvalue, nearestDecimal_mul_pow, ← hreads]
    congr 1
    simp

/-- A point behind the first digit, and an exponent. -/
lemma writes_scientific {d : Digits} (h : d.Spells n) :
    Writes plus (scientific plus d) n
      ⟨d.digits.take 1, d.digits.drop 1, some (d.point - 1)⟩ := by
  obtain ⟨hdigits, ⟨c, cs, hcs, hc⟩, hreads⟩ := h
  refine ⟨⟨fun d hd => hdigits d (List.mem_of_mem_take hd), Or.inr ⟨c, [], ?_, hc⟩,
    fun d hd => hdigits d (List.mem_of_mem_drop hd)⟩, ?_, ?_, Or.inr (Option.some_ne_none _)⟩
  · rw [hcs]
    rfl
  · have hfraction : (if d.digits.length ≤ 1 then [] else '.' :: d.digits.drop 1) =
        Numeral.fractionText (d.digits.drop 1) := by
      rw [Numeral.fractionText]
      simp only [List.drop_eq_nil_iff]
    rw [scientific, hfraction, Numeral.text, Numeral.exponentText]
    simp
  · rw [Numeral.code, Numeral.digits, List.take_append_drop, ← hreads]
    congr 1
    rw [hcs]
    simp
    omega

/-- Digits without an exponent. -/
lemma writes_positional {d : Digits} (h : d.Spells n) :
    ∃ x, Writes plus (positional true d) n x := by
  obtain ⟨ds, point⟩ := d
  have hne : ds ≠ [] := by
    obtain ⟨c, cs, hcs, -⟩ := h.head
    dsimp only at hcs
    rw [hcs]
    exact List.cons_ne_nil c cs
  cases point with
  | negSucc k => exact ⟨_, writes_zeros_digits (k := k + 1) h⟩
  | ofNat p =>
      rcases Nat.eq_zero_or_pos p with rfl | hpos
      · have htext : positional true ⟨ds, Int.ofNat 0⟩ = '0' :: '.' :: ds := by
          simp [positional, hne]
        exact ⟨_, htext ▸ writes_zeros_digits (k := 0) h⟩
      · by_cases hp : p < ds.length
        · have htext : positional true ⟨ds, Int.ofNat p⟩ = ds.take p ++ '.' :: ds.drop p := by
            have hnone : p - ds.length = 0 := by omega
            have hmore : ¬ ds.length ≤ p := by omega
            have hsome : p ≠ 0 := by omega
            simp [positional, hnone, hmore, hsome, hne]
          exact ⟨_, htext ▸ writes_digits h hpos hp⟩
        · obtain ⟨k, rfl⟩ := Nat.exists_eq_add_of_le (Nat.le_of_not_lt hp)
          have htext : positional true ⟨ds, Int.ofNat (ds.length + k)⟩ =
              ds ++ List.replicate k '0' ++ ['.', '0'] := by
            have htake : ds.take (ds.length + k) = ds := List.take_of_length_le (by omega)
            simp [positional, hne, htake]
          exact ⟨_, htext ▸ writes_digits_zeros h⟩

/-- Zero has a text of its own. -/
lemma writes_zero : Writes plus ['0', '.', '0'] 0 ⟨['0'], ['0'], none⟩ where
  valid := ⟨isDigit_zeros (k := 1), Or.inl rfl, isDigit_zeros (k := 1)⟩
  text := rfl
  code := nearestDecimal_zero _
  float := Or.inl (List.cons_ne_nil _ _)

/-- Every finite magnitude is written as a numeral for it. -/
lemma writes_renderMagnitude {layout : Layout} (hlayout : layout.IsNumeral)
    (h : n < infinityCode) : ∃ x, Writes layout.exponentSign (renderMagnitude layout n) n x := by
  rw [renderMagnitude, hlayout.keepsFraction]
  by_cases hzero : n = 0
  · rw [if_pos hzero, hzero]
    exact ⟨_, writes_zero⟩
  · rw [if_neg hzero]
    have hspells := spells_shortest layout.tie hzero h
    dsimp only
    split
    · exact writes_positional hspells
    · exact ⟨_, writes_scientific hspells⟩

end Laying

/-- A number is its sign and its code. -/
lemma ofCode_code (x : Binary64) : Binary64.ofCode x.isNegative x.code = x := by
  have hbound := x.bits.toNat_lt
  have hsign : Binary64.signBit = 2 ^ 63 := rfl
  have hbits : (if x.isNegative then Binary64.signBit + x.code else x.code) = x.bits.toNat := by
    simp only [Binary64.isNegative, Binary64.code, hsign, decide_eq_true_eq]
    split <;> omega
  rw [Binary64.ofCode, hbits, UInt64.ofNat_toNat]

/-- A finite number is read back from its text, bit by bit. -/
lemma number_render {layout : Binary64.Layout} (hlayout : layout.IsNumeral) {x : Binary64}
    (hx : x.isFinite = true) (hrest : Ends rest) :
    ∃ c cs, (x.render layout).toList = c :: cs ∧ (c = '-' ∨ c.isDigit) ∧
      number (c :: (cs ++ rest)) = some (.float x, rest) := by
  have hcode : x.code < Binary64.infinityCode := by simpa [Binary64.isFinite] using hx
  obtain ⟨y, hy⟩ := writes_renderMagnitude hlayout hcode
  have hnan : ¬ x.isNaN = true := by
    rw [Binary64.isNaN, decide_eq_true_eq]
    exact Nat.not_lt.mpr (Nat.le_of_lt hcode)
  have hjson : y.json x.isNegative = some (.float x) := by
    have hfloat (p : Prop) : ¬ (y.fraction = [] ∧ y.exponent = none ∧ p) :=
      fun h => hy.float.elim (· h.1) (· h.2.1)
    rw [Numeral.json, if_neg (hfloat _), if_pos (hy.code ▸ hcode), hy.code, ofCode_code]
  have hread := number_text hlayout.sign hy.valid hrest hjson
  rw [hy.text] at hread
  rw [Binary64.render, if_neg hnan, if_pos hx]
  dsimp only
  rw [String.toList_ofList]
  exact hread

end JsonReader

end TypedConfig
