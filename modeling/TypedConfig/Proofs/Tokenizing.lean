import TypedConfig.Proofs.Gaps

/-!
# Tokenizing undoes rendering

The scanner reads back what was written: from a text made of lexemes and separators it gets one
token for each lexeme, in order, with the lexeme's payload and place.

**What follows matters.** Words and numbers go on for as long as they can, so a lexeme is read
alone only where the text behind it cannot go on with it.  A separator always begins with a blank
or a slash, neither of which is part of a word or a number, and with neither of which a token
begins (`Breaks`).

**Two invariants of the scan.** The source is left at the beginning of a separator, and its position
is the one behind all that was read, which is why places can be counted from the text alone.
-/

namespace TypedConfig

/-! ## What may follow a lexeme -/

/-- The characters with which a separator may begin. -/
def breakChars : List Char := [' ', '\t', '\r', '\n', '/']

lemma forall_break {p : Char → Prop} (hspace : p ' ') (htab : p '\t') (hreturn : p '\r')
    (hfeed : p '\n') (hslash : p '/') : ∀ c ∈ breakChars, p c := by
  simp only [breakChars, List.forall_mem_cons]
  exact ⟨hspace, htab, hreturn, hfeed, hslash, nofun⟩

/-- Whether a text is empty or begins like a separator. -/
def Breaks (rest : List Char) : Prop := ∀ c ∈ rest.head?, c ∈ breakChars

lemma Filler.breaks (f : Filler) (rest : List Char) : Breaks (f.chars ++ rest) := by
  cases f with
  | blank c h =>
      rintro _ ⟨⟩
      obtain rfl | rfl | rfl | rfl := h <;> decide
  | line | block =>
      rintro _ ⟨⟩
      decide

lemma Separator.breaks {s : Separator} {rest : List Char} (h : s = [] → rest = []) :
    Breaks (s.chars ++ rest) := by
  cases s with
  | nil =>
      rw [h rfl]
      rintro _ ⟨⟩
  | cons f s =>
      rw [Separator.chars, List.flatMap_cons, List.append_assoc]
      exact f.breaks _

/-- A gap ends where no separator can begin. -/
lemma Gap.split_stop {c : Char} {cs : List Char} (hc : c ∉ breakChars) :
    split blank (c :: cs) = ([], c :: cs) := by
  have hblank : isBlank c = false := by
    simp_all [breakChars, isBlank]
  have hslash : c ≠ '/' := by
    rintro rfl
    exact hc (by decide)
  rw [split, hblank] <;> simp [hslash]

namespace Reading

variable {run rest : List Char} {c : Char} {p : Char → Bool}

/-- No token begins like a separator. -/
lemma outcome_of_break :
    ∀ c ∈ breakChars, ∀ cs, (of c cs).outcome = .error (.unexpectedChar c) :=
  forall_break (fun _ => rfl) (fun _ => rfl) (fun _ => rfl) (fun _ => rfl) (fun _ => rfl)

/-! ## Symbols and words -/

lemma of_symbol (s : Symbol) : of s.char rest = ⟨.ok (.symbol s), [s.char], rest⟩ := by
  rw [of, Symbol.ofChar?_char]

/-- No symbol has a character that is none of theirs. -/
lemma ofChar?_eq_none (h : ∀ s : Symbol, s.char ≠ c) : Symbol.ofChar? c = none := by
  cases hs : Symbol.ofChar? c with
  | none => rfl
  | some s => exact absurd (by simpa using List.find?_some hs) (h s)

lemma isLetter_of_isDigit (h : c.isDigit) : Text.isLetter c = false := by
  obtain ⟨hlow, hhigh⟩ := Char.isDigit_iff_toNat.mp h
  have hzero : '0'.toNat = 48 := rfl
  have hnine : '9'.toNat = 57 := rfl
  rw [Text.isLetter, if_pos (by omega)]
  have hupper : c.isUpper = decide ('A'.val ≤ c.val ∧ c.val ≤ 'Z'.val) := rfl
  have hlower : c.isLower = (decide ('a'.val ≤ c.val) && decide (c.val ≤ 'z'.val)) := rfl
  have halpha : c.isAlpha = (c.isUpper || c.isLower) := rfl
  simp [halpha, hupper, hlower, UInt32.le_iff_toNat_le]
  omega

/-- Neither a digit nor a minus sign begins a word. -/
lemma beginsNumber_of_beginsWord (h : beginsWord c) (cs : List Char) :
    beginsNumber c cs = false := by
  have hdigit : c.isDigit = false := by
    refine Bool.eq_false_iff.mpr fun hdigit => ?_
    have hmark : c = '_' := by simpa [beginsWord, isLetter_of_isDigit hdigit] using h
    rw [hmark] at hdigit
    exact absurd hdigit (by decide)
  have hminus : c ≠ '-' := by
    rintro rfl
    exact absurd h (by decide)
  simp [beginsNumber, hdigit, hminus]

/-- Where a word begins, a word is read. -/
lemma of_beginsWord (h : beginsWord c) (cs : List Char) : of c cs = word c cs := by
  have hsymbol : Symbol.ofChar? c = none := by
    refine ofChar?_eq_none fun s hs => ?_
    rw [← hs] at h
    cases s <;> exact absurd h (by decide)
  have hquote : ¬ (c = '"' || c = '\'') := by
    rw [Bool.or_eq_true, decide_eq_true_eq, decide_eq_true_eq]
    rintro (rfl | rfl) <;> exact absurd h (by decide)
  rw [of, hsymbol]
  simp only [if_neg hquote, beginsNumber_of_beginsWord h, Bool.false_eq_true, if_false, if_pos h]

lemma continuesWord_of_break : ∀ c ∈ breakChars, continuesWord c = false :=
  forall_break rfl rfl rfl rfl rfl

lemma ofWord_chars (w : Word) : .ofWord (String.ofList w.chars) = w.payload := by
  rw [Word.payload]
  split
  all_goals simp_all [TokenKind.ofWord, TokenKind.ofWord?]

/-- A word is read up to where no word can go on. -/
lemma of_word_stop (w : Word) (hrest : ∀ c ∈ rest.head?, continuesWord c = false) :
    of w.first (w.more ++ rest) = ⟨.ok w.payload, w.chars, rest⟩ := by
  have hfirst : beginsWord w.first := by simpa [beginsWord] using w.first_begins
  have hmore : ∀ c ∈ w.more, continuesWord c := by
    simpa [continuesWord] using w.more_continues
  obtain ⟨htake, hdrop⟩ := takeWhile_run hmore hrest
  rw [of_beginsWord hfirst, word, htake, hdrop, ← ofWord_chars]
  rfl

lemma of_word (w : Word) (hrest : Breaks rest) :
    of w.first (w.more ++ rest) = ⟨.ok w.payload, w.chars, rest⟩ :=
  of_word_stop w fun c hc => continuesWord_of_break c (hrest c hc)

/-! ## Strings -/

lemma unescape?_letter (e : Escape) : unescape? e.letter = some e.value := by cases e <;> rfl

/-- The characters of a string are read back up to its closing quote. -/
lemma stringBody_parts (q : Quote) (body : List (StringPart q)) :
    stringBody q.char (body.flatMap StringPart.chars ++ q.char :: rest) =
      ⟨.ok (body.map StringPart.value), body.flatMap StringPart.chars ++ [q.char], rest⟩ := by
  induction body with
  | nil => cases q <;> simp [stringBody, Quote.char]
  | cons part body ih =>
      cases part with
      | raw c h =>
          obtain ⟨hquote, hslash, hfeed⟩ := h
          have hc (cs : List Char) :
              stringBody q.char (c :: cs) = ((stringBody q.char cs).map (c :: ·)).after [c] := by
            rw [stringBody, if_neg hquote] <;> simp [hslash, hfeed]
          simp only [List.flatMap_cons, StringPart.chars, List.cons_append, List.nil_append, hc, ih]
          rfl
      | escape e =>
          have he (cs : List Char) : stringBody q.char ('\\' :: e.letter :: cs) =
              ((stringBody q.char cs).map (e.value :: ·)).after ['\\', e.letter] := by
            rw [stringBody, unescape?_letter]
          simp only [List.flatMap_cons, StringPart.chars, List.cons_append, List.nil_append, he, ih]
          rfl

lemma of_string (q : Quote) (body : List (StringPart q)) :
    of q.char (body.flatMap StringPart.chars ++ q.char :: rest) =
      ⟨.ok (Lexeme.string q body).payload, (Lexeme.string q body).chars, rest⟩ := by
  have hquote (cs : List Char) : of q.char cs = string q.char cs := by cases q <;> rfl
  rw [hquote, string, stringBody_parts]
  rfl

/-! ## Numbers -/

lemma isDigitOrMark_of_break : ∀ c ∈ breakChars, isDigitOrMark c = false :=
  forall_break rfl rfl rfl rfl rfl

lemma isDigit_digit (d : Fin 10) : (Numeral.digitChar d).isDigit := by
  simp [Numeral.digitChar, Nat.isDigit_digitChar]

lemma isDigitOrMark_more (n : Numeral) : ∀ c ∈ n.more.map Numeral.markChar, isDigitOrMark c := by
  rw [List.forall_mem_map]
  rintro (_ | d) -
  · rfl
  · simp [isDigitOrMark, Numeral.markChar, isDigit_digit]

lemma isDigitOrMark_chars (n : Numeral) : ∀ c ∈ n.chars, isDigitOrMark c := by
  rw [Numeral.chars, List.forall_mem_cons]
  exact ⟨by simp [isDigitOrMark, isDigit_digit], isDigitOrMark_more n⟩

/-- The digits are what is left without the underscores. -/
lemma filter_isDigit_chars (n : Numeral) :
    n.chars.filter Char.isDigit = n.digits.map Numeral.digitChar := by
  have hmore : ∀ more : List (Option (Fin 10)), (more.map Numeral.markChar).filter Char.isDigit =
      (more.filterMap id).map Numeral.digitChar := by
    intro more
    induction more with
    | nil => rfl
    | cons mark more ih =>
        cases mark with
        | none => simpa [Numeral.markChar] using ih
        | some d => simp [Numeral.markChar, isDigit_digit, ih]
  rw [Numeral.chars, List.filter_cons_of_pos (isDigit_digit _), hmore]
  rfl

lemma ofDigitChars_digits (ds : List (Fin 10)) :
    Nat.ofDigitChars 10 (ds.map Numeral.digitChar) 0 = decimalValue ds := by
  have hfold : ∀ n, Nat.ofDigitChars 10 (ds.map Numeral.digitChar) n =
      ds.foldl (fun n d => 10 * n + d.val) n := by
    induction ds with
    | nil => intro n; exact Nat.ofDigitChars_nil
    | cons d ds ih =>
        intro n
        rw [List.map_cons, Numeral.digitChar, Nat.ofDigitChars_cons_digitChar_of_lt_ten d.isLt, ih,
          List.foldl_cons]
  exact hfold 0

lemma signAndDigits_chars (negative : Bool) (n : Numeral) :
    signAndDigits (signChars negative ++ n.chars) =
      (negative, n.digits.map Numeral.digitChar) := by
  cases negative with
  | false =>
      have hsign : ∀ d : Fin 10, Numeral.digitChar d ≠ '-' := by decide
      rw [signAndDigits, signChars, if_neg Bool.false_ne_true, List.nil_append,
        filter_isDigit_chars]
      simp [Numeral.chars, hsign]
  | true =>
      rw [signAndDigits, signChars, if_pos rfl, List.filter_append, filter_isDigit_chars]
      rfl

/-- The characters of an integer spell its value. -/
lemma integer?_chars {negative : Bool} {n : Numeral}
    (fits : Int64.minValue.toInt ≤ signedValue negative (decimalValue n.digits) ∧
      signedValue negative (decimalValue n.digits) ≤ Int64.maxValue.toInt) :
    integer? (signChars negative ++ n.chars) =
      some (Int64.ofInt (signedValue negative (decimalValue n.digits))) := by
  rw [integer?, signAndDigits_chars]
  simp only [ofDigitChars_digits]
  exact if_pos fits

lemma float_chars (negative : Bool) (whole places : Numeral) :
    .literal (.float (float (signChars negative ++ whole.chars) places.chars)) =
      (Lexeme.float negative whole places).payload := by
  simp only [float, signAndDigits_chars, filter_isDigit_chars, ← List.map_append,
    ofDigitChars_digits, List.length_map]
  rfl

/-- A run of digits and underscores that no point follows is an integer. -/
lemma number_integer {first : Char} {v : Int64} (hrun : ∀ c ∈ run, isDigitOrMark c)
    (hv : integer? (first :: run) = some v) (hrest : Breaks rest) :
    number first (run ++ rest) = ⟨.ok (.literal (.integer v)), first :: run, rest⟩ := by
  obtain ⟨htake, hdrop⟩ :=
    takeWhile_run hrun fun c hc => isDigitOrMark_of_break c (hrest c hc)
  -- rules out the match on a point and a digit
  have hpoint (d : Char) (ds : List Char) : rest ≠ '.' :: d :: ds := by
    rintro rfl
    exact absurd (hrest '.' rfl) (by decide)
  simp only [number, htake, hdrop, hv]

/-- A run of digits and underscores with a point and a digit behind it is a float. -/
lemma number_float {first d : Char} {more : List Char} (hrun : ∀ c ∈ run, isDigitOrMark c)
    (hd : d.isDigit) (hmore : ∀ c ∈ d :: more, isDigitOrMark c) (hrest : Breaks rest) :
    number first (run ++ '.' :: (d :: more ++ rest)) =
      ⟨.ok (.literal (.float (float (first :: run) (d :: more)))), first :: run ++ '.' :: d :: more,
        rest⟩ := by
  have hpoint : ∀ c ∈ ('.' :: (d :: more ++ rest)).head?, isDigitOrMark c = false := by
    rintro _ ⟨⟩
    decide
  obtain ⟨htake, hdrop⟩ := takeWhile_run hrun hpoint
  obtain ⟨htakeMore, hdropMore⟩ :=
    takeWhile_run hmore fun c hc => isDigitOrMark_of_break c (hrest c hc)
  rw [List.cons_append] at htakeMore hdropMore htake hdrop ⊢
  simp only [number, htake, hdrop, htakeMore, hdropMore, if_pos hd]

/-- Where a signed numeral stands, a number is read. -/
lemma of_numeral (negative : Bool) (n : Numeral) :
    ∃ first run, signChars negative ++ n.chars = first :: run ∧ (∀ c ∈ run, isDigitOrMark c) ∧
      ∀ tail, of first (run ++ tail) = number first (run ++ tail) := by
  cases negative with
  | false =>
      refine ⟨_, _, rfl, isDigitOrMark_more n, fun tail => ?_⟩
      have hsymbol : ∀ d : Fin 10, Symbol.ofChar? (Numeral.digitChar d) = none := by decide
      have hquote : ∀ d : Fin 10, ¬ (Numeral.digitChar d = '"' || Numeral.digitChar d = '\'') := by
        decide
      rw [of, hsymbol]
      simp only [if_neg (hquote _), beginsNumber, isDigit_digit, Bool.true_or, if_true]
  | true =>
      refine ⟨_, _, rfl, isDigitOrMark_chars n, fun tail => ?_⟩
      have hbegins : beginsNumber '-' (n.chars ++ tail) := by
        simp [beginsNumber, Numeral.chars, isDigit_digit]
      exact if_pos hbegins

/-! ## Lexemes -/

/-- A lexeme before a separator or at the end of the text is read back. -/
theorem of_lexeme (l : Lexeme) (hrest : Breaks rest) :
    ∃ c cs, l.chars ++ rest = c :: cs ∧ of c cs = ⟨.ok l.payload, l.chars, rest⟩ := by
  cases l with
  | symbol s => exact ⟨_, _, rfl, of_symbol s⟩
  | word w => exact ⟨_, _, rfl, of_word w hrest⟩
  | string q body =>
      refine ⟨_, _, List.cons_append, ?_⟩
      rw [List.append_assoc]
      exact of_string q body
  | integer negative n fits =>
      obtain ⟨first, run, hchars, hrun, hof⟩ := of_numeral negative n
      have hinteger := integer?_chars fits
      refine ⟨first, run ++ rest, congrArg (· ++ rest) hchars, ?_⟩
      rw [hchars] at hinteger
      rw [hof, number_integer hrun hinteger hrest, ← hchars]
      rfl
  | float negative whole places =>
      obtain ⟨first, run, hchars, hrun, hof⟩ := of_numeral negative whole
      have hplaces : places.chars = _ :: _ := rfl
      refine ⟨first, run ++ '.' :: (places.chars ++ rest), ?_, ?_⟩
      · rw [Lexeme.chars, hchars, List.append_assoc]
        rfl
      · rw [hof, hplaces, number_float hrun (isDigit_digit _) (isDigitOrMark_chars places) hrest,
          ← hplaces, ← hchars, float_chars]
        rfl

end Reading

/-! ## Places -/

lemma utf8ByteSize_append (cs ds : List Char) :
    (String.ofList (cs ++ ds)).utf8ByteSize =
      (String.ofList cs).utf8ByteSize + (String.ofList ds).utf8ByteSize := by
  rw [String.ofList_append, String.utf8ByteSize_append]

/-- A position is counted from the characters before it. -/
theorem Position.start_past (before : List Char) :
    start.past before =
      ⟨(String.ofList before).utf8ByteSize, before.count '\n' + 1,
        (before.reverse.takeWhile (· ≠ '\n')).length + 1⟩ := by
  -- a position moves on at the end of the text, so the induction is on the text read backwards
  have hreverse : ∀ before : List Char, start.past before.reverse =
      ⟨(String.ofList before.reverse).utf8ByteSize, before.count '\n' + 1,
        (before.takeWhile (· ≠ '\n')).length + 1⟩ := by
    intro before
    induction before with
    | nil => rfl
    | cons c before ih =>
        have hbytes : (String.ofList (before.reverse ++ [c])).utf8ByteSize =
            (String.ofList before.reverse).utf8ByteSize + c.utf8Size := by
          rw [utf8ByteSize_append, ← String.singleton_eq_ofList, String.utf8ByteSize_singleton]
        rw [List.reverse_cons, past_append, ih, past_cons, past_nil, step, hbytes]
        split
        · next hc => simp [hc]
        · next hc => simp [hc]
  simpa using hreverse before.reverse

lemma spanBehind_eq (before cs : List Char) :
    spanBehind before cs = .between (.past .start before) (.past .start (before ++ cs)) := by
  rw [Position.start_past, Position.start_past]
  rfl

/-! ## Texts -/

namespace Source

variable {rest : List Char}

/-- Behind a separator the next lexeme is read, and the source is left behind it. -/
lemma next_lexeme (before : List Char) (s : Separator) (l : Lexeme) (hrest : Breaks rest) :
    next ⟨.past .start before, s.chars ++ (l.chars ++ rest)⟩ =
      (.ok ⟨l.payload, spanBehind (before ++ s.chars) l.chars⟩,
        ⟨.past .start (before ++ s.chars ++ l.chars), rest⟩) := by
  obtain ⟨c, cs, hchars, hof⟩ := Reading.of_lexeme l hrest
  have hstop : Gap.split .blank (c :: cs) = ([], c :: cs) := by
    refine Gap.split_stop fun hc => ?_
    have hfault := Reading.outcome_of_break c hc cs
    rw [hof] at hfault
    exact absurd hfault (by simp)
  rw [next, Gap.split_separator, hchars, hstop]
  simp only [Gap.taking, List.append_nil, hof, ← Position.past_append, spanBehind_eq]

lemma next_end (before : List Char) (s : Separator) :
    next ⟨.past .start before, s.chars⟩ =
      (.ok ⟨.endOfInput, spanBehind (before ++ s.chars) []⟩,
        ⟨.past .start (before ++ s.chars), []⟩) := by
  have hgap : Gap.split .blank s.chars = (s.chars, []) := by
    simpa [Gap.taking, Gap.split] using Gap.split_separator s []
  simp only [next, hgap, ← Position.past_append, spanBehind_eq, List.append_nil]

end Source

/-- No lexeme says that the input ends. -/
lemma Lexeme.payload_ne_endOfInput (l : Lexeme) : l.payload ≠ .endOfInput := by
  cases l with
  | word w =>
      rw [payload, Word.payload]
      split <;> exact nofun
  | symbol | string | integer | float => exact nofun

lemma Lexeme.chars_ne_nil (l : Lexeme) : l.chars ≠ [] := by
  have hend : Breaks [] := nofun
  obtain ⟨c, cs, hchars, -⟩ := Reading.of_lexeme l hend
  rw [List.append_nil] at hchars
  simp [hchars]

namespace Rendering

/-- Only the last separator can be empty, also behind the first lexeme. -/
lemma apart_cons {l : Lexeme} {s : Separator} {items : List (Lexeme × Separator)}
    (h : ∀ item ∈ ((l, s) :: items).dropLast, item.2 ≠ []) :
    (s = [] → items = []) ∧ ∀ item ∈ items.dropLast, item.2 ≠ [] := by
  cases items with
  | nil => exact ⟨fun _ => rfl, by simp⟩
  | cons item items =>
      rw [List.dropLast_cons_cons, List.forall_mem_cons] at h
      exact ⟨fun hs => absurd hs h.1, h.2⟩

/-- From the beginning of a separator on, the lexemes behind it are read one after the other. -/
lemma tokens_itemChars (items : List (Lexeme × Separator)) (before : List Char) (s : Separator)
    {n : Nat} (hn : items.length < n) (hapart : ∀ item ∈ items.dropLast, item.2 ≠ []) :
    Source.tokens n ⟨.past .start before, s.chars ++ itemChars items⟩ =
      .ok (tokensBehind (before ++ s.chars) items) := by
  -- the separator behind the first lexeme is the one before the rest
  induction items generalizing before s n with
  | nil =>
      obtain ⟨n, rfl⟩ := Nat.exists_eq_succ_of_ne_zero (Nat.ne_zero_of_lt hn)
      rw [itemChars, List.flatMap_nil, List.append_nil, Source.tokens, Source.next_end]
      exact if_pos rfl
  | cons item items ih =>
      obtain ⟨l, s'⟩ := item
      obtain ⟨n, rfl⟩ := Nat.exists_eq_succ_of_ne_zero (Nat.ne_zero_of_lt hn)
      obtain ⟨hlast, hitems⟩ := apart_cons hapart
      have hbreaks : Breaks (s'.chars ++ itemChars items) :=
        Separator.breaks fun hs => hlast hs ▸ rfl
      have hchars : itemChars ((l, s') :: items) = l.chars ++ (s'.chars ++ itemChars items) :=
        List.append_assoc ..
      rw [hchars, Source.tokens, Source.next_lexeme _ _ _ hbreaks]
      simp only [if_neg l.payload_ne_endOfInput, ih _ s' (Nat.lt_of_succ_lt_succ hn) hitems]
      rfl

end Rendering

/-- Tokenizing a rendering gives one token for each lexeme, in order, with its payload and place,
and the token for the end of the input; and every text is what some string says, between either
quotes. -/
theorem tokenize_rendering :
    (∀ r : Rendering, tokenize r.text = .ok r.tokens) ∧
      ∀ (q : Quote) (s : String),
        ∃ body, (Lexeme.string q body).payload = .literal (.string s) := by
  refine ⟨fun r => ?_, fun q s => ?_⟩
  · have hlength : r.items.length ≤ (Rendering.itemChars r.items).length :=
      length_le_flatMap (fun item => List.append_ne_nil_of_left_ne_nil item.1.chars_ne_nil _) _
    rw [tokenize, Source.ofString, Rendering.text, String.toList_ofList]
    refine Rendering.tokens_itemChars r.items [] r.lead ?_ r.apart
    simp only [List.length_append]
    omega
  · refine ⟨s.toList.map (StringPart.ofChar q), ?_⟩
    have hvalue : StringPart.value ∘ StringPart.ofChar q = id := funext (StringPart.value_ofChar q)
    rw [Lexeme.payload, List.map_map, hvalue, List.map_id, String.ofList_toList]

/-- A signed number, a comment that holds another one, and a string with a character of two bytes
and an escape, behind a line feed. -/
def sampleRendering : Rendering where
  lead := [.blank '\n' (by decide)]
  items := [
    (.integer true ⟨1, [none, some 2]⟩ (by decide), [.block _ (.comment .close .close)]),
    (.string .single [.raw 'é' (by decide), .escape .lineFeed], [])]
  apart := by simp

example : sampleRendering.text = "\n-1_2/*/**/*/'é\\n'" := rfl

example : sampleRendering.tokens =
    [⟨.literal (.integer (-12)), ⟨1, 5, 2, 1⟩⟩, ⟨.literal (.string "é\n"), ⟨13, 19, 2, 13⟩⟩,
      ⟨.endOfInput, ⟨19, 19, 2, 18⟩⟩] := by
  decide

end TypedConfig
