import TypedConfig.Proofs.Coverage

/-!
# Joining texts at a line end

A line feed ends every token and every line comment, so a text that is put behind another one on a
line of its own is scanned as if it stood alone (`tokenize_join`).

**The exception.** A line feed does not end a block comment.  The scanner says nothing about a
comment that is open at the end of a text, and behind such a text all is lost up to the next closing
mark (`tokenize_lost`).

**Why.** A reading that ends well has either seen its own end or goes on for as long as it can, and
nothing that goes on goes on with a line feed.  Behind the line feed the scanner begins in the first
column, so what it says there differs from what it would say at the beginning of a text by the bytes
and lines before it alone.
-/

namespace TypedConfig

/-! ## Moving places -/

/-- The position that many bytes and lines further on, in the same column. -/
def Position.moved (bytes lines : Nat) (p : Position) : Position :=
  ⟨p.offset + bytes, p.line + lines, p.column⟩

/-- The span that many bytes and lines further on, in the same column. -/
def Span.moved (bytes lines : Nat) (s : Span) : Span :=
  ⟨s.start + bytes, s.stop + bytes, s.line + lines, s.column⟩

/-- The token that many bytes and lines further on. -/
def Token.moved (bytes lines : Nat) (t : Token) : Token :=
  { t with span := t.span.moved bytes lines }

/-- The fault that many bytes and lines further on. -/
def ScanError.moved (bytes lines : Nat) (e : ScanError) : ScanError :=
  e.moveTo (e.span.moved bytes lines)

/-- The item that many bytes and lines further on. -/
def ScanItem.moved (bytes lines : Nat) : ScanItem → ScanItem
  | .ok t => .ok (t.moved bytes lines)
  | .error e => .error (ScanError.moved bytes lines e)

section

variable (bytes lines : Nat)

lemma Position.moved_step (p : Position) (c : Char) :
    (p.moved bytes lines).step c = (p.step c).moved bytes lines := by
  unfold step
  split <;> simp only [moved, Nat.add_right_comm]

lemma Position.moved_past (p : Position) (cs : List Char) :
    (p.moved bytes lines).past cs = (p.past cs).moved bytes lines := by
  induction cs generalizing p with
  | nil => rfl
  | cons c cs ih => rw [past_cons, past_cons, moved_step, ih]

lemma Source.moved_next (p : Position) (cs : List Char) :
    next ⟨p.moved bytes lines, cs⟩ =
      (ScanItem.moved bytes lines (next ⟨p, cs⟩).1,
        ⟨(next ⟨p, cs⟩).2.position.moved bytes lines, (next ⟨p, cs⟩).2.rest⟩) := by
  simp only [next, Position.moved_past]
  split
  · rfl
  · next c cs _ => cases (Reading.of c cs).outcome <;> rfl

lemma Source.moved_tokens (n : Nat) (p : Position) (cs : List Char) :
    tokens n ⟨p.moved bytes lines, cs⟩ =
      ((tokens n ⟨p, cs⟩).map (List.map (Token.moved bytes lines))).mapError
        (ScanError.moved bytes lines) := by
  induction n generalizing p cs with
  | zero => rfl
  | succ n ih =>
      rw [tokens, tokens, moved_next]
      rcases next ⟨p, cs⟩ with ⟨e | t, s⟩
      · rfl
      · simp only [ScanItem.moved, Token.moved]
        split
        · rfl
        · rw [ih]
          rcases tokens n s with e | ts <;> rfl

end

/-! ## Line ends -/

variable {c : Char} {cs more : List Char}

namespace Reading

/-- What does not go on with a line feed is the same with one behind it. -/
lemma span_lineFeed {p : Char → Bool} (hp : p '\n' = false) (cs more : List Char) :
    (cs ++ '\n' :: more).takeWhile p = cs.takeWhile p ∧
      (cs ++ '\n' :: more).dropWhile p = cs.dropWhile p ++ '\n' :: more := by
  induction cs with
  | nil => simp [hp]
  | cons c cs ih =>
      cases hc : p c with
      | false => simp [hc]
      | true => simp [hc, ih]

/-- The same reading with more text behind what is left. -/
def before {α : Type} (more : List Char) (r : Reading α) : Reading α :=
  { r with rest := r.rest ++ more }

/-- A reading that ends well has ended well in its part. -/
lemma ok_of_map {α β : Type} {r : Reading α} {f : α → β} {taken : List Char} {b : β}
    (h : ((r.map f).after taken).outcome = .ok b) : ∃ a, r.outcome = .ok a := by
  obtain ⟨outcome, taken, rest⟩ := r
  cases outcome with
  | ok a => exact ⟨a, rfl⟩
  | error fault => cases h

lemma stringBody_char {quote : Char} (hfeed : c ≠ '\n') (hslash : c ≠ '\\') (cs : List Char) :
    stringBody quote (c :: cs) =
      if c = quote then ⟨.ok [], [c], cs⟩
      else ((stringBody quote cs).map (c :: ·)).after [c] := by
  rw [stringBody] <;> simp [hfeed, hslash]

/-- A string that is closed before a line feed is the same with the line feed behind it. -/
lemma stringBody_lineFeed {quote : Char} {body : List Char}
    (h : (stringBody quote cs).outcome = .ok body) (more : List Char) :
    stringBody quote (cs ++ '\n' :: more) = (stringBody quote cs).before ('\n' :: more) := by
  have hslash {c : Char} {cs : List Char} (hend : c = '\\' → cs = [] → False)
      (hescape : ∀ e ds, c = '\\' → cs = e :: ds → False) : c ≠ '\\' := fun hc => by
    cases cs with
    | nil => exact hend hc rfl
    | cons e ds => exact hescape e ds hc rfl
  fun_induction stringBody quote cs generalizing body with
  | case1 | case2 | case3 | case5 => cases h
  | case4 e cs d hd ih =>
      obtain ⟨inner, hinner⟩ := ok_of_map h
      simp only [List.cons_append, stringBody, hd, ih hinner]
      rfl
  | case6 cs hfeed hend hescape =>
      rw [List.cons_append, stringBody_char hfeed (hslash hend hescape), if_pos rfl]
      rfl
  | case7 c cs hfeed hend hescape hquote ih =>
      obtain ⟨inner, hinner⟩ := ok_of_map h
      rw [List.cons_append, stringBody_char hfeed (hslash hend hescape), if_neg hquote, ih hinner]
      rfl

/-- A number is the same with a line feed behind it: no digit of a fraction follows the feed. -/
lemma number_lineFeed (first : Char) (cs more : List Char) :
    number first (cs ++ '\n' :: more) = (number first cs).before ('\n' :: more) := by
  obtain ⟨htake, hdrop⟩ := span_lineFeed (p := isDigitOrMark) rfl cs more
  simp only [number, htake, hdrop]
  rcases hrest : cs.dropWhile isDigitOrMark with _ | ⟨c, _ | ⟨d, ds⟩⟩
  · rfl
  · by_cases hc : c = '.'
    · subst hc
      rfl
    · simp only [List.cons_append, List.nil_append]
      split <;> simp_all [before]
  · by_cases hc : c = '.'
    · subst hc
      obtain ⟨hplaces, hbehind⟩ := span_lineFeed (p := isDigitOrMark) rfl (d :: ds) more
      rw [List.cons_append] at hplaces hbehind
      simp only [List.cons_append, hplaces, hbehind]
      split <;> rfl
    · simp only [List.cons_append]
      split <;> simp_all [before]

/-- A token that is read before a line feed is the same with the line feed behind it. -/
lemma of_lineFeed {kind : TokenKind} (h : (of c cs).outcome = .ok kind) (more : List Char) :
    of c (cs ++ '\n' :: more) = (of c cs).before ('\n' :: more) := by
  have hnumber : beginsNumber c (cs ++ '\n' :: more) = beginsNumber c cs := by
    cases cs <;> rfl
  unfold of at h ⊢
  split at h
  · rfl
  · rw [hnumber]
    split_ifs at h ⊢ with hquote hdigit hword
    · obtain ⟨body, hbody⟩ := ok_of_map h
      rw [string, stringBody_lineFeed hbody]
      rfl
    · exact number_lineFeed c cs more
    · obtain ⟨htake, hdrop⟩ := span_lineFeed (p := continuesWord) rfl cs more
      rw [word, htake, hdrop]
      rfl

end Reading

/-! ## Open comments -/

namespace OpenComment

variable {tail : List Char}

/-- An open comment takes all that is left. -/
lemma split_block (h : OpenComment tail) (depth : Nat) :
    Gap.split (.block depth) tail = (tail, []) := by
  induction h generalizing depth with
  | nil => rfl
  | @char c cs hmark _ ih =>
      rw [Gap.split, ih]
      · rfl
      · rintro ds rfl rfl
        exact hmark '/' rfl (.inr ⟨rfl, rfl⟩)
      · rintro ds rfl rfl
        exact hmark '*' rfl (.inl ⟨rfl, rfl⟩)
  | nested _ ih =>
      rw [Gap.split, ih]
      rfl
  | comment hinner _ ih =>
      rw [Gap.split, Gap.split_block hinner, Gap.close, ih]
      rfl

/-- Nothing but a closing mark closes a comment. -/
lemma of_no_mark : {cs : List Char} → ¬ ['*', '/'] <:+: cs → OpenComment cs
  | [], _ => .nil
  | [_], _ => .char (fun _ hd => by cases hd) .nil
  | c :: d :: cs, h => by
      by_cases hopen : c = '/' ∧ d = '*'
      · obtain ⟨rfl, rfl⟩ := hopen
        exact .nested (of_no_mark fun hcs =>
          h (hcs.trans (List.suffix_append ['/', '*'] cs).isInfix))
      · refine .char (fun e he => ?_) (of_no_mark fun hcs =>
          h (hcs.trans (List.suffix_cons c _).isInfix))
        cases he
        rintro (hmark | ⟨rfl, rfl⟩)
        · exact hopen hmark
        · exact h (List.prefix_append ['*', '/'] cs).isInfix

/-- A line feed does not close a comment. -/
lemma append_lineFeed (h : OpenComment tail) (hmore : OpenComment more) :
    OpenComment (tail ++ '\n' :: more) := by
  induction h with
  | nil => exact .char (by rintro d - (⟨h, -⟩ | ⟨h, -⟩) <;> cases h) hmore
  | @char c cs hmark _ ih =>
      refine .char (fun d hd => ?_) ih
      -- only where the open comment ends is the line feed the next character
      cases cs with
      | nil =>
          cases hd
          rintro (⟨-, h⟩ | ⟨-, h⟩) <;> cases h
      | cons e cs => exact hmark d hd
  | nested _ ih => exact .nested ih
  | @comment inner cs hinner _ ih =>
      rw [List.cons_append, List.cons_append, List.append_assoc]
      exact .comment hinner ih

end OpenComment

/-- Whether a block comment is open at the end of a text: in its last gap, behind the tokens that
are read before. -/
inductive EndsInComment : List Char → Prop where
  | comment (s : Separator) {tail : List Char} (h : OpenComment tail) :
      EndsInComment (s.chars ++ '/' :: '*' :: tail)
  | behind (s : Separator) {c : Char} {cs : List Char} (hc : c ∉ breakChars)
      (h : EndsInComment (Reading.of c cs).rest) : EndsInComment (s.chars ++ c :: cs)

/-- A comment that is open at the end of a text has been opened in it. -/
lemma EndsInComment.mark {cs : List Char} (h : EndsInComment cs) : ['/', '*'] <:+: cs := by
  induction h with
  | comment s _ => exact ⟨s.chars, _, List.append_assoc _ _ _⟩
  | @behind s c cs _ _ ih =>
      have hrest : (Reading.of c cs).rest <:+ s.chars ++ c :: cs := by
        rw [← Reading.of_split c cs, ← List.append_assoc]
        exact List.suffix_append _ _
      exact ih.trans hrest.isInfix

/-- Behind a token a text ends as what is left of it does. -/
lemma endsInComment_iff (s : Separator) (hc : c ∉ breakChars) :
    EndsInComment (s.chars ++ c :: cs) ↔ EndsInComment (Reading.of c cs).rest := by
  refine ⟨fun h => ?_, .behind s hc⟩
  generalize htext : s.chars ++ c :: cs = text at h
  have hsplit := congrArg (Gap.split .blank) htext
  rw [Gap.split_separator, Gap.split_stop hc] at hsplit
  cases h with
  | comment s' h =>
      rw [Gap.split_separator, Gap.split, h.split_block] at hsplit
      cases congrArg Prod.snd hsplit
  | behind s' hc' h =>
      rw [Gap.split_separator, Gap.split_stop hc'] at hsplit
      obtain ⟨rfl, rfl⟩ := List.cons.inj (congrArg Prod.snd hsplit)
      exact h

/-- A last gap is taken whole. -/
lemma LastGap.split (h : LastGap cs) : Gap.split .blank cs = (cs, []) := by
  have hline {body : List Char} (hbody : '\n' ∉ body) : Gap.split .line body = (body, []) := by
    induction body with
    | nil => rfl
    | cons c body ih =>
        rw [List.mem_cons, not_or] at hbody
        rw [Gap.split, if_neg (Ne.symm hbody.1), ih hbody.2]
        rfl
  cases h with
  | closed s =>
      rw [← List.append_nil s.chars, Gap.split_separator, List.append_nil]
      exact Prod.ext (List.append_nil _) rfl
  | line s hbody =>
      rw [Gap.split_separator, Gap.split, hline hbody]
      rfl
  | block s htail =>
      rw [Gap.split_separator, Gap.split, htail.split_block]
      rfl

/-- A comment that is open at the end of a last gap has been opened in it. -/
lemma LastGap.exists_openComment (h : LastGap cs) (hopen : EndsInComment cs) :
    ∃ (s : Separator) (tail : List Char),
      OpenComment tail ∧ cs = s.chars ++ '/' :: '*' :: tail := by
  cases hopen with
  | @comment s tail htail => exact ⟨s, tail, htail, rfl⟩
  | behind s hc _ =>
      have hsplit := congrArg Prod.snd h.split
      rw [Gap.split_separator, Gap.split_stop hc] at hsplit
      cases hsplit

/-- A line feed ends a last gap that is not an open block comment. -/
lemma LastGap.split_lineFeed (h : LastGap cs) (hopen : ¬ EndsInComment cs) (more : List Char) :
    Gap.split .blank (cs ++ '\n' :: more) =
      Gap.taking (cs ++ ['\n']) (Gap.split .blank more) := by
  cases h with
  | closed s =>
      have hfeed : Gap.split .blank ('\n' :: more) =
          Gap.taking ['\n'] (Gap.split .blank more) := rfl
      rw [Gap.split_separator, hfeed, Gap.taking_taking]
  | line s h =>
      rw [List.append_assoc, Gap.split_separator, List.cons_append, List.cons_append, Gap.split,
        Gap.split_line h, Gap.taking_taking, Gap.taking_taking]
      simp
  | block s h => exact absurd (.comment s h) hopen

namespace Source

variable {p : Position} {rest : List Char} {t : Token} {s : Source}

/-- A gap may be skipped beforehand. -/
lemma next_gap {gap : List Char}
    (h : Gap.split .blank (gap ++ more) = Gap.taking gap (Gap.split .blank more)) :
    next ⟨p, gap ++ more⟩ = next ⟨p.past gap, more⟩ := by
  simp only [next, h, Gap.taking, Position.past_append]

/-- A token is read behind a separator, and read again with a line feed behind it. -/
lemma next_token (h : next ⟨p, rest⟩ = (.ok t, s)) (ht : t.kind ≠ .endOfInput) :
    ∃ (sep : Separator) (c : Char) (cs : List Char), rest = sep.chars ++ c :: cs ∧
      c ∉ breakChars ∧
      s = ⟨p.past (sep.chars ++ (Reading.of c cs).taken), (Reading.of c cs).rest⟩ ∧
      ∀ more, next ⟨p, rest ++ '\n' :: more⟩ =
        (.ok t, ⟨s.position, s.rest ++ '\n' :: more⟩) := by
  have hsplit := Gap.split_append .blank rest
  rcases hgap : Gap.split .blank rest with ⟨gap, _ | ⟨c, cs⟩⟩
  · simp only [next, hgap] at h
    cases h
    exact absurd rfl ht
  · obtain ⟨sep, rfl⟩ := Gap.exists_separator hgap
    rw [hgap] at hsplit
    simp only [next, hgap] at h
    cases houtcome : (Reading.of c cs).outcome with
    | error fault =>
        rw [houtcome] at h
        cases h
    | ok kind =>
        rw [houtcome] at h
        cases h
        have hc : c ∉ breakChars := fun hc => by
          rw [Reading.outcome_of_break c hc] at houtcome
          cases houtcome
        refine ⟨sep, c, cs, hsplit.symm, hc, by rw [Position.past_append], fun more => ?_⟩
        rw [← hsplit, List.append_assoc, List.cons_append]
        simp only [next, Gap.split_separator, Gap.split_stop hc, Gap.taking, List.append_nil,
          Reading.of_lineFeed houtcome, Reading.before, houtcome]

/-- The end of the input is found behind the last gap. -/
lemma next_stop (h : next ⟨p, rest⟩ = (.ok t, s)) (ht : t.kind = .endOfInput) : LastGap rest := by
  refine Gap.lastGap_of_split ?_
  rcases hgap : Gap.split .blank rest with ⟨gap, _ | ⟨c, cs⟩⟩
  · rfl
  · have hend := Reading.outcome_ne_end c cs
    simp only [next, hgap] at h
    cases houtcome : (Reading.of c cs).outcome with
    | error fault =>
        rw [houtcome] at h
        cases h
    | ok kind =>
        rw [houtcome] at h hend
        cases h
        exact absurd (congrArg _ ht) hend

/-- How many tokens are asked for does not matter, as long as they are more than characters. -/
lemma tokens_of_lt {n m : Nat} (hn : s.rest.length < n) (hm : s.rest.length < m) :
    tokens n s = tokens m s := by
  induction n generalizing s m with
  | zero => omega
  | succ n ih =>
      obtain ⟨m, rfl⟩ := Nat.exists_eq_succ_of_ne_zero (Nat.ne_zero_of_lt hm)
      have hshorter := length_next s
      rw [tokens, tokens]
      rcases hnext : next s with ⟨e | t, s'⟩
      · rfl
      · rw [hnext] at hshorter
        dsimp only
        split
        · rfl
        · rename_i hend
          rcases hshorter with ⟨span, hstop⟩ | hshorter
          · cases hstop
            exact absurd rfl hend
          · dsimp only at hshorter
            exact congrArg _ (ih (by omega) (by omega))

/-- A last gap has no token but the end of the input. -/
lemma tokens_stop {before cs : List Char} (h : LastGap cs) (n : Nat) :
    tokens (n + 1) ⟨.past .start before, cs⟩ =
      .ok [⟨.endOfInput, spanBehind (before ++ cs) []⟩] := by
  rw [tokens]
  simp only [next, h.split, ← Position.past_append, spanBehind_eq, List.append_nil, if_true]

lemma tokens_gap {gap : List Char} {n : Nat}
    (h : Gap.split .blank (gap ++ more) = Gap.taking gap (Gap.split .blank more)) :
    tokens (n + 1) ⟨p, gap ++ more⟩ = tokens (n + 1) ⟨p.past gap, more⟩ := by
  rw [tokens, tokens, next_gap h]

/-- Tokens are the end of the input, or a token and the tokens behind it. -/
lemma tokens_ok {n : Nat} {ts : List Token} (h : tokens (n + 1) s = .ok ts) :
    ∃ t s', next s = (.ok t, s') ∧ ((t.kind = .endOfInput ∧ ts = [t]) ∨
      (t.kind ≠ .endOfInput ∧ ∃ us, ts = t :: us ∧ tokens n s' = .ok us)) := by
  rw [tokens] at h
  rcases hnext : next s with ⟨e | t, s'⟩
  · rw [hnext] at h
    cases h
  · rw [hnext] at h
    dsimp only at h
    refine ⟨t, s', rfl, ?_⟩
    split at h
    · rename_i hend
      cases h
      exact Or.inl ⟨hend, rfl⟩
    · rename_i hend
      cases hus : tokens n s' with
      | error e =>
          rw [hus] at h
          cases h
      | ok us =>
          rw [hus] at h
          cases h
          exact Or.inr ⟨hend, us, rfl, rfl⟩

/-- A fault is the next item, or it is found behind a token. -/
lemma tokens_error {n : Nat} {e : ScanError} (h : tokens (n + 1) s = .error e) :
    ∃ s', next s = (.error e, s') ∨ ∃ t, next s = (.ok t, s') ∧ tokens n s' = .error e := by
  rw [tokens] at h
  rcases hnext : next s with ⟨e' | t, s'⟩
  · rw [hnext] at h
    cases h
    exact ⟨s', Or.inl rfl⟩
  · rw [hnext] at h
    dsimp only at h
    split at h
    · cases h
    · cases hus : tokens n s' with
      | error e' =>
          rw [hus] at h
          cases h
          exact ⟨s', Or.inr ⟨t, rfl, hus⟩⟩
      | ok us =>
          rw [hus] at h
          cases h

/-- A text that is scanned well ends here, or has a token and another such text. -/
lemma tokens_succ_ok {n : Nat} {ts : List Token} (h : tokens (n + 1) ⟨p, rest⟩ = .ok ts) :
    (∃ stop, ts = [⟨.endOfInput, stop⟩] ∧ LastGap rest) ∨
      ∃ (t : Token) (us : List Token) (sep : Separator) (c : Char) (cs : List Char),
        ts = t :: us ∧ t.kind ≠ .endOfInput ∧ rest = sep.chars ++ c :: cs ∧ c ∉ breakChars ∧
        tokens n ⟨p.past (sep.chars ++ (Reading.of c cs).taken), (Reading.of c cs).rest⟩ = .ok us ∧
        ∀ more, next ⟨p, rest ++ '\n' :: more⟩ =
          (.ok t, ⟨p.past (sep.chars ++ (Reading.of c cs).taken),
            (Reading.of c cs).rest ++ '\n' :: more⟩) := by
  obtain ⟨t, s', hnext, ⟨hend, rfl⟩ | ⟨hend, us, rfl, hus⟩⟩ := tokens_ok h
  · exact Or.inl ⟨t.span, by rw [← hend], next_stop hnext hend⟩
  · obtain ⟨sep, c, cs, hrest, hc, rfl, hjoin⟩ := next_token hnext hend
    exact Or.inr ⟨t, us, sep, c, cs, rfl, hend, hrest, hc, hus, hjoin⟩

/-- Tokens end with the end of the input, and those before the last gap of a text stay as they are
when another text follows on a line of its own. -/
lemma tokens_lineFeed {n : Nat} {ts : List Token} (h : tokens n ⟨p, rest⟩ = .ok ts)
    (hn : rest.length < n) :
    ∃ us stop before gap, ts = us ++ [⟨.endOfInput, stop⟩] ∧ rest = before ++ gap ∧ LastGap gap ∧
      (EndsInComment rest ↔ EndsInComment gap) ∧ ∀ (more : List Char) (m k : Nat),
        (rest ++ '\n' :: more).length < m → (gap ++ '\n' :: more).length < k →
        tokens m ⟨p, rest ++ '\n' :: more⟩ =
          (us ++ ·) <$> tokens k ⟨p.past before, gap ++ '\n' :: more⟩ := by
  induction n generalizing p rest ts with
  | zero => omega
  | succ n ih =>
      rcases tokens_succ_ok h with ⟨stop, rfl, hgap⟩ |
        ⟨t, us, sep, c, cs, rfl, hend, rfl, hc, hus, hjoin⟩
      · refine ⟨[], stop, [], rest, rfl, rfl, hgap, Iff.rfl, fun more m k hm hk => ?_⟩
        rw [tokens_of_lt hm hk, Position.past_nil]
        exact (id_map _).symm
      · have hshorter := Reading.length_rest_of c cs
        rw [List.length_append, List.length_cons] at hn
        obtain ⟨us, stop, before, gap, rfl, hsplit, hgap, hends, ih⟩ := ih hus (by omega)
        refine ⟨t :: us, stop, sep.chars ++ (Reading.of c cs).taken ++ before, gap, rfl, ?_, hgap,
          (endsInComment_iff sep hc).trans hends, fun more m k hm hk => ?_⟩
        · rw [List.append_assoc, List.append_assoc, ← hsplit, Reading.of_split]
        · obtain ⟨m, rfl⟩ := Nat.exists_eq_succ_of_ne_zero (Nat.ne_zero_of_lt hm)
          have hmore : ((Reading.of c cs).rest ++ '\n' :: more).length < m := by
            simp only [List.length_append, List.length_cons] at hm ⊢
            omega
          rw [tokens, hjoin]
          dsimp only
          rw [if_neg hend, ih more m k hmore hk, Position.past_append _ _ before]
          rcases tokens k _ with e | ws <;> rfl

end Source

/-! ## Texts -/

/-- Behind a text and a line feed a place is the beginning of a text, moved by both of them. -/
lemma Position.past_lineFeed (cs : List Char) :
    start.past (cs ++ ['\n']) =
      start.moved ((String.ofList cs).utf8ByteSize + 1) (cs.count '\n' + 1) := by
  have hfeed : '\n'.utf8Size = 1 := rfl
  rw [past_append, start_past, past_cons, past_nil, step, if_pos rfl, hfeed]
  simp only [start, moved, Nat.zero_add, Nat.add_comm]

lemma tokenize_eq (text : String) :
    tokenize text = Source.tokens (text.toList.length + 1) ⟨.start, text.toList⟩ := rfl

/-- Where a text is scanned well and does not end in an open comment, a text behind it, on a line of
its own, is scanned as it is scanned alone: it has a fault if it has one alone, and else the tokens
of both stand one behind the other, without the end of the first text.  The places in the second
text are those that it has alone, moved by the bytes and the lines before it. -/
theorem tokenize_join {a : String} {ts : List Token} (ha : tokenize a = .ok ts)
    (hopen : ¬ EndsInComment a.toList) (b : String) :
    tokenize (a ++ "\n" ++ b) =
      ((tokenize b).map fun us =>
        ts.dropLast ++ us.map (.moved (a.utf8ByteSize + 1) (a.toList.count '\n' + 1))).mapError
          (.moved (a.utf8ByteSize + 1) (a.toList.count '\n' + 1)) := by
  obtain ⟨us, stop, before, gap, rfl, hsplit, hgap, hends, hjoin⟩ :=
    Source.tokens_lineFeed ha (Nat.lt_succ_self _)
  -- the last gap of `a` ends with the line feed, and behind it the scanner begins with `b`
  have hskip := hgap.split_lineFeed (mt hends.mpr hopen) b.toList
  rw [List.append_cons] at hskip
  have hb : Source.tokens ((gap ++ '\n' :: b.toList).length + 1)
        ⟨Position.start.past before, gap ++ '\n' :: b.toList⟩ =
      Source.tokens (b.toList.length + 1)
        ⟨Position.start.moved (a.utf8ByteSize + 1) (a.toList.count '\n' + 1), b.toList⟩ := by
    rw [List.append_cons, Source.tokens_gap hskip, ← Position.past_append, ← List.append_assoc,
      ← hsplit, Position.past_lineFeed, String.ofList_toList]
    exact Source.tokens_of_lt (by simp; omega) (Nat.lt_succ_self _)
  have htext : (a ++ "\n" ++ b).toList = a.toList ++ '\n' :: b.toList := by simp
  rw [tokenize_eq, htext, hjoin b.toList _ _ (Nat.lt_succ_self _) (Nat.lt_succ_self _), hb,
    Source.moved_tokens, List.dropLast_concat, tokenize_eq]
  rcases Source.tokens (b.toList.length + 1) ⟨.start, b.toList⟩ with e | ws <;> rfl

/-- A word and a line comment before a word and a fault. -/
theorem tokenize_join_sample :
    tokenize "xé//" = .ok [⟨.name "xé", ⟨0, 3, 1, 1⟩⟩, ⟨.endOfInput, ⟨5, 5, 1, 5⟩⟩] ∧
      ¬ EndsInComment "xé//".toList ∧
      tokenize ("xé//" ++ "\n" ++ "y") = .ok [⟨.name "xé", ⟨0, 3, 1, 1⟩⟩,
        ⟨.name "y", ⟨6, 7, 2, 1⟩⟩, ⟨.endOfInput, ⟨7, 7, 2, 2⟩⟩] ∧
      tokenize ("xé//" ++ "\n" ++ "$") = .error ⟨.unexpectedChar '$', ⟨6, 7, 2, 1⟩⟩ := by
  have ha : tokenize "xé//" = .ok [⟨.name "xé", ⟨0, 3, 1, 1⟩⟩, ⟨.endOfInput, ⟨5, 5, 1, 5⟩⟩] := rfl
  have hopen : ¬ EndsInComment "xé//".toList := mt EndsInComment.mark (by decide)
  exact ⟨ha, hopen, tokenize_join ha hopen "y", tokenize_join ha hopen "$"⟩

/-- Where a text ends in an open comment, a text behind it on a line of its own is part of the
comment.  Without a closing mark in it all its tokens and all its faults are lost. -/
theorem tokenize_lost {a : String} {ts : List Token} (ha : tokenize a = .ok ts)
    (hopen : EndsInComment a.toList) {b : String} (hb : ¬ ['*', '/'] <:+: b.toList) :
    tokenize (a ++ "\n" ++ b) =
      .ok (ts.dropLast ++ [⟨.endOfInput, spanBehind (a ++ "\n" ++ b).toList []⟩]) := by
  obtain ⟨us, stop, before, gap, rfl, hsplit, hgap, hends, hjoin⟩ :=
    Source.tokens_lineFeed ha (Nat.lt_succ_self _)
  obtain ⟨s, tail, htail, rfl⟩ := hgap.exists_openComment (hends.mp hopen)
  -- the line feed and `b` go on with the comment, so they are a part of the last gap
  have hlost := LastGap.block s (htail.append_lineFeed (.of_no_mark hb))
  have htext : (a ++ "\n" ++ b).toList = a.toList ++ '\n' :: b.toList := by simp
  have hgap : s.chars ++ '/' :: '*' :: tail ++ '\n' :: b.toList =
      s.chars ++ '/' :: '*' :: (tail ++ '\n' :: b.toList) := by simp
  rw [tokenize_eq, htext, hjoin b.toList _ _ (Nat.lt_succ_self _) (Nat.lt_succ_self _), hgap,
    Source.tokens_stop hlost, List.dropLast_concat, ← hgap, ← List.append_assoc, ← hsplit]
  rfl

/-- Behind an opening mark a word is lost: it is neither scanned, as it is alone, nor is there a
fault. -/
theorem tokenize_join_open_comment :
    tokenize "/*" = .ok [⟨.endOfInput, ⟨2, 2, 1, 3⟩⟩] ∧
      tokenize "x" = .ok [⟨.name "x", ⟨0, 1, 1, 1⟩⟩, ⟨.endOfInput, ⟨1, 1, 1, 2⟩⟩] ∧
      tokenize ("/*" ++ "\n" ++ "x") = .ok [⟨.endOfInput, ⟨4, 4, 2, 2⟩⟩] ∧
      ¬ ∀ (a b : String) (ts us : List Token), tokenize a = .ok ts → tokenize b = .ok us →
        tokenize (a ++ "\n" ++ b) = .ok (ts.dropLast ++
          us.map (.moved (a.utf8ByteSize + 1) (a.toList.count '\n' + 1))) := by
  refine ⟨rfl, rfl, rfl, fun hjoin => ?_⟩
  have hlost := hjoin "/*" "x" _ _ rfl rfl
  cases hlost

end TypedConfig
