import TypedConfig.Proofs.Tokenizing

/-!
# Scanning covers the text

Asked again and again, also behind faults, the scanner cuts a text into gaps and items, and nothing
is lost or taken twice (`scan_covers`).  Every item takes characters, so the end of the text is
reached, and from then on the scanner stays there.

**Gaps.** What is skipped before an item is a separator, whatever the item is.  Only behind the last
item may a comment be open, since then there is nothing left that it could have closed before.

**Places.** An item stands where the characters it has taken stand, also a fault: the scanner goes
on behind what it has taken and not where the fault was seen.
-/

namespace TypedConfig

/-! ## The last gap -/

/-- The text of a block comment behind its opening, up to the end of the input, when nothing closes
the comment. -/
inductive OpenComment : List Char → Prop where
  | nil : OpenComment []
  | char {c : Char} {cs : List Char} :
      (∀ d ∈ cs.head?, ¬ IsCommentMark c d) → OpenComment cs → OpenComment (c :: cs)
  | nested {cs : List Char} : OpenComment cs → OpenComment ('/' :: '*' :: cs)
  | comment {inner cs : List Char} :
      ClosesComment inner → OpenComment cs → OpenComment ('/' :: '*' :: (inner ++ cs))

/-- What may stand behind the last item of a text: a separator, and then perhaps a line comment
that the end of the text ends, or a block comment that is still open there. -/
inductive LastGap : List Char → Prop where
  | closed (s : Separator) : LastGap s.chars
  | line (s : Separator) {body : List Char} (h : '\n' ∉ body) :
      LastGap (s.chars ++ '/' :: '/' :: body)
  | block (s : Separator) {tail : List Char} (h : OpenComment tail) :
      LastGap (s.chars ++ '/' :: '*' :: tail)

lemma Separator.chars_cons (f : Filler) (s : Separator) :
    chars (f :: s) = f.chars ++ s.chars :=
  List.flatMap_cons

lemma LastGap.filler {cs : List Char} (f : Filler) (h : LastGap cs) : LastGap (f.chars ++ cs) := by
  cases h with
  | closed s =>
      rw [← Separator.chars_cons]
      exact .closed (f :: s)
  | line s h =>
      rw [← List.append_assoc, ← Separator.chars_cons]
      exact .line (f :: s) h
  | block s h =>
      rw [← List.append_assoc, ← Separator.chars_cons]
      exact .block (f :: s) h

namespace Gap

/-- What is left of a text that ends in a gap, seen from a place in it. -/
inductive Ends : Gap → List Char → Prop where
  | blank {cs : List Char} (h : LastGap cs) : Ends blank cs
  | line {body : List Char} (h : '\n' ∉ body) : Ends line body
  | lineEnd {body cs : List Char} (h : '\n' ∉ body) (hcs : LastGap cs) :
      Ends line (body ++ '\n' :: cs)
  | opened {depth : Nat} {cs : List Char} (h : OpenComment cs) : Ends (block depth) cs
  | closed {depth : Nat} {tail more : List Char} (h : ClosesComment tail)
      (hmore : Ends (close depth) more) : Ends (block depth) (tail ++ more)

namespace Ends

variable {cs : List Char} {c : Char} {depth : Nat}

lemma lineComment (h : Ends .line cs) : Ends .blank ('/' :: '/' :: cs) := by
  cases h with
  | line h => exact .blank (.line [] h)
  | @lineEnd body cs h hcs =>
      rw [List.append_cons]
      exact .blank (hcs.filler (.line body h))

lemma blockComment (h : Ends (.block 0) cs) : Ends .blank ('/' :: '*' :: cs) := by
  cases h with
  | opened h => exact .blank (.block [] h)
  | closed htail hmore =>
      cases hmore with
      | blank hcs => exact .blank (hcs.filler (.block _ htail))

lemma newline (h : Ends .blank cs) : Ends .line ('\n' :: cs) := by
  cases h with
  | blank h => exact @lineEnd [] cs List.not_mem_nil h

lemma lineChar (hc : c ≠ '\n') (h : Ends .line cs) : Ends .line (c :: cs) := by
  cases h with
  | line h => exact .line (by simp [h, hc.symm])
  | @lineEnd body cs h hcs => exact @lineEnd (c :: body) cs (by simp [h, hc.symm]) hcs

lemma nested (h : Ends (.block (depth + 1)) cs) : Ends (.block depth) ('/' :: '*' :: cs) := by
  cases h with
  | opened h => exact .opened (.nested h)
  | closed hinner hmore =>
      cases hmore with
      | opened h => exact .opened (.comment hinner h)
      | closed htail hmore =>
          rw [← List.append_assoc]
          exact .closed (.comment hinner htail) hmore

lemma blockChar (hmark : ∀ d ∈ cs.head?, ¬ IsCommentMark c d) (h : Ends (.block depth) cs) :
    Ends (.block depth) (c :: cs) := by
  cases h with
  | opened h => exact .opened (.char hmark h)
  | @closed _ tail more htail hmore =>
      cases tail with
      | nil => cases htail
      | cons d tail => exact @closed _ (c :: d :: tail) _ (.char (hmark d rfl) htail) hmore

end Ends

/-- A character of a block comment at which neither rule for marks applies begins no mark. -/
lemma not_mark_of_rules {c : Char} {cs : List Char}
    (hclose : ∀ ds, c = '*' → cs = '/' :: ds → False)
    (hopen : ∀ ds, c = '/' → cs = '*' :: ds → False) : ∀ d ∈ cs.head?, ¬ IsCommentMark c d := by
  intro d hd hmark
  obtain ⟨ds, rfl⟩ := List.head?_eq_some_iff.mp hd
  obtain ⟨rfl, rfl⟩ | ⟨rfl, rfl⟩ := hmark
  · exact hopen ds rfl rfl
  · exact hclose ds rfl rfl

/-- A gap that nothing follows ends the text. -/
lemma ends_of_split (g : Gap) (cs : List Char) (h : (split g cs).2 = []) : Ends g cs := by
  fun_induction split g cs with
  | case1 cs ih => exact (ih h).lineComment
  | case2 cs ih => exact (ih h).blockComment
  | case3 c cs _ _ hc ih =>
      cases ih h with
      | blank hcs =>
          exact .blank (hcs.filler (.blank c (by simpa [isBlank, or_assoc] using hc)))
  | case4 => exact absurd h (List.cons_ne_nil _ _)
  | case5 c cs ih =>
      by_cases hc : c = '\n'
      · rw [if_pos hc] at ih h
        rw [hc]
        exact (ih h).newline
      · rw [if_neg hc] at ih h
        exact (ih h).lineChar hc
  | case6 depth cs ih => exact .closed .close (ih h)
  | case7 depth cs ih => exact (ih h).nested
  | case8 depth c cs hclose hopen ih =>
      exact (ih h).blockChar (not_mark_of_rules hclose hopen)
  | case9 g =>
      cases g with
      | blank => exact .blank (.closed [])
      | line => exact .line List.not_mem_nil
      | block => exact .opened .nil

lemma lastGap_of_split {cs : List Char} (h : (split blank cs).2 = []) : LastGap cs := by
  cases ends_of_split blank cs h with
  | blank h => exact h

end Gap

/-! ## Places -/

/-- Whether a span marks a part of a text: it runs from one character boundary to another one behind
it, and its line and column are those of the place where it begins. -/
def Span.Marks (s : Span) (text : String) : Prop :=
  ∃ before chars after, text.toList = before ++ chars ++ after ∧ s = spanBehind before chars

/-- Characters take bytes. -/
lemma utf8ByteSize_pos {cs : List Char} (h : cs ≠ []) : 0 < (String.ofList cs).utf8ByteSize := by
  obtain ⟨c, cs, rfl⟩ := List.exists_cons_of_ne_nil h
  have hc := c.utf8Size_pos
  rw [← List.singleton_append, utf8ByteSize_append, ← String.singleton_eq_ofList,
    String.utf8ByteSize_singleton]
  omega

/-- A span that marks a part of a text begins before it ends and ends inside the text. -/
lemma Span.Marks.bounds {s : Span} {text : String} (h : s.Marks text) :
    s.start ≤ s.stop ∧ s.stop ≤ text.utf8ByteSize := by
  obtain ⟨before, chars, after, htext, rfl⟩ := h
  have hsize := congrArg (fun cs => (String.ofList cs).utf8ByteSize) htext
  simp only [String.ofList_toList, utf8ByteSize_append] at hsize
  simp only [spanBehind, utf8ByteSize_append]
  omega

/-! ## Items -/

/-- What the scanner gives when it is asked for a token: a token or a fault. -/
abbrev ScanItem := Except ScanError Token

namespace ScanItem

/-- The part of the text that an item shows. -/
def span : ScanItem → Span
  | .ok t => t.span
  | .error e => e.span

/-- Whether an item is the token for the end of the input. -/
def isEnd : ScanItem → Bool
  | .ok t => t.kind = .endOfInput
  | .error _ => false

end ScanItem

/-- The source behind the first `k` items, faults included. -/
def Source.behind : Nat → Source → Source
  | 0, s => s
  | k + 1, s => behind k s.next.2

/-- What the scanner gives for a text when it has been asked `k` times before. -/
def scanned (text : String) (k : Nat) : ScanItem := ((Source.ofString text).behind k).next.1

/-- A gap and the characters of the item behind it. -/
structure Piece where
  gap : Separator
  taken : List Char
  taken_ne : taken ≠ []

/-- The characters of a piece. -/
def Piece.chars (p : Piece) : List Char := p.gap.chars ++ p.taken

/-- No reading says that the input ends. -/
lemma Reading.outcome_ne_end (c : Char) (cs : List Char) :
    (of c cs).outcome ≠ .ok .endOfInput := by
  intro h
  unfold of at h
  split at h
  · cases h
  · split at h
    · rw [string, after, map] at h
      cases hbody : (stringBody c cs).outcome with
      | ok body => rw [hbody] at h; cases h
      | error fault => rw [hbody] at h; cases h
    · split at h
      · unfold number at h
        dsimp only at h
        split at h
        · split at h
          · cases h
          · split at h <;> cases h
        · split at h <;> cases h
      · split at h
        · rw [word] at h
          dsimp only at h
          rw [TokenKind.ofWord, TokenKind.ofWord?] at h
          split_ifs at h <;> cases h
        · cases h

/-- A reading takes something. -/
lemma Reading.taken_ne_nil (c : Char) (cs : List Char) : (of c cs).taken ≠ [] := by
  intro h
  have hsplit := of_split c cs
  have hlength := length_rest_of c cs
  rw [h, List.nil_append] at hsplit
  rw [hsplit, List.length_cons] at hlength
  omega

namespace Source

/-- The scanner finds the end of the text behind a gap, or a gap and an item. -/
lemma next_cases (before rest : List Char) :
    (LastGap rest ∧ next ⟨.past .start before, rest⟩ =
        (.ok ⟨.endOfInput, spanBehind (before ++ rest) []⟩, ⟨.past .start (before ++ rest), []⟩)) ∨
      ∃ (p : Piece) (more : List Char), rest = p.chars ++ more ∧
        (next ⟨.past .start before, rest⟩).2 = ⟨.past .start (before ++ p.chars), more⟩ ∧
        ScanItem.isEnd (next ⟨.past .start before, rest⟩).1 = false ∧
        ScanItem.span (next ⟨.past .start before, rest⟩).1 =
          spanBehind (before ++ p.gap.chars) p.taken := by
  have hsplit := Gap.split_append .blank rest
  rcases hgap : Gap.split .blank rest with ⟨gap, _ | ⟨c, cs⟩⟩
  · rw [hgap, List.append_nil] at hsplit
    refine Or.inl ⟨Gap.lastGap_of_split (by rw [hgap]), ?_⟩
    simp only [next, hgap, hsplit, ← Position.past_append, spanBehind_eq, List.append_nil]
  · obtain ⟨s, rfl⟩ := Gap.exists_separator hgap
    rw [hgap] at hsplit
    let p : Piece := ⟨s, (Reading.of c cs).taken, Reading.taken_ne_nil c cs⟩
    refine Or.inr ⟨p, (Reading.of c cs).rest, ?_, ?_, ?_, ?_⟩
    · rw [Piece.chars, List.append_assoc, Reading.of_split, ← hsplit]
    · simp only [next, hgap, Piece.chars, p, ← Position.past_append, List.append_assoc]
    · have hend := Reading.outcome_ne_end c cs
      simp only [next, hgap]
      cases houtcome : (Reading.of c cs).outcome with
      | ok kind =>
          rw [houtcome] at hend
          exact decide_eq_false fun hkind => hend (congrArg _ hkind)
      | error fault => rfl
    · simp only [next, hgap, ← Position.past_append, spanBehind_eq]
      cases (Reading.of c cs).outcome <;> rfl

/-- At the end of the text the scanner stays. -/
lemma behind_end (before : List Char) (k : Nat) :
    (Source.behind k ⟨.past .start before, []⟩).next.1 =
      .ok ⟨.endOfInput, spanBehind before []⟩ := by
  have hend : next ⟨.past .start before, []⟩ =
      (.ok ⟨.endOfInput, spanBehind before []⟩, ⟨.past .start before, []⟩) := by
    have hend := next_end before []
    rwa [Separator.chars, List.flatMap_nil, List.append_nil] at hend
  induction k with
  | zero => rw [behind, hend]
  | succ k ih => rw [behind, hend, ih]

/-- What is left of a text is cut into pieces, one for each item, and the last gap. -/
lemma exists_pieces (before rest : List Char) :
    ∃ (pieces : List Piece) (last : List Char),
      rest = pieces.flatMap Piece.chars ++ last ∧ LastGap last ∧
      (∀ done p more, pieces = done ++ p :: more →
        ScanItem.isEnd (behind done.length ⟨.past .start before, rest⟩).next.1 = false ∧
        ScanItem.span (behind done.length ⟨.past .start before, rest⟩).next.1 =
          spanBehind (before ++ done.flatMap Piece.chars ++ p.gap.chars) p.taken) ∧
      ∀ k, pieces.length ≤ k → (behind k ⟨.past .start before, rest⟩).next.1 =
        .ok ⟨.endOfInput, spanBehind (before ++ rest) []⟩ := by
  rcases next_cases before rest with ⟨hlast, hnext⟩ | ⟨p, more, hrest, hnext, hend, hspan⟩
  · refine ⟨[], rest, rfl, hlast, fun done p more h => ?_, fun k _ => ?_⟩
    · exact absurd h (by simp)
    · cases k with
      | zero => rw [behind, hnext]
      | succ k => rw [behind, hnext, behind_end]
  · have hshorter : more.length < rest.length := by
      have htaken := List.length_pos_iff.mpr p.taken_ne
      rw [hrest, Piece.chars, List.length_append, List.length_append]
      omega
    obtain ⟨pieces, last, hmore, hlast, hitems, hstop⟩ := exists_pieces (before ++ p.chars) more
    refine ⟨p :: pieces, last, ?_, hlast, fun done q post h => ?_, fun k hk => ?_⟩
    · rw [hrest, hmore, List.flatMap_cons, List.append_assoc]
    · cases done with
      | nil =>
          obtain ⟨rfl, -⟩ := List.cons.inj h
          rw [List.flatMap_nil, List.append_nil]
          exact ⟨hend, hspan⟩
      | cons r done =>
          obtain ⟨rfl, hpieces⟩ := List.cons.inj h
          rw [List.length_cons, behind, hnext, List.flatMap_cons, ← List.append_assoc]
          exact hitems done q post hpieces
    · obtain ⟨k, rfl⟩ := Nat.exists_eq_succ_of_ne_zero (Nat.ne_zero_of_lt hk)
      rw [behind, hnext, hrest, ← List.append_assoc]
      exact hstop k (Nat.le_of_succ_le_succ hk)
termination_by rest.length

end Source

/-! ## Whole texts -/

/-- The end of the input stands at the end of the text and is empty. -/
lemma spanBehind_text (text : String) :
    (spanBehind text.toList []).start = text.utf8ByteSize ∧
      (spanBehind text.toList []).stop = text.utf8ByteSize := by
  simp [spanBehind]

/-- Whether the scanner cuts a text into the given pieces and last gap: together they are the text,
each piece is the gap and the characters of one item, and behind them is the end of the input. -/
structure IsCutInto (text : String) (pieces : List Piece) (last : List Char) : Prop where
  chars : text.toList = pieces.flatMap Piece.chars ++ last
  lastGap : LastGap last
  item : ∀ done p more, pieces = done ++ p :: more →
    (scanned text done.length).isEnd = false ∧
      (scanned text done.length).span =
        spanBehind (done.flatMap Piece.chars ++ p.gap.chars) p.taken
  stop : ∀ k, pieces.length ≤ k →
    scanned text k = .ok ⟨.endOfInput, spanBehind text.toList []⟩

lemma exists_isCutInto (text : String) : ∃ pieces last, IsCutInto text pieces last := by
  obtain ⟨pieces, last, htext, hlast, hitem, hstop⟩ := Source.exists_pieces [] text.toList
  exact ⟨pieces, last, htext, hlast, hitem, hstop⟩

namespace IsCutInto

variable {text : String} {pieces : List Piece} {last : List Char}

/-- Every piece takes a character of the text. -/
lemma length_le (h : IsCutInto text pieces last) : pieces.length ≤ text.length := by
  have hpieces : pieces.length ≤ (pieces.flatMap Piece.chars).length :=
    length_le_flatMap (fun p => List.append_ne_nil_of_right_ne_nil _ p.taken_ne) pieces
  have hsum := congrArg List.length h.chars
  rw [String.length_toList, List.length_append] at hsum
  omega

/-- An item belongs to a piece or is the end of the input. -/
lemma piece_or_stop (h : IsCutInto text pieces last) (k : Nat) :
    (∃ done p more, pieces = done ++ p :: more ∧ done.length = k) ∨
      scanned text k = .ok ⟨.endOfInput, spanBehind text.toList []⟩ := by
  rcases Nat.lt_or_ge k pieces.length with hk | hk
  · exact Or.inl ⟨pieces.take k, pieces[k], pieces.drop (k + 1), by simp, by simp; omega⟩
  · exact Or.inr (h.stop k hk)

lemma marks (h : IsCutInto text pieces last) (k : Nat) : (scanned text k).span.Marks text := by
  rcases h.piece_or_stop k with ⟨done, p, more, rfl, rfl⟩ | hstop
  · refine ⟨_, _, more.flatMap Piece.chars ++ last, ?_, (h.item done p more rfl).2⟩
    simp [h.chars, Piece.chars]
  · rw [hstop]
    exact ⟨text.toList, [], [], by simp, rfl⟩

/-- Only the end of the input shows an empty part of the text. -/
lemma start_lt_stop (h : IsCutInto text pieces last) {k : Nat}
    (hitem : (scanned text k).isEnd = false) :
    (scanned text k).span.start < (scanned text k).span.stop := by
  rcases h.piece_or_stop k with ⟨done, p, more, rfl, rfl⟩ | hstop
  · have htaken := utf8ByteSize_pos p.taken_ne
    rw [(h.item done p more rfl).2]
    simp only [spanBehind, utf8ByteSize_append]
    omega
  · rw [hstop] at hitem
    cases hitem

/-- An item begins where the one before it has ended, or later. -/
lemma stop_le_start (h : IsCutInto text pieces last) (k : Nat) :
    (scanned text k).span.stop ≤ (scanned text (k + 1)).span.start := by
  rcases h.piece_or_stop (k + 1) with ⟨done, p, more, hpieces, hk⟩ | hstop
  · obtain rfl | ⟨done, q, rfl⟩ := done.eq_nil_or_concat
    · cases hk
    · -- the item before is that of the piece before
      obtain rfl : done.length = k := by simpa using hk
      rw [List.concat_append] at hpieces
      have hitem := (h.item (done ++ [q]) p more (by simp [hpieces])).2
      rw [List.length_append, List.length_singleton] at hitem
      rw [(h.item done q (p :: more) hpieces).2, hitem]
      simp only [spanBehind, List.flatMap_append, List.flatMap_singleton, Piece.chars,
        utf8ByteSize_append]
      omega
  · rw [hstop]
    have hbounds := (h.marks k).bounds.2
    rw [← (spanBehind_text text).1] at hbounds
    exact hbounds

end IsCutInto

/-- The scanner, asked for one item after the other and also behind faults, cuts a text into pieces
and a last gap:

* the pieces and the last gap are the whole text; each piece is a separator and some characters
  that have been taken, and there are at most as many pieces as characters;
* the item of a piece is not the end of the input, and shows the characters taken for it;
* behind the last piece every item is the end of the input, at the end of the text;
* every item shows a part of the text, none begins before the one ahead of it has ended, and only
  the end of the input shows an empty part. -/
theorem scan_covers (text : String) :
    ∃ (pieces : List Piece) (last : List Char),
      text.toList = pieces.flatMap Piece.chars ++ last ∧ LastGap last ∧
      pieces.length ≤ text.length ∧
      (∀ done p more, pieces = done ++ p :: more →
        (scanned text done.length).isEnd = false ∧
        (scanned text done.length).span =
          spanBehind (done.flatMap Piece.chars ++ p.gap.chars) p.taken) ∧
      (∀ k, pieces.length ≤ k → ∃ span, scanned text k = .ok ⟨.endOfInput, span⟩ ∧
        span = spanBehind text.toList [] ∧ span.start = text.utf8ByteSize ∧
        span.stop = text.utf8ByteSize) ∧
      ∀ k, (scanned text k).span.Marks text ∧
        (scanned text k).span.stop ≤ (scanned text (k + 1)).span.start ∧
        ((scanned text k).isEnd = false →
          (scanned text k).span.start < (scanned text k).span.stop) := by
  obtain ⟨pieces, last, h⟩ := exists_isCutInto text
  refine ⟨pieces, last, h.chars, h.lastGap, h.length_le, h.item, fun k hk => ?_, fun k => ?_⟩
  · exact ⟨_, h.stop k hk, rfl, spanBehind_text text⟩
  · exact ⟨h.marks k, h.stop_le_start k, h.start_lt_stop⟩

/-- Behind an escape that there is not, the scanner goes on in the string, and its closing quote opens
another one. -/
example : (List.range 4).map (scanned "'\\q'") = [
    .error ⟨.invalidEscape 'q', ⟨0, 2, 1, 1⟩⟩, .ok ⟨.name "q", ⟨2, 3, 1, 3⟩⟩,
    .error ⟨.unterminatedString, ⟨3, 4, 1, 4⟩⟩, .ok ⟨.endOfInput, ⟨4, 4, 1, 5⟩⟩] := rfl

end TypedConfig
