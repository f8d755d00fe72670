import Mathlib.Data.List.TakeWhile
import TypedConfig.Proofs.Cursors
import TypedConfig.Proofs.LookAhead
import TypedConfig.Proofs.ParserSpans
import TypedConfig.Proofs.WellFormed

/-!
# Every walk comes to an end

A walk over a vector of tokens has nothing that would end it and may look where no token is; a
parser takes tokens from a stream, and bounds keep it from going on for ever.  Both do the same if
the walk has a turn for every token (`Walk.follows_program`): so walks end, and bounds cut nothing
short.

**The cursor and the stream.** `Cursor.Shows` says that the cursor stands where the stream does: the
tokens from the cursor to the first end of the input are those of the stream.

**Why a walk ends.** `Walk.Follows n` compares a walk with a parser on fewer than `n` tokens.  Every
turn of a loop and every recursion takes a token first, so what is done behind it is compared on
fewer tokens, and on none there is nothing to compare.

**The token before the cursor** is looked at only behind a token that has been taken, so it is the
last one of the stream.
-/

namespace TypedConfig

/-! ## Where the cursor stands -/

/-- Whether the cursor stands where the stream does.  It has come there without going back. -/
structure Cursor.Shows (tokens : List Token) (c : Cursor) (s : TokenStream) : Prop where
  rest : ∃ behind, tokens.drop c.index = s.rest ++ ⟨.endOfInput, s.stop⟩ :: behind
  plain : ∀ t ∈ tokens.take c.index ++ s.rest, t.kind ≠ .endOfInput
  last : ∀ t ∈ tokens[c.index - 1]?, 0 < c.index → s.last = t.span
  sorted : c.places.Pairwise (· ≥ ·)

lemma firstEnd_append {ts us : List Token} {stop : Span} (h : ∀ t ∈ ts, t.kind ≠ .endOfInput) :
    firstEnd (ts ++ ⟨.endOfInput, stop⟩ :: us) = ts.length := by
  induction ts with
  | nil => rfl
  | cons t ts ih =>
      obtain ⟨ht, hts⟩ := List.forall_mem_cons.mp h
      rw [List.cons_append, firstEnd, List.findIdx_cons, decide_eq_false ht, cond_false,
        List.length_cons]
      exact congrArg Nat.succ (ih hts)

namespace Cursor.Shows

variable {tokens : List Token} {c : Cursor} {s : TokenStream}

/-- The cursor and the tokens of the stream make up all that stands before the first end. -/
lemma firstEnd_eq (h : c.Shows tokens s) : firstEnd tokens = c.index + s.rest.length := by
  obtain ⟨behind, hrest⟩ := h.rest
  have hlength : c.index ≤ tokens.length := by
    have hdrop := congrArg List.length hrest
    rw [List.length_drop, List.length_append, List.length_cons] at hdrop
    omega
  have hsplit : tokens = (tokens.take c.index ++ s.rest) ++ ⟨.endOfInput, s.stop⟩ :: behind := by
    rw [List.append_assoc, ← hrest, List.take_append_drop]
  calc firstEnd tokens
      = (tokens.take c.index ++ s.rest).length := by
        conv_lhs => rw [hsplit]
        exact firstEnd_append h.plain
    _ = c.index + s.rest.length := by
        rw [List.length_append, List.length_take, Nat.min_eq_left hlength]

/-- The stream ends where the first end of the input stands. -/
lemma getElem?_firstEnd (h : c.Shows tokens s) :
    tokens[firstEnd tokens]? = some ⟨.endOfInput, s.stop⟩ := by
  obtain ⟨behind, hrest⟩ := h.rest
  rw [h.firstEnd_eq, ← List.getElem?_drop, hrest, List.getElem?_append_right (Nat.le_refl _),
    Nat.sub_self, List.getElem?_cons_zero]

/-- The token at the cursor is the next one of the stream. -/
lemma getElem?_index (h : c.Shows tokens s) : tokens[c.index]? = some ⟨s.kind, s.span⟩ := by
  obtain ⟨behind, hrest⟩ := h.rest
  have hhead : tokens[c.index]? = (tokens.drop c.index)[0]? := by
    rw [List.getElem?_drop, Nat.add_zero]
  rw [hhead, hrest, TokenStream.kind, TokenStream.span]
  cases s.rest <;> rfl

/-- Behind a token that is not the end there is another one. -/
lemma getElem?_next (h : c.Shows tokens s) (hs : s.kind ≠ .endOfInput) :
    tokens[c.index + 1]? = some ⟨s.tail.kind, s.tail.span⟩ := by
  obtain ⟨behind, hrest⟩ := h.rest
  have hnext : tokens[c.index + 1]? = (tokens.drop c.index)[1]? := by rw [List.getElem?_drop]
  rw [hnext, hrest]
  obtain ⟨_ | ⟨t, _ | ⟨u, rest⟩⟩, stop, last⟩ := s
  · exact absurd rfl hs
  · rfl
  · rfl

/-- A token that is not the end may be taken. -/
lemma advance (h : c.Shows tokens s) (hs : s.kind ≠ .endOfInput) :
    Shows tokens ⟨c.index + 1, c.places⟩ s.tail := by
  have hindex := h.getElem?_index
  obtain ⟨behind, hrest⟩ := h.rest
  obtain ⟨_ | ⟨t, rest⟩, stop, last⟩ := s
  · exact absurd rfl hs
  · refine ⟨⟨behind, ?_⟩, ?_, ?_, ?_⟩
    · rw [← List.tail_drop, hrest]
      rfl
    · rw [List.take_add_one, hindex, Option.toList_some, List.append_assoc]
      exact h.plain
    · intro u hu _
      rw [Nat.add_sub_cancel, hindex] at hu
      cases hu
      rfl
    · refine List.pairwise_cons.mpr ⟨fun i hi => ?_, h.sorted⟩
      rcases List.mem_cons.mp hi with rfl | hi
      · exact Nat.le_succ _
      · exact Nat.le_succ_of_le ((List.pairwise_cons.mp h.sorted).1 i hi)

end Cursor.Shows

/-- A cursor at the beginning of a vector stands where the stream of its tokens does. -/
lemma Cursor.shows_ofTokens (ts : List Token) :
    Cursor.Shows (tokenVector ts) {} (.ofTokens ts) := by
  have htake : ∀ t ∈ ts.takeWhile (·.kind ≠ .endOfInput), t.kind ≠ .endOfInput := by
    intro t ht
    simpa using List.mem_takeWhile_imp ht
  refine ⟨?_, htake, fun t _ h => absurd h (Nat.lt_irrefl 0), List.pairwise_singleton _ _⟩
  rw [List.drop_zero, tokenVector, TokenStream.ofTokens]
  cases hfind : ts.find? (·.kind = .endOfInput) with
  | some t =>
      -- the first end of the input and what stands behind it
      obtain ⟨hkind, pre, behind, rfl, hpre⟩ := List.find?_eq_some_iff_append.mp hfind
      obtain ⟨kind, span⟩ := t
      obtain rfl : kind = .endOfInput := of_decide_eq_true hkind
      have hall : ∀ t ∈ pre, decide (t.kind ≠ .endOfInput) = true := by simpa using hpre
      rw [List.takeWhile_append_of_pos hall, List.takeWhile_cons_of_neg (by simp), List.append_nil]
      split
      · exact ⟨behind, rfl⟩
      · exact ⟨_, List.append_assoc ..⟩
  | none =>
      have hall : ∀ t ∈ ts, t.kind ≠ .endOfInput := by simpa using hfind
      have hwhole : ts.takeWhile (·.kind ≠ .endOfInput) = ts := by
        rw [List.takeWhile_eq_self_iff]
        exact fun t ht => decide_eq_true (hall t ht)
      rw [if_neg, hwhole]
      · exact ⟨[], rfl⟩
      · intro hlast
        obtain ⟨t, ht, hkind⟩ := Option.map_eq_some_iff.mp hlast
        exact hall t (List.mem_of_getLast? ht) hkind

/-! ## Walks and parsers -/

/-- What a parser gives, without the stream that it leaves. -/
def Parser.answer {α : Type} : EStateM.Result ParseError TokenStream α → Except ParseError α
  | .ok x _ => .ok x
  | .error e _ => .error e

namespace Walk

open TypedConfig.Parser (answer left)

variable {tokens : List Token} {α β : Type}

/-- Whether the walk from the cursor ends as the parser does on the stream: with the same result or
the same fault, and where the stream is left. -/
def EndsAs (tokens : List Token) (w : Walk α) (p : Parser α) (c : Cursor) (s : TokenStream) :
    Prop :=
  ∃ c', w.startAt c = some (answer (p s), c') ∧ c'.Shows tokens (left (p s)) ∧
    (left (p s)).rest.length ≤ s.rest.length

/-- Whether the walk ends as the parser does wherever fewer than `n` tokens are left. -/
structure Follows (tokens : List Token) (n : Nat) (w : Walk α) (p : Parser α) : Prop where
  endsAs : ∀ {c : Cursor} {s : TokenStream}, c.Shows tokens s → s.rest.length < n →
    EndsAs tokens w p c s

section

variable {n : Nat} {w v : Walk α} {p q : Parser α} {f : α → Walk β} {g : α → Parser β}
  {c : Cursor} {s : TokenStream}

lemma startAt_bind (w : Walk α) (f : α → Walk β) (c : Cursor) :
    (w >>= f).startAt c = w.startAt c >>= fun r => match r with
      | (.ok x, c) => (f x).startAt c
      | (.error e, c) => some (.error e, c) := by
  simp only [startAt, ExceptT.run_bind, StateT.run_bind]
  refine congrArg _ (funext fun r => ?_)
  rcases r with ⟨_ | x, c⟩ <;> rfl

lemma startAt_bind_ok {x : α} {c' : Cursor} (h : w.startAt c = some (.ok x, c')) :
    (w >>= f).startAt c = (f x).startAt c' := by
  rw [startAt_bind, h]
  rfl

/-- On no tokens at all there is nothing to compare. -/
lemma Follows.zero : Follows tokens 0 w p := ⟨fun _ hlength => absurd hlength (Nat.not_lt_zero _)⟩

lemma Follows.pure (x : α) : Follows tokens n (Pure.pure x) (Pure.pure x) :=
  ⟨fun hs _ => ⟨_, rfl, hs, Nat.le_refl _⟩⟩

lemma Follows.throw (e : ParseError) :
    Follows tokens n (MonadExcept.throw e : Walk α) (MonadExcept.throw e) :=
  ⟨fun hs _ => ⟨_, rfl, hs, Nat.le_refl _⟩⟩

lemma Follows.ite {b : Prop} [Decidable b] (hw : b → Follows tokens n w p)
    (hv : ¬ b → Follows tokens n v q) :
    Follows tokens n (if b then w else v) (if b then p else q) := by
  split
  · exact hw ‹_›
  · exact hv ‹_›

/-- What comes first may take tokens, so that fewer than `m` are left to what comes behind it. -/
lemma EndsAs.bind (hw : EndsAs tokens w p c s)
    (hf : ∀ {c' t x}, p s = .ok x t → c'.Shows tokens t → t.rest.length ≤ s.rest.length →
      EndsAs tokens (f x) (g x) c' t) : EndsAs tokens (w >>= f) (p >>= g) c s := by
  obtain ⟨c', hrun, hshows, hle⟩ := hw
  rw [EndsAs, startAt_bind, hrun]
  simp only [Bind.bind, EStateM.bind]
  cases hp : p s with
  | error e t =>
      rw [hp] at hshows hle
      exact ⟨c', rfl, hshows, hle⟩
  | ok x t =>
      rw [hp] at hshows hle
      obtain ⟨c'', hrun', hshows', hle'⟩ := hf hp hshows hle
      exact ⟨c'', hrun', hshows', Nat.le_trans hle' hle⟩

lemma Follows.bind (hw : Follows tokens n w p) (hf : ∀ x, Follows tokens n (f x) (g x)) :
    Follows tokens n (w >>= f) (p >>= g) :=
  ⟨fun hs hlength => (hw.endsAs hs hlength).bind fun _ hshows hle =>
    (hf _).endsAs hshows (Nat.lt_of_le_of_lt hle hlength)⟩

/-- What takes a token leaves fewer tokens. -/
lemma Follows.bind_some (hw : Follows tokens n w p) (hp : p.TakesSome)
    (hf : ∀ x, Follows tokens (n - 1) (f x) (g x)) : Follows tokens n (w >>= f) (p >>= g) :=
  ⟨fun hs hlength => (hw.endsAs hs hlength).bind fun hrun hshows _ =>
    (hf _).endsAs hshows (by have hshorter := hp hrun; omega)⟩

/-! ## Tokens -/

lemma startAt_token (h : c.Shows tokens s) :
    (token tokens).startAt c = some (.ok ⟨s.kind, s.span⟩, c) := by
  change (tokenAt tokens c.index).startAt c = _
  rw [tokenAt, h.getElem?_index]
  rfl

lemma startAt_peek (h : c.Shows tokens s) : (peek tokens).startAt c = some (.ok s.kind, c) :=
  startAt_bind_ok (startAt_token h)

lemma startAt_atEnd (h : c.Shows tokens s) :
    (atEnd tokens).startAt c = some (.ok (decide (s.kind = .endOfInput)), c) :=
  startAt_bind_ok (startAt_peek h)

lemma startAt_check (h : c.Shows tokens s) {k : TokenKind} (hk : k ≠ .endOfInput) :
    (check tokens k).startAt c = some (.ok (decide (s.kind = k)), c) := by
  rw [check, startAt_bind_ok (startAt_atEnd h)]
  by_cases hend : s.kind = .endOfInput
  · rw [decide_eq_true hend, if_pos rfl, hend, decide_eq_false (Ne.symm hk)]
    rfl
  · rw [decide_eq_false hend, if_neg Bool.false_ne_true]
    exact startAt_bind_ok (startAt_peek h)

lemma startAt_advance (h : c.Shows tokens s) (hs : s.kind ≠ .endOfInput) :
    (advance tokens).startAt c = some (.ok ⟨s.kind, s.span⟩, ⟨c.index + 1, c.places⟩) := by
  rw [advance, startAt_bind_ok (startAt_atEnd h), decide_eq_false hs, if_neg Bool.false_ne_true]
  change (tokenAt tokens (c.index + 1 - 1)).startAt _ = _
  rw [Nat.add_sub_cancel, tokenAt, h.getElem?_index]
  rfl

/-- A walk may look at the next token before it goes on. -/
lemma EndsAs.after {x : α} {p : Parser β} (hw : w.startAt c = some (.ok x, c))
    (hf : EndsAs tokens (f x) p c s) : EndsAs tokens (w >>= f) p c s := by
  rw [EndsAs, startAt_bind_ok hw]
  exact hf

lemma EndsAs.peeked {g : TokenKind → Parser α} (h : EndsAs tokens w (g s.kind) c s) :
    EndsAs tokens w (Parser.peek >>= g) c s := h

lemma EndsAs.placed {g : Span → Parser α} (h : EndsAs tokens w (g s.span) c s) :
    EndsAs tokens w (Parser.here >>= g) c s := h

lemma EndsAs.asked {g : TokenStream → Parser α} (h : EndsAs tokens w (g s) c s) :
    EndsAs tokens w (get >>= g) c s := h

lemma EndsAs.congr (h : p s = q s) (hw : EndsAs tokens w q c s) : EndsAs tokens w p c s := by
  rw [EndsAs, h]
  exact hw

lemma follows_peek : Follows tokens n (peek tokens) Parser.peek :=
  ⟨fun hs _ => ⟨_, startAt_peek hs, hs, Nat.le_refl _⟩⟩

lemma startAt_here (h : c.Shows tokens s) : (here tokens).startAt c = some (.ok s.span, c) :=
  startAt_bind_ok (startAt_token h)

lemma follows_here : Follows tokens n (here tokens) Parser.here :=
  ⟨fun hs _ => ⟨_, startAt_here hs, hs, Nat.le_refl _⟩⟩

lemma follows_fail (fault : ParseFault) :
    Follows tokens n (fail tokens fault : Walk α) (Parser.fail fault) :=
  follows_here.bind fun _ => .throw _

lemma follows_unexpected (expected : String) :
    Follows tokens n (unexpected tokens expected : Walk α) (Parser.unexpected expected) := by
  refine ⟨fun {c s} hs hlength => ?_⟩
  refine .after (startAt_atEnd hs) ?_
  refine .peeked ?_
  by_cases hend : s.kind = .endOfInput
  · rw [decide_eq_true hend, if_pos rfl, hend]
    exact (follows_fail _).endsAs hs hlength
  · rw [decide_eq_false hend, if_neg Bool.false_ne_true]
    split
    · exact absurd ‹_› hend
    · exact .after (startAt_peek hs) ((follows_fail _).endsAs hs hlength)

/-- Nothing is done behind a fault. -/
lemma fail_bind_eq (fault : ParseFault) (g : α → Parser β) (s : TokenStream) :
    (Parser.fail fault >>= g) s = (Parser.fail fault : Parser β) s := rfl

lemma unexpected_bind_eq (expected : String) (g : α → Parser β) (s : TokenStream) :
    (Parser.unexpected expected >>= g) s = (Parser.unexpected expected : Parser β) s := by
  rw [Parser.unexpected, bind_assoc, Parser.peek_bind, Parser.unexpected, Parser.peek_bind]
  cases s.kind <;> rfl

/-- The token before the cursor is the last one of the stream if any token has been taken. -/
lemma follows_spanFrom (start : Span) (hn : n ≤ firstEnd tokens) :
    Follows tokens n (spanFrom tokens start) (Parser.spanFrom start) := by
  refine ⟨fun {c s} hs hlength => ?_⟩
  have hindex : 0 < c.index := by
    have hfirst := hs.firstEnd_eq
    omega
  have hlt : c.index - 1 < tokens.length := by
    have hsome := (List.getElem?_eq_some_iff.mp hs.getElem?_index).1
    omega
  have hprevious : (previous tokens).startAt c = some (.ok tokens[c.index - 1], c) := by
    change (tokenAt tokens (c.index - 1)).startAt c = _
    rw [tokenAt, List.getElem?_eq_getElem hlt]
    rfl
  refine ⟨c, ?_, hs, Nat.le_refl _⟩
  rw [spanFrom, startAt_bind_ok hprevious,
    ← hs.last _ (List.getElem?_eq_getElem hlt) hindex]
  rfl

/-- A question about the next token. -/
lemma Follows.bind_check {k : TokenKind} {f : Bool → Walk β} {g : TokenKind → Parser β}
    (hk : k ≠ .endOfInput) (hf : ∀ k', Follows tokens n (f (decide (k' = k))) (g k')) :
    Follows tokens n (check tokens k >>= f) (Parser.peek >>= g) := by
  refine ⟨fun {c s} hs hlength => ?_⟩
  refine .after (startAt_check hs hk) (.peeked ?_)
  exact (hf s.kind).endsAs hs hlength

/-- Behind a token that is there and not the end, fewer tokens are left. -/
lemma EndsAs.advanced {x : α} {p : Parser β} (hs : c.Shows tokens s) (hlength : s.rest.length < n)
    (hend : s.kind ≠ .endOfInput)
    (hw : w.startAt c = some (.ok x, ⟨c.index + 1, c.places⟩))
    (hf : Follows tokens (n - 1) (f x) p) :
    EndsAs tokens (w >>= f) (Parser.advance >>= fun _ => p) c s := by
  have hle := s.length_tail_le
  have hlt : s.tail.rest.length < n - 1 := by
    have htail := (TokenStream.took_kind rfl hend).rest
    rw [htail, List.length_append, List.length_singleton] at hlength
    omega
  obtain ⟨c', hrun, hshows, hle'⟩ := hf.endsAs (hs.advance hend) hlt
  refine ⟨c', ?_, hshows, Nat.le_trans hle' hle⟩
  rw [startAt_bind_ok hw, hrun]
  rfl

lemma startAt_take {x : β} (hs : c.Shows tokens s) (hend : s.kind ≠ .endOfInput) :
    (Walk.advance tokens >>= fun _ => (Pure.pure x : Walk β)).startAt c =
      some (.ok x, ⟨c.index + 1, c.places⟩) := by
  rw [startAt_bind_ok (startAt_advance hs hend)]
  rfl

lemma Follows.bind_accept {k : TokenKind} {f : Bool → Walk β} {g : Bool → Parser β}
    (hk : k ≠ .endOfInput) (htrue : Follows tokens (n - 1) (f true) (g true))
    (hfalse : Follows tokens n (f false) (g false)) :
    Follows tokens n (accept tokens k >>= f) (Parser.accept k >>= g) := by
  refine ⟨fun {c s} hs hlength => ?_⟩
  rw [Parser.accept, bind_assoc]
  refine .peeked ?_
  by_cases hkind : s.kind = k
  · rw [if_pos hkind, bind_assoc]
    have hend : s.kind ≠ .endOfInput := hkind ▸ hk
    refine .advanced hs hlength hend ?_ htrue
    rw [accept, startAt_bind_ok (startAt_check hs hk), decide_eq_true hkind, if_pos rfl]
    exact startAt_take hs hend
  · rw [if_neg hkind]
    refine .after ?_ (hfalse.endsAs hs hlength)
    rw [accept, startAt_bind_ok (startAt_check hs hk), decide_eq_false hkind,
      if_neg Bool.false_ne_true]
    rfl

/-- What comes behind a token that may be there. -/
lemma Follows.accept_ite {k : TokenKind} (hk : k ≠ .endOfInput)
    (hw : Follows tokens (n - 1) w p) (hv : Follows tokens n v q) :
    Follows tokens n (accept tokens k >>= fun there => if there then w else v)
      (Parser.accept k >>= fun there => if there then p else q) := by
  refine .bind_accept hk ?_ ?_
  · simpa only [if_true] using hw
  · simpa only [Bool.false_eq_true, if_false] using hv

/-- No token is there to be taken where at most the end is left. -/
lemma Follows.accept_ite_end {k : TokenKind} (hk : k ≠ .endOfInput) (hn : n ≤ 1)
    (hv : Follows tokens n v q) :
    Follows tokens n (accept tokens k >>= fun there => if there then w else v) q := by
  refine ⟨fun {c s} hs hlength => .after (x := false) ?_ (hv.endsAs hs hlength)⟩
  have hend : s.kind = .endOfInput := by
    rw [TokenStream.kind, List.eq_nil_of_length_eq_zero (by omega : s.rest.length = 0)]
    rfl
  rw [accept, startAt_bind_ok (startAt_check hs hk), hend, decide_eq_false hk.symm,
    if_neg Bool.false_ne_true]
  rfl

lemma startAt_expect (hs : c.Shows tokens s) {k : TokenKind} (hk : k ≠ .endOfInput)
    (hkind : s.kind = k) :
    (expect tokens k).startAt c = some (.ok (), ⟨c.index + 1, c.places⟩) := by
  rw [expect, startAt_bind_ok (startAt_check hs hk), decide_eq_true hkind, if_pos rfl]
  exact startAt_take hs (hkind ▸ hk)

lemma Follows.bind_expect {k : TokenKind} {f : Unit → Walk β} {g : Unit → Parser β}
    (hk : k ≠ .endOfInput) (hf : Follows tokens (n - 1) (f ()) (g ())) :
    Follows tokens n (expect tokens k >>= f) (Parser.expect k >>= g) := by
  refine ⟨fun {c s} hs hlength => ?_⟩
  rw [Parser.expect, bind_assoc]
  refine .peeked ?_
  by_cases hkind : s.kind = k
  · rw [if_pos hkind]
    exact .advanced hs hlength (hkind ▸ hk) (startAt_expect hs hk hkind) hf
  · rw [if_neg hkind, expect, bind_assoc]
    refine .after (startAt_check hs hk) ?_
    rw [decide_eq_false hkind, if_neg Bool.false_ne_true]
    have hfault : Follows tokens n (unexpected tokens ("'" ++ k.text ++ "'") >>= f)
        (Parser.unexpected ("'" ++ k.text ++ "'") >>= g) :=
      (follows_unexpected _).bind_some (fun h => (Parser.unexpected_ok.mp h).elim) fun _ => hf
    exact hfault.endsAs hs hlength

lemma Follows.bind_name {f : String → Walk β} {g : String → Parser β}
    (hf : ∀ x, Follows tokens (n - 1) (f x) (g x)) :
    Follows tokens n (name tokens >>= f) (Parser.name >>= g) := by
  refine ⟨fun {c s} hs hlength => ?_⟩
  rw [Parser.name, bind_assoc]
  refine .peeked ?_
  rw [name, bind_assoc]
  refine .after (startAt_peek hs) ?_
  have hfault : Follows tokens n (unexpected tokens "identifier" >>= f)
      (Parser.unexpected "identifier" >>= g) :=
    (follows_unexpected _).bind_some (fun h => (Parser.unexpected_ok.mp h).elim) fun _ => hf _
  cases hkind : s.kind with
  | name x =>
      have hend : s.kind ≠ .endOfInput := by simp [hkind]
      simp only [bind_assoc, pure_bind]
      exact .advanced hs hlength hend (startAt_advance hs hend) (hf x)
  | _ => exact hfault.endsAs hs hlength

/-- The number of tokens that are left may be asked for. -/
lemma Follows.bind_length {g : Nat → Parser α} (h : ∀ l < n, Follows tokens (l + 1) w (g l)) :
    Follows tokens n w (get >>= fun s => g s.rest.length) :=
  ⟨fun {_ s} hs hlength => (h s.rest.length hlength).endsAs hs (Nat.lt_succ_self _)⟩

lemma Follows.check_ite {k : TokenKind} (hk : k ≠ .endOfInput) (hw : Follows tokens n w p)
    (hv : Follows tokens n v q) :
    Follows tokens n (check tokens k >>= fun there => if there then w else v)
      (Parser.peek >>= fun k' => if k' = k then p else q) := by
  refine .bind_check hk fun k' => ?_
  by_cases hkind : k' = k
  · simpa only [hkind, decide_true, if_true] using hw
  · simpa only [hkind, decide_false, Bool.false_eq_true, if_false] using hv

/-! ## Items -/

/-- One turn of a loop over items up to the closing brace, if an item cannot be read where the input
ends. -/
lemma Follows.items {next : Walk (List α)} {item : Parser α} {l : Nat}
    (hitem : ∀ {s : TokenStream}, s.kind = .endOfInput → item s = .error ⟨.unexpectedEnd, s.span⟩ s)
    (hnext : Follows tokens n next (item >>= fun x => Parser.itemsToBrace item l >>= fun xs =>
      Pure.pure (x :: xs))) :
    Follows tokens n (check tokens (.symbol .closeBrace) >>= fun there =>
      if there then expect tokens (.symbol .closeBrace) >>= fun _ => Pure.pure [] else next)
      (Parser.itemsToBrace item (l + 1)) := by
  refine ⟨fun {c s} hs hlength => .after (startAt_check hs nofun) ?_⟩
  rw [Parser.itemsToBrace]
  refine .peeked ?_
  by_cases hbrace : s.kind = .symbol .closeBrace
  · rw [decide_eq_true hbrace, if_pos rfl, hbrace]
    exact .advanced hs hlength (hbrace ▸ nofun) (startAt_expect hs nofun hbrace) (.pure [])
  rw [decide_eq_false hbrace, if_neg Bool.false_ne_true]
  by_cases hend : s.kind = .endOfInput
  · rw [hend]
    refine .congr ?_ (hnext.endsAs hs hlength)
    change _ = EStateM.bind item _ s
    rw [EStateM.bind, hitem hend]
    rfl
  · split
    · exact absurd ‹_› hbrace
    · exact absurd ‹_› hend
    · exact hnext.endsAs hs hlength

/-- Items between braces, if the loop over them follows whatever its bound. -/
lemma Follows.braced {w : Walk (List α)} {f : List α → Walk β} {item : Parser α}
    {g : List α → Parser β}
    (hw : ∀ l, l + 1 < n → Follows tokens (l + 1) w (Parser.itemsToBrace item (l + 1)))
    (hf : ∀ xs, Follows tokens (n - 1) (f xs) (g xs)) :
    Follows tokens n (expect tokens (.symbol .openBrace) >>= fun _ => w >>= f)
      (Parser.braced item >>= g) := by
  have hloop : Follows tokens (n - 1) w
      (get >>= fun s => Parser.itemsToBrace item (s.rest.length + 1)) :=
    .bind_length (g := fun l => Parser.itemsToBrace item (l + 1)) fun l hl => hw l (by omega)
  rw [Parser.braced, bind_assoc]
  exact .bind_expect (by decide) (hloop.bind hf)

end

/-! ## Types -/

section

variable {n : Nat}

lemma follows_arrayAndName : Follows tokens n (arrayAndName tokens) Parser.arrayAndName := by
  refine .accept_ite nofun (.accept_ite nofun ?_ ?_) (.bind_name fun name => .pure _)
  · exact .bind_name fun name => .pure _
  · refine .bind_name fun name => .bind_expect nofun (.pure _)

lemma follows_noShape (misplaced : TypeExpr → Bool) (t : TypeExpr) :
    Follows tokens n (noShape misplaced t) (do
      if misplaced t then throw ⟨.objectOutsideTypedef, t.span⟩
      return t) := by
  refine .ite (fun _ => ?_) fun _ => .pure t
  exact (Follows.throw _).bind fun _ => .pure t

lemma follows_plainType {w : Walk TypeExpr} {p : Parser TypeExpr} (htype : Follows tokens n w p) :
    Follows tokens n (plainType w) (Parser.notObject p) :=
  htype.bind fun t => follows_noShape _ t

lemma follows_fieldDecl (hn : n ≤ firstEnd tokens + 1) {w : Walk TypeExpr} {p : Parser TypeExpr}
    (htype : Follows tokens (n - 2) w p) :
    Follows tokens n (fieldDecl tokens w) (Parser.fieldDecl (Parser.notObject p)) := by
  refine follows_here.bind fun start => .bind_name fun name => .bind_expect nofun ?_
  refine (follows_plainType htype).bind fun t => ?_
  exact (follows_spanFrom start (by omega)).bind fun span => .bind_accept nofun (.pure _) (.pure _)

/-- A name cannot be read where the input ends. -/
lemma name_error {s : TokenStream} {g : String → Parser α} (hs : s.kind = .endOfInput) :
    (Parser.name >>= g) s = .error ⟨.unexpectedEnd, s.span⟩ s := by
  rw [Parser.name, bind_assoc, Parser.peek_bind, hs]
  refine (unexpected_bind_eq "identifier" g s).trans ?_
  rw [Parser.unexpected, Parser.peek_bind, hs]
  rfl

/-- A type, if what reads the fields of a shape follows on fewer tokens. -/
lemma follows_typeWith (hn : n ≤ firstEnd tokens + 1) {d : Nat} {w : Walk (List FieldDecl)}
    (hfields : ∀ m l, m < n → m ≤ l → Follows tokens m w
      (Parser.itemsToBrace (Parser.fieldDecl (Parser.notObject (Parser.typeWithin d))) l)) :
    Follows tokens n (typeWith tokens w) (Parser.typeWithin (d + 1)) := by
  refine follows_here.bind fun start => ?_
  refine follows_arrayAndName.bind_some Parser.takesSome_arrayAndName fun x => ?_
  refine .ite (fun _ => .braced (fun l hl => ?_) fun fields => ?_) fun _ => ?_
  · exact hfields (l + 1) (l + 1) (by omega) (Nat.le_refl _)
  · refine (follows_spanFrom start (by omega)).bind fun span => .check_ite nofun ?_ (.pure _)
    exact (follows_fail _).bind fun _ => .pure _
  · have hspan (isOptional : Bool) {m : Nat} (hm : m ≤ firstEnd tokens) :
        Follows tokens m (do
          return (⟨x.2, x.1, isOptional, [], ← spanFrom tokens start⟩ : TypeExpr)) (do
          return ⟨x.2, x.1, isOptional, [], ← Parser.spanFrom start⟩) :=
      (follows_spanFrom start hm).bind fun span => .pure _
    exact .bind_accept nofun (hspan true (by omega)) (hspan false (by omega))

lemma follows_fieldDecls (hn : n ≤ firstEnd tokens + 1) {turns d l : Nat} (hturns : n ≤ turns)
    (hd : n ≤ d) (hl : n ≤ l) :
    Follows tokens n (fieldDecls tokens turns)
      (Parser.itemsToBrace (Parser.fieldDecl (Parser.notObject (Parser.typeWithin d))) l) := by
  induction n using Nat.strong_induction_on generalizing turns d l with
  | _ n ih =>
      obtain _ | n := n
      · exact .zero
      obtain ⟨turns, rfl⟩ : ∃ k, turns = k + 1 := ⟨turns - 1, by omega⟩
      obtain ⟨d, rfl⟩ : ∃ k, d = k + 1 := ⟨d - 1, by omega⟩
      obtain ⟨l, rfl⟩ : ∃ k, l = k + 1 := ⟨l - 1, by omega⟩
      have htype : Follows tokens (n + 1 - 2) (typeWith tokens (fieldDecls tokens turns))
          (Parser.typeWithin (d + 1)) :=
        follows_typeWith (by omega) fun m l hm hl =>
          ih m (by omega) (by omega) (by omega) (by omega) hl
      rw [fieldDecls]
      refine .items (fun hs => name_error hs) ?_
      refine (follows_fieldDecl hn htype).bind_some (Parser.takesSome_fieldDecl _) fun field => ?_
      exact (ih n (by omega) (by omega) (by omega) (by omega) (by omega)).bind fun rest => .pure _

lemma follows_anyType (hn : n ≤ firstEnd tokens + 1) {turns : Nat} (hturns : n ≤ turns + 1) :
    Follows tokens n (anyType tokens turns) Parser.anyType :=
  .bind_length (g := fun l => Parser.typeWithin (l + 1)) fun l hl =>
    follows_typeWith (by omega) fun m l' hm hl' =>
      follows_fieldDecls (by omega) (by omega) (by omega) hl'

lemma follows_typedefType (hn : n ≤ firstEnd tokens + 1) {turns : Nat} (hturns : n ≤ turns + 1) :
    Follows tokens n (typedefType tokens turns) Parser.typedefType :=
  (follows_anyType hn hturns).bind fun t => follows_noShape _ t

/-! ## Values -/

lemma follows_members (hn : n ≤ firstEnd tokens) (start : Span) (path : Expr) {turns l : Nat}
    (hturns : n ≤ turns) (hl : n ≤ l + 1) :
    Follows tokens n (members tokens start path turns) (Parser.members start path l) := by
  induction turns generalizing n path l with
  | zero =>
      obtain rfl := Nat.eq_zero_of_le_zero hturns
      exact .zero
  | succ turns ih =>
      cases l with
      | zero => exact .accept_ite_end nofun hl (.pure path)
      | succ l =>
          refine .accept_ite nofun (.bind_name fun name => ?_) (.pure path)
          refine (follows_spanFrom start (by omega)).bind fun span => ?_
          exact ih (by omega) _ (by omega) (by omega)

lemma follows_path (hn : n ≤ firstEnd tokens + 1) {turns : Nat} (hturns : n ≤ turns + 1) :
    Follows tokens n (path tokens turns) Parser.path := by
  refine follows_here.bind fun start => .bind_name fun name => ?_
  exact .bind_length (g := Parser.members start (.name name start)) fun l hl =>
    follows_members (by omega) start _ (by omega) (Nat.le_refl _)

/-- What is done with a value that has been read. -/
lemma follows_notCalled (e : Expr) :
    Follows tokens n (notCalled tokens e) (do
      if (← Parser.peek) = .symbol .openParen then Parser.fail .callAsValue
      return e) :=
  .check_ite nofun ((follows_fail _).bind fun _ => .pure e) (.pure e)

lemma follows_fieldInit (hn : n ≤ firstEnd tokens + 1) {w : Walk Expr} {p : Parser Expr}
    (hvalue : Follows tokens (n - 2) w p) :
    Follows tokens n (fieldInit tokens w) (Parser.fieldInit p) := by
  refine follows_here.bind fun start => .bind_name fun name => .bind_expect nofun ?_
  refine hvalue.bind fun e => ?_
  exact (follows_spanFrom start (by omega)).bind fun span => .bind_accept nofun (.pure _) (.pure _)

/-- A value, if what reads the fields of a new object follows on fewer tokens. -/
lemma follows_valueWith (hn : n ≤ firstEnd tokens + 1) {turns d : Nat} (hturns : n ≤ turns + 1)
    {w : Walk (List FieldInit)}
    (hfields : ∀ m l, m < n → m ≤ l → Follows tokens m w
      (Parser.itemsToBrace (Parser.fieldInit (Parser.valueWithin true d)) l))
    (allowsObject : Bool) :
    Follows tokens n (valueWith tokens turns w allowsObject)
      (Parser.valueWithin allowsObject (d + 1)) := by
  refine ⟨fun {c s} hs hlength => .after (startAt_here hs) (.placed ?_)⟩
  refine .after (startAt_peek hs) (.peeked ?_)
  have hnone (g : Expr → Parser Expr) :
      EndsAs tokens (unexpected tokens "value") (Parser.unexpected "value" >>= g) c s :=
    .congr (unexpected_bind_eq _ g s) ((follows_unexpected _).endsAs hs hlength)
  cases hkind : s.kind with
  | literal l =>
      refine .advanced hs hlength (hkind ▸ nofun) (startAt_advance hs (hkind ▸ nofun)) ?_
      exact follows_notCalled _
  | keyword word =>
      cases word with
      | newWord =>
          cases allowsObject with
          | false => exact .congr (fail_bind_eq _ _ s) ((follows_fail _).endsAs hs hlength)
          | true =>
              refine .after (startAt_here hs) ?_
              refine .advanced hs hlength (hkind ▸ nofun) (startAt_expect hs nofun hkind) ?_
              refine .braced (fun l hl => ?_) fun fields => ?_
              · exact hfields (l + 1) (l + 1) (by omega) (Nat.le_refl _)
              · exact (follows_spanFrom _ (by omega)).bind fun span => follows_notCalled _
      | _ => exact hnone _
  | name x => exact ((follows_path hn hturns).bind follows_notCalled).endsAs hs hlength
  | _ => exact hnone _

lemma follows_fieldInits (hn : n ≤ firstEnd tokens + 1) {turns d l : Nat} (hturns : n ≤ turns)
    (hd : n ≤ d) (hl : n ≤ l) :
    Follows tokens n (fieldInits tokens turns)
      (Parser.itemsToBrace (Parser.fieldInit (Parser.valueWithin true d)) l) := by
  induction n using Nat.strong_induction_on generalizing turns d l with
  | _ n ih =>
      obtain _ | n := n
      · exact .zero
      obtain ⟨turns, rfl⟩ : ∃ k, turns = k + 1 := ⟨turns - 1, by omega⟩
      obtain ⟨d, rfl⟩ : ∃ k, d = k + 1 := ⟨d - 1, by omega⟩
      obtain ⟨l, rfl⟩ : ∃ k, l = k + 1 := ⟨l - 1, by omega⟩
      have hvalue : Follows tokens (n + 1 - 2)
          (valueWith tokens turns (fieldInits tokens turns) true)
          (Parser.valueWithin true (d + 1)) :=
        follows_valueWith (by omega) (by omega) (fun m l hm hl =>
          ih m (by omega) (by omega) (by omega) (by omega) hl) true
      rw [fieldInits]
      refine .items (fun hs => name_error hs) ?_
      refine (follows_fieldInit hn hvalue).bind_some (Parser.takesSome_fieldInit _) fun field => ?_
      exact (ih n (by omega) (by omega) (by omega) (by omega) (by omega)).bind fun rest => .pure _

lemma follows_value (hn : n ≤ firstEnd tokens + 1) {turns : Nat} (hturns : n ≤ turns + 1)
    (allowsObject : Bool) :
    Follows tokens n (value tokens turns allowsObject) (Parser.value allowsObject) :=
  .bind_length (g := fun l => Parser.valueWithin allowsObject (l + 1)) fun l hl =>
    follows_valueWith (by omega) (by omega) (fun m l' hm hl' =>
      follows_fieldInits (by omega) (by omega) (by omega) hl') allowsObject

/-! ## Statements -/

lemma follows_moreArguments (hn : n ≤ firstEnd tokens + 1) {turns l : Nat} (hturns : n ≤ turns)
    (hl : n ≤ l + 1) :
    Follows tokens n (moreArguments tokens turns)
      (Parser.itemsAfterComma (Parser.value false) l) := by
  induction turns generalizing n l with
  | zero =>
      obtain rfl := Nat.eq_zero_of_le_zero hturns
      exact .zero
  | succ turns ih =>
      cases l with
      | zero => exact .accept_ite_end nofun hl (.pure [])
      | succ l =>
          refine .accept_ite nofun ((follows_value (by omega) (by omega) false).bind fun e => ?_)
            (.pure [])
          exact (ih (by omega) (by omega) (by omega)).bind fun es => .pure _

lemma follows_someArguments (hn : n ≤ firstEnd tokens + 1) {turns : Nat} (hturns : n ≤ turns) :
    Follows tokens n (someArguments tokens turns) (Parser.commaSeparated (Parser.value false)) := by
  refine (follows_value hn (by omega) false).bind fun e => ?_
  refine .bind_length (g := fun l => do
    let es ← Parser.itemsAfterComma (Parser.value false) l
    return e :: es) fun l hl => ?_
  exact (follows_moreArguments (by omega) (by omega) (Nat.le_refl _)).bind fun es => .pure _

lemma follows_arguments (hn : n ≤ firstEnd tokens + 1) {turns : Nat} (hturns : n ≤ turns + 1) :
    Follows tokens n (arguments tokens turns) Parser.arguments := by
  refine .bind_expect nofun ⟨fun {c s} hs hlength => .after (startAt_check hs nofun) ?_⟩
  rw [Parser.accept, bind_assoc]
  refine .peeked ?_
  by_cases hkind : s.kind = .symbol .closeParen
  · rw [decide_eq_true hkind, if_pos rfl, if_pos hkind, bind_assoc]
    exact .advanced hs hlength (hkind ▸ nofun) (startAt_expect hs nofun hkind) (.pure [])
  · rw [decide_eq_false hkind, if_neg Bool.false_ne_true, if_neg hkind]
    have hsome : Follows tokens (n - 1)
        (someArguments tokens turns >>= fun es =>
          expect tokens (.symbol .closeParen) >>= fun _ => pure es)
        (Parser.commaSeparated (Parser.value false) >>= fun es =>
          Parser.expect (.symbol .closeParen) >>= fun _ => pure es) :=
      (follows_someArguments (by omega) (by omega)).bind fun es => .bind_expect nofun (.pure es)
    exact hsome.endsAs hs hlength

/-- A call, where a name comes next. -/
lemma EndsAs.call (hn : n ≤ firstEnd tokens + 1) {turns : Nat} (hturns : n ≤ turns + 1)
    {c : Cursor} {s : TokenStream} {x : String} (hs : c.Shows tokens s)
    (hlength : s.rest.length < n) (hkind : s.kind = .name x) :
    EndsAs tokens (call tokens turns) Parser.call c s := by
  refine .after (startAt_here hs) (.placed (.after (startAt_peek hs) ?_))
  rw [hkind]
  have hspan (start : Span) : Follows tokens (n - 1) (spanFrom tokens start)
      (Parser.spanFrom start) := follows_spanFrom start (by omega)
  have hrest (callee : Expr) : Follows tokens (n - 1) (do
      let args ← arguments tokens turns
      let span ← spanFrom tokens callee.span
      return Stmt.effect (.call callee args span) (← spanFrom tokens s.span)) (do
      let args ← Parser.arguments
      let span ← Parser.spanFrom callee.span
      return Stmt.effect (.call callee args span) (← Parser.spanFrom s.span)) :=
    (follows_arguments (by omega) (by omega)).bind fun es => (hspan _).bind fun span =>
      (hspan _).bind fun span' => .pure _
  have hpath := follows_path hn hturns
  refine Follows.endsAs (hpath.bind_some Parser.takesSome_path fun callee => ?_) hs hlength
  refine .bind_check nofun fun k => ?_
  by_cases hopen : k = .symbol .openParen
  · simpa [hopen] using hrest callee
  · simp only [hopen, decide_false, Bool.not_false, if_true, ne_eq, not_false_eq_true]
    exact follows_peek.bind fun k => (follows_fail _).bind fun _ => hrest callee

lemma follows_typedef (hn : n ≤ firstEnd tokens + 1) {turns : Nat} (hturns : n ≤ turns + 1) :
    Follows tokens n (typedef tokens turns) Parser.typedef := by
  refine follows_here.bind fun start => .bind_expect nofun ?_
  refine .bind_name fun name => .bind_expect nofun ?_
  refine (follows_typedefType (by omega) (by omega)).bind fun t => ?_
  exact (follows_spanFrom start (by omega)).bind fun span => .pure _

lemma follows_binding (hn : n ≤ firstEnd tokens + 1) {turns : Nat} (hturns : n ≤ turns + 1) :
    Follows tokens n (binding tokens turns) Parser.binding := by
  refine follows_here.bind fun start => .bind_expect nofun ?_
  refine .bind_name fun name => .bind_expect nofun ?_
  refine (follows_plainType (follows_anyType (by omega) (by omega))).bind fun t => ?_
  have hrest (m : Nat) (hm : m ≤ firstEnd tokens) (value : Option Expr) : Follows tokens m (do
      return Stmt.binding name t value (← spanFrom tokens start)) (do
      return Stmt.binding name t value (← Parser.spanFrom start)) :=
    (follows_spanFrom start hm).bind fun span => .pure _
  refine .bind_accept nofun ?_ ?_
  · simp only [if_true, map_eq_pure_bind, bind_assoc, pure_bind]
    exact (follows_value (by omega) (by omega) true).bind fun e => hrest _ (by omega) (some e)
  · simp only [Bool.false_eq_true, if_false, pure_bind]
    exact hrest _ (by omega) none

lemma startAt_beginsScope {c : Cursor} {s : TokenStream} (hs : c.Shows tokens s) :
    (beginsScope tokens).startAt c = some (.ok (Parser.beginsScope s), c) := by
  rw [beginsScope, startAt_bind_ok (startAt_peek hs)]
  cases hkind : s.kind with
  | name x =>
      have hnext := hs.getElem?_next (hkind ▸ nofun)
      have hlt : c.index + 1 < tokens.length := (List.getElem?_eq_some_iff.mp hnext).1
      have hsecond : (second tokens).startAt c = some (.ok ⟨s.tail.kind, s.tail.span⟩, c) := by
        change (tokenAt tokens (if c.index + 1 < tokens.length then c.index + 1
          else tokens.length - 1)).startAt c = _
        rw [if_pos hlt, tokenAt, hnext]
        rfl
      have hscope : Parser.beginsScope s = decide (s.tail.kind = .symbol .openBrace) := by
        rw [Bool.eq_iff_iff, Parser.beginsScope_iff, decide_eq_true_iff]
        exact and_iff_right ⟨x, hkind⟩
      refine (startAt_bind_ok hsecond).trans ?_
      rw [hscope]
      rfl
  | _ =>
      have hscope : Parser.beginsScope s = false := by
        rw [Bool.eq_false_iff, Ne, Parser.beginsScope_iff, hkind]
        exact nofun
      rw [hscope]
      rfl

/-- No statement begins here, if neither a word for one nor a name comes next. -/
lemma EndsAs.noStatement {turns : Nat} {w : Walk (List Stmt)} {c : Cursor} {s : TokenStream}
    (hs : c.Shows tokens s) (hlength : s.rest.length < n) (hname : ∀ x, s.kind ≠ .name x) :
    EndsAs tokens (statement tokens turns w) (Parser.unexpected "statement") c s := by
  have hscope : Parser.beginsScope s = false := by
    rw [Bool.eq_false_iff, Ne, Parser.beginsScope_iff]
    exact fun ⟨⟨x, hx⟩, _⟩ => hname x hx
  rw [statement]
  refine .after (startAt_beginsScope hs) ?_
  rw [hscope, if_neg Bool.false_ne_true, Walk.call]
  refine .after (startAt_here hs) (.after (startAt_peek hs) ?_)
  split
  · exact absurd ‹_› (hname _)
  · exact (follows_unexpected _).endsAs hs hlength

/-- No statement can be read where the input ends. -/
lemma statementWithin_error {d : Nat} {s : TokenStream} (hs : s.kind = .endOfInput) :
    Parser.statementWithin d s = .error ⟨.unexpectedEnd, s.span⟩ s := by
  cases d with
  | zero => rfl
  | succ d =>
      rw [Parser.statementWithin, Parser.peek_bind, hs]
      refine (?_ : Parser.unexpected "statement" s = _)
      rw [Parser.unexpected, Parser.peek_bind, hs]
      rfl

/-- A scope, where its name comes next. -/
lemma follows_scope (hn : n ≤ firstEnd tokens + 1) {d : Nat} {w : Walk (List Stmt)}
    (hbody : ∀ m l, m < n → m ≤ l → Follows tokens m w
      (Parser.itemsToBrace (Parser.statementWithin d) l)) :
    Follows tokens n (do
      let start ← here tokens
      let name ← name tokens
      let bodyStart ← here tokens
      expect tokens (.symbol .openBrace)
      let body ← w
      let bodySpan ← spanFrom tokens bodyStart
      return Stmt.scope name body bodySpan (← spanFrom tokens start)) (do
      let start ← Parser.here
      let name ← Parser.name
      let bodyStart ← Parser.here
      let body ← Parser.braced (Parser.statementWithin d)
      return Stmt.scope name body (← Parser.spanFrom bodyStart) (← Parser.spanFrom start)) := by
  refine follows_here.bind fun start => .bind_name fun name => follows_here.bind fun bodyStart => ?_
  refine .braced (fun l hl => hbody _ _ (by omega) (Nat.le_refl _)) fun body => ?_
  exact (follows_spanFrom _ (by omega)).bind fun bodySpan =>
    (follows_spanFrom _ (by omega)).bind fun span => .pure _

/-- A statement, if what reads the statements of a scope follows on fewer tokens. -/
lemma follows_declaration (hn : n ≤ firstEnd tokens + 1) {turns d : Nat} (hturns : n ≤ turns + 1)
    {w : Walk (List Stmt)} (hbody : ∀ m l, m < n → m ≤ l → Follows tokens m w
      (Parser.itemsToBrace (Parser.statementWithin d) l)) :
    Follows tokens n (declaration tokens turns w) (Parser.statementWithin (d + 1)) := by
  refine ⟨fun {c s} hs hlength => .after (startAt_check hs nofun) (.peeked ?_)⟩
  by_cases htype : s.kind = .keyword .typeWord
  · rw [decide_eq_true htype, if_pos rfl, htype]
    exact (follows_typedef hn hturns).endsAs hs hlength
  rw [decide_eq_false htype, if_neg Bool.false_ne_true]
  refine .after (startAt_check hs nofun) ?_
  by_cases hlet : s.kind = .keyword .letWord
  · rw [decide_eq_true hlet, if_pos rfl, hlet]
    exact (follows_binding hn hturns).endsAs hs hlength
  rw [decide_eq_false hlet, if_neg Bool.false_ne_true]
  split
  · exact absurd ‹_› htype
  · exact absurd ‹_› hlet
  · rename_i x hkind
    refine .after (startAt_beginsScope hs) (.asked ?_)
    split
    · exact (follows_scope hn hbody).endsAs hs hlength
    · exact .call hn hturns hs hlength hkind
  · rename_i hname
    exact .noStatement hs hlength fun x hx => hname x hx

lemma follows_scopeStatements (hn : n ≤ firstEnd tokens + 1) {turns d l : Nat} (hturns : n ≤ turns)
    (hd : n ≤ d) (hl : n ≤ l) :
    Follows tokens n (scopeStatements tokens turns)
      (Parser.itemsToBrace (Parser.statementWithin d) l) := by
  induction n using Nat.strong_induction_on generalizing turns d l with
  | _ n ih =>
      obtain _ | n := n
      · exact .zero
      obtain ⟨turns, rfl⟩ : ∃ k, turns = k + 1 := ⟨turns - 1, by omega⟩
      obtain ⟨d, rfl⟩ : ∃ k, d = k + 1 := ⟨d - 1, by omega⟩
      obtain ⟨l, rfl⟩ : ∃ k, l = k + 1 := ⟨l - 1, by omega⟩
      have hstatement : Follows tokens (n + 1)
          (declaration tokens turns (scopeStatements tokens turns))
          (Parser.statementWithin (d + 1)) :=
        follows_declaration hn hturns fun m l hm hl =>
          ih m hm (by omega) (by omega) (by omega) hl
      rw [scopeStatements]
      refine .items statementWithin_error ⟨fun {c s} hs hlength => .after (startAt_atEnd hs) ?_⟩
      by_cases hend : s.kind = .endOfInput
      · rw [decide_eq_true hend, if_pos rfl]
        refine .congr ?_ ((follows_fail _).endsAs hs hlength)
        change EStateM.bind (Parser.statementWithin (d + 1)) _ s = _
        rw [EStateM.bind, statementWithin_error hend]
        rfl
      · rw [decide_eq_false hend, if_neg Bool.false_ne_true]
        refine Follows.endsAs ?_ hs hlength
        refine hstatement.bind_some (Parser.takesSome_statementWithin _) fun st => ?_
        exact (ih n (by omega) (by omega) (by omega) (by omega) (by omega)).bind fun ss => .pure _

/-! ## Programs -/

/-- No statement begins with a closing brace. -/
lemma statementWithin_brace {d : Nat} {s : TokenStream} (hs : s.kind = .symbol .closeBrace) :
    Parser.statementWithin (d + 1) s =
      .error ⟨.unexpectedToken "statement" "\x7d", s.span⟩ s := by
  rw [Parser.statementWithin, Parser.peek_bind, hs]
  refine (?_ : Parser.unexpected "statement" s = _)
  rw [Parser.unexpected, Parser.peek_bind, hs]
  rfl

/-- The statements of a program, below a bound that is not less than the number of tokens. -/
lemma follows_statements (hn : n ≤ firstEnd tokens + 1) {turns l : Nat} (hturns : n ≤ turns)
    (hl : n ≤ l + 1) : Follows tokens n (statements tokens turns) (Parser.statements l) := by
  induction turns generalizing n l with
  | zero =>
      obtain rfl := Nat.eq_zero_of_le_zero hturns
      exact .zero
  | succ turns ih =>
      rw [statements]
      obtain _ | l := l
      · refine ⟨fun {c s} hs hlength => .after (x := true) ?_ ((Follows.pure []).endsAs hs hlength)⟩
        rw [startAt_atEnd hs, TokenStream.kind,
          List.eq_nil_of_length_eq_zero (by omega : s.rest.length = 0)]
        rfl
      refine ⟨fun {c s} hs hlength => .after (startAt_atEnd hs) (.peeked ?_)⟩
      by_cases hend : s.kind = .endOfInput
      · rw [decide_eq_true hend, if_pos rfl, hend]
        exact (Follows.pure []).endsAs hs hlength
      rw [decide_eq_false hend, if_neg Bool.false_ne_true]
      refine .after (startAt_check hs (by decide)) ?_
      by_cases hbrace : s.kind = .symbol .closeBrace
      · rw [decide_eq_true hbrace, if_pos rfl, hbrace]
        refine .congr ?_ ((follows_fail _).endsAs hs hlength)
        change EStateM.bind (Parser.statementWithin (s.rest.length + 1)) _ s = _
        rw [EStateM.bind, statementWithin_brace hbrace]
        rfl
      · rw [decide_eq_false hbrace, if_neg Bool.false_ne_true]
        have hfirst : Follows tokens n (declaration tokens turns (scopeStatements tokens turns))
            (get >>= fun s => Parser.statementWithin (s.rest.length + 1)) :=
          .bind_length (g := fun l => Parser.statementWithin (l + 1)) fun l hl =>
            follows_declaration (by omega) (by omega) fun m l' hm hl' =>
              follows_scopeStatements (by omega) (by omega) (by omega) hl'
        have hsome : Parser.TakesSome
            (get >>= fun s => Parser.statementWithin (s.rest.length + 1)) :=
          fun h => Parser.takesSome_statementWithin _ h
        have hloop := hfirst.bind_some hsome fun st =>
          (ih (n := n - 1) (l := l) (by omega) (by omega) (by omega)).bind fun ss =>
            Follows.pure (st :: ss)
        split
        · exact absurd ‹_› hend
        · exact hloop.endsAs hs hlength

/-- A walk that reads a program ends as the parser does, if it has a turn for each token and one
more. -/
theorem follows_program {turns : Nat} (hturns : firstEnd tokens < turns) :
    Follows tokens (firstEnd tokens + 1) (program tokens turns) Parser.program := by
  have hstatements : Follows tokens (firstEnd tokens + 1) (statements tokens turns)
      (get >>= fun s => Parser.statements s.rest.length) :=
    .bind_length (g := Parser.statements) fun l hl =>
      follows_statements (by omega) (by omega) (Nat.le_refl _)
  exact follows_here.bind fun start => hstatements.bind fun ss =>
    follows_here.bind fun stop => .pure (Block.mk ss (start.merge stop))

end

/-! ## Calls -/

section

variable {turns : Nat} {c : Cursor} {s : TokenStream}

/-- A call returns what the parser gives, and the cursor stands where the stream is left. -/
lemma startAt_program (hturns : firstEnd tokens < turns) (hs : c.Shows tokens s) :
    ∃ c', startAt (program tokens turns) c = some (s.program.1, c') ∧
      c'.Shows tokens s.program.2 := by
  have hlength : s.rest.length < firstEnd tokens + 1 := by
    have hfirst := hs.firstEnd_eq
    omega
  obtain ⟨c', hrun, hshows, -⟩ := (follows_program hturns).endsAs hs hlength
  have hanswer : (answer (Parser.program s), left (Parser.program s)) = s.program := by
    rw [TokenStream.program]
    cases Parser.program s <;> rfl
  rw [← hanswer]
  exact ⟨c', hrun, hshows⟩

lemma calls_eq (hturns : firstEnd tokens < turns) (n : Nat) (hs : c.Shows tokens s) :
    ∃ c', calls tokens turns n c = some ((List.range n).map fun i => (s.behind i).program.1, c') ∧
      c'.Shows tokens (s.behind n) := by
  induction n generalizing c s with
  | zero => exact ⟨c, rfl, hs⟩
  | succ n ih =>
      obtain ⟨c', hrun, hshows⟩ := startAt_program hturns hs
      obtain ⟨c'', hcalls, hshows'⟩ := ih hshows
      refine ⟨c'', ?_, hshows'⟩
      rw [List.range_succ_eq_map, List.map_cons, List.map_map, calls, hrun]
      change (calls tokens turns n c').bind _ = _
      rw [hcalls]
      rfl

/-- Where a program has been read, no token is left. -/
lemma rest_of_read {b : Block} (hs : c.Shows tokens s) (hb : s.program.1 = .ok b) :
    s.program.2.rest = [] := by
  obtain ⟨t, ht⟩ := TokenStream.program_ok hb
  obtain ⟨ss, hss, -⟩ := Parser.program_ok.mp ht
  have hend := (Parser.takes_statements (Nat.le_of_eq (TokenStream.length_kinds s)) hss).2
  obtain ⟨c', -, hshows⟩ := startAt_program (Nat.lt_succ_self _) hs
  have hleft : s.program.2 = t := by rw [TokenStream.program, ht]
  rw [hleft] at hshows ⊢
  obtain ⟨_ | ⟨token, rest⟩, stop, last⟩ := t
  · rfl
  · exact absurd hend (hshows.plain token (List.mem_append_right _ List.mem_cons_self))

end

end Walk

namespace TokenStream

variable {s : TokenStream}

/-- Where no token is left, a program without statements is read again and again. -/
lemma program_of_nil (hs : s.rest = []) : s.program = (.ok ⟨[], s.stop⟩, s) := by
  obtain ⟨rest, stop, last⟩ := s
  obtain rfl : rest = [] := hs
  rw [program]
  change (Except.ok (Block.mk [] (stop.merge stop)), _) = _
  rw [Span.merge_self]

lemma behind_of_nil (hs : s.rest = []) (k : Nat) : s.behind k = s := by
  induction k with
  | zero => rfl
  | succ k ih => rw [behind, program_of_nil hs, ih]

lemma behind_add (j k : Nat) (s : TokenStream) : s.behind (j + k) = (s.behind j).behind k := by
  induction j generalizing s with
  | zero => rw [Nat.zero_add, behind]
  | succ j ih => rw [Nat.add_right_comm, behind, behind, ih]

end TokenStream

/-- For any vector of tokens, empty or with ends of the input anywhere, and any number of calls that
read a program from it, one after the other, with any number of turns above that of the tokens:

* every call comes to an end without looking where no token is, and gives what the parser gives;
* in all this the cursor never goes back and never passes the first end of the input;
* and once a call has given a program, every later one gives a program without statements, with the
  span of that end. -/
theorem Walk.calls_return (ts : List Token) (k n : Nat) :
    ∃ c : Cursor,
      calls (tokenVector ts) (ts.length + 1 + k) n {} = some ((List.range n).map (parsed ts), c) ∧
      c.places.Pairwise (· ≥ ·) ∧ (∀ i ∈ c.places, i ≤ firstEnd (tokenVector ts)) ∧
      ∃ stop, (tokenVector ts)[firstEnd (tokenVector ts)]? = some ⟨.endOfInput, stop⟩ ∧
        ∀ i j b, i < j → parsed ts i = .ok b → parsed ts j = .ok ⟨[], stop⟩ := by
  have hstart := Cursor.shows_ofTokens ts
  have hturns : firstEnd (tokenVector ts) < ts.length + 1 + k := by
    have hfirst : _ = 0 + _ := hstart.firstEnd_eq
    have hlength : (TokenStream.ofTokens ts).rest.length ≤ ts.length :=
      (List.takeWhile_prefix _).length_le
    omega
  obtain ⟨c, hcalls, hshows⟩ := calls_eq hturns n hstart
  refine ⟨c, hcalls, hshows.sorted, fun i hi => ?_, _, hstart.getElem?_firstEnd, ?_⟩
  · have hfirst := hshows.firstEnd_eq
    rcases List.mem_cons.mp hi with rfl | hi
    · omega
    · have hle := (List.pairwise_cons.mp hshows.sorted).1 i hi
      omega
  · intro i j b hij hb
    obtain ⟨m, rfl⟩ := Nat.exists_eq_add_of_lt hij
    obtain ⟨c', -, hshows'⟩ := calls_eq hturns i hstart
    obtain ⟨c'', -, hshows''⟩ := startAt_program hturns hshows'
    have hstop := hshows''.getElem?_firstEnd.symm.trans hstart.getElem?_firstEnd
    have hnil := rest_of_read hshows' hb
    have hbehind : (TokenStream.ofTokens ts).behind (i + m + 1) =
        ((TokenStream.ofTokens ts).behind i).program.2 := by
      rw [Nat.add_assoc, TokenStream.behind_add, Nat.add_comm m 1, TokenStream.behind_add]
      exact TokenStream.behind_of_nil hnil m
    rw [parsed, hbehind, TokenStream.program_of_nil hnil]
    exact congrArg (fun stop => Except.ok (Block.mk [] stop))
      (congrArg Token.span (Option.some.inj hstop))

end TypedConfig
