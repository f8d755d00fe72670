import TypedConfig.Proofs.Coverage
import TypedConfig.Proofs.FailedRuns
import TypedConfig.Proofs.Joining
import TypedConfig.Proofs.ParserComplete
import TypedConfig.Proofs.ParserFaults
import TypedConfig.Proofs.ParserSpans
import TypedConfig.Proofs.WellFormed

/-!
# Errors show the text

Whatever is wrong with a text, the error shows a part of it, from one character boundary to another,
with the line and the column where that part begins (`errors_show_text`).

**Places are never made up.** An item of the scanner shows the characters taken for it.  Two parts
of a text together are a part of it, so the places that the parser puts together from those of
tokens are such parts as well, and an instruction stands where a node does.

**Inside the statement.** The tokens of a text stand in order, so the place of a statement holds the
places of all its tokens, and with them those of its nodes, its instructions and their errors.
-/

namespace TypedConfig

variable {text : String}

/-! ## Parts of a text -/

/-- Of two beginnings of a text, the one with fewer bytes is a beginning of the other. -/
lemma prefix_of_utf8ByteSize_le {xs ys zs : List Char} (hxs : xs <+: zs) (hys : ys <+: zs)
    (h : (String.ofList xs).utf8ByteSize ≤ (String.ofList ys).utf8ByteSize) : xs <+: ys := by
  rcases List.prefix_or_prefix_of_prefix hxs hys with hbegin | ⟨more, rfl⟩
  · exact hbegin
  · rw [utf8ByteSize_append] at h
    have hmore : more = [] := by
      by_contra hne
      have hpos := utf8ByteSize_pos hne
      omega
    exact ⟨[], by simp [hmore]⟩

namespace Span

variable {a b : Span}

/-- A part of a text is what stands between two beginnings of it. -/
lemma marks_iff : a.Marks text ↔ ∃ p q, p <+: q ∧ q <+: text.toList ∧
    a = .between (.past .start p) (.past .start q) := by
  constructor
  · rintro ⟨before, chars, after, htext, rfl⟩
    refine ⟨before, before ++ chars, List.prefix_append _ _, ⟨after, htext.symm⟩, ?_⟩
    exact spanBehind_eq before chars
  · rintro ⟨p, q, ⟨chars, rfl⟩, ⟨after, htext⟩, rfl⟩
    exact ⟨p, chars, after, htext.symm, (spanBehind_eq p chars).symm⟩

lemma Marks.merge_of_le (ha : a.Marks text) (hb : b.Marks text) (hle : a.start ≤ b.start) :
    (a.merge b).Marks text := by
  obtain ⟨p, q, hpq, hq, rfl⟩ := marks_iff.mp ha
  obtain ⟨p', q', hpq', hq', rfl⟩ := marks_iff.mp hb
  have hp : p <+: p' := by
    refine prefix_of_utf8ByteSize_le (hpq.trans hq) (hpq'.trans hq') ?_
    simpa only [between, Position.start_past] using hle
  rw [Span.merge_of_le hle, marks_iff]
  rcases Nat.le_total (between (.past .start p) (.past .start q)).stop
    (between (.past .start p') (.past .start q')).stop with hstop | hstop
  · exact ⟨p, q', hp.trans hpq', hq', by rw [Nat.max_eq_right hstop]; rfl⟩
  · exact ⟨p, q, hpq, hq, by rw [Nat.max_eq_left hstop]⟩

lemma merge_comm_of_lt (h : b.start < a.start) : a.merge b = b.merge a := by
  rw [merge, merge, if_neg (Nat.not_le.mpr h), if_pos (Nat.le_of_lt h), Nat.min_comm, Nat.max_comm]

/-- Two parts of a text together are a part of it. -/
lemma Marks.merge (ha : a.Marks text) (hb : b.Marks text) : (a.merge b).Marks text := by
  rcases Nat.lt_or_ge b.start a.start with hlt | hle
  · rw [merge_comm_of_lt hlt]
    exact hb.merge_of_le ha (Nat.le_of_lt hlt)
  · exact ha.merge_of_le hb hle

end Span

/-! ## Tokens of a text -/

namespace Source

variable {n : Nat} {s : Source}

/-- The tokens are what the scanner gives, one after the other. -/
lemma next_behind_of_tokens {ts : List Token} (h : tokens n s = .ok ts) {k : Nat} {t : Token}
    (hk : ts[k]? = some t) : (behind k s).next.1 = .ok t := by
  induction n generalizing s ts k with
  | zero =>
      cases h
      cases hk
  | succ n ih =>
      obtain ⟨first, s', hnext, hts⟩ := tokens_ok h
      cases k with
      | zero =>
          obtain rfl : t = first := by
            rcases hts with ⟨-, rfl⟩ | ⟨-, us, rfl, -⟩ <;> exact (Option.some.inj hk).symm
          rw [behind, hnext]
      | succ k =>
          rw [behind, hnext]
          rcases hts with ⟨-, rfl⟩ | ⟨-, us, rfl, hus⟩
          · cases hk
          · exact ih hus hk

/-- A fault in a text is one that the scanner gives. -/
lemma next_behind_of_tokens_error {e : ScanError} (h : tokens n s = .error e) :
    ∃ k, (behind k s).next.1 = .error e := by
  induction n generalizing s with
  | zero => cases h
  | succ n ih =>
      obtain ⟨s', hnext | ⟨t, hnext, hrest⟩⟩ := tokens_error h
      · exact ⟨0, by rw [behind, hnext]⟩
      · obtain ⟨k, hk⟩ := ih hrest
        exact ⟨k + 1, by rw [behind, hnext]; exact hk⟩

end Source

section

variable {ts : List Token}

/-- The tokens of a text end with the end of the input. -/
lemma exists_end_of_tokenize (h : tokenize text = .ok ts) :
    ∃ us stop, ts = us ++ [⟨.endOfInput, stop⟩] := by
  obtain ⟨us, stop, before, gap, hts, -⟩ := Source.tokens_lineFeed h (Nat.lt_succ_self _)
  exact ⟨us, stop, hts⟩

/-- Items show parts of the text, one behind the other. -/
lemma IsCutInto.stop_le_start_of_lt {pieces : List Piece} {last : List Char}
    (h : IsCutInto text pieces last) {i j : Nat} (hij : i < j) :
    (scanned text i).span.stop ≤ (scanned text j).span.start := by
  induction j with
  | zero => omega
  | succ j ih =>
      have hnext := h.stop_le_start j
      rcases Nat.lt_succ_iff_lt_or_eq.mp hij with hlt | rfl
      · have hbounds := (h.marks j).bounds.1
        have hbefore := ih hlt
        omega
      · exact hnext

/-- The tokens of a text show parts of it, and stand one behind the other. -/
lemma tokens_apart (h : tokenize text = .ok ts) : (∀ t ∈ ts, t.span.Marks text) ∧ Apart ts := by
  obtain ⟨pieces, last, hcut⟩ := exists_isCutInto text
  have hitem {k : Nat} {t : Token} (hk : ts[k]? = some t) : (scanned text k).span = t.span :=
    congrArg ScanItem.span (Source.next_behind_of_tokens h hk)
  have hmarks : ∀ t ∈ ts, t.span.Marks text := by
    intro t ht
    obtain ⟨k, hk⟩ := List.mem_iff_getElem?.mp ht
    rw [← hitem hk]
    exact hcut.marks k
  refine ⟨hmarks, fun t ht => (hmarks t ht).bounds.1,
    List.pairwise_iff_getElem.mpr fun i j hi hj hij => ?_⟩
  rw [← hitem (List.getElem?_eq_getElem hi), ← hitem (List.getElem?_eq_getElem hj)]
  exact hcut.stop_le_start_of_lt hij

/-- The tokens of a text show parts of it, and stand in order. -/
lemma tokens_in_order (h : tokenize text = .ok ts) :
    (∀ t ∈ ts, t.span.Marks text) ∧ InOrder ts := by
  obtain ⟨hmarks, hapart⟩ := tokens_apart h
  exact ⟨hmarks, hapart.inOrder⟩

/-- A fault in the characters of a text shows a part of it. -/
lemma marks_of_tokenize_error {e : ScanError} (h : tokenize text = .error e) :
    e.span.Marks text := by
  obtain ⟨pieces, last, hcut⟩ := exists_isCutInto text
  obtain ⟨k, hk⟩ := Source.next_behind_of_tokens_error h
  have hmarks := hcut.marks k
  rwa [scanned, hk] at hmarks

/-- A stream of the tokens of a text knows only parts of it, and its tokens stand in order. -/
lemma TokenStream.stands_of_tokenize (h : tokenize text = .ok ts) :
    (ofTokens ts).Stands (·.Marks text) ∧ InOrder (ofTokens ts).rest := by
  obtain ⟨hmarks, horder⟩ := tokens_in_order h
  have hstop : (ofTokens ts).stop.Marks text := by
    obtain ⟨us, stop, hend⟩ := exists_end_of_tokenize h
    rw [ofTokens]
    cases hfind : ts.find? (·.kind = .endOfInput) with
    | some t => exact hmarks t (List.mem_of_find?_eq_some hfind)
    | none =>
        have hnone := List.find?_eq_none.mp hfind ⟨.endOfInput, stop⟩ (by simp [hend])
        exact absurd (decide_eq_true rfl) hnone
  have hbegin : (ofTokens ts).rest <+: ts := List.takeWhile_prefix _
  exact ⟨⟨fun t ht => hmarks t (hbegin.mem ht), hstop, hstop⟩, horder.part hbegin.isInfix⟩

/-- A fault in the order of the tokens of a text shows a part of it. -/
lemma marks_of_parseTokens_error (h : tokenize text = .ok ts) {e : ParseError}
    (he : parseTokens ts = .error e) : e.span.Marks text := by
  have hkeeps := Parser.keeps_program (fun _ _ => Span.Marks.merge) (.ofTokens ts)
    (TokenStream.stands_of_tokenize h).1
  rw [parseTokens] at he
  cases hprogram : Parser.program (.ofTokens ts) with
  | ok b t =>
      rw [hprogram] at he
      cases he
  | error e' t =>
      rw [hprogram] at he hkeeps
      cases he
      exact hkeeps

end

/-! ## Statements -/

/-- An outline of a statement begins with the place of the statement. -/
lemma Stmt.exists_outline_eq (st : Stmt) : ∃ parts, st.outline = .node st.span parts := by
  cases st <;> exact ⟨_, rfl⟩

/-- All nodes of a statement stand inside it, at parts of the text. -/
lemma Stmt.all_outline {ts : List Token} {b : Block} {st : Stmt} (h : tokenize text = .ok ts)
    (hb : parseTokens ts = .ok b) (hst : st ∈ b.statements) :
    st.outline.All fun s => s.Marks text ∧ st.span.start ≤ s.start ∧ s.stop ≤ st.span.stop := by
  obtain ⟨t, hprogram⟩ := parseTokens_ok.mp hb
  obtain ⟨hstands, horder⟩ := TokenStream.stands_of_tokenize h
  obtain ⟨us, htook, hcut⟩ := Parser.cuts_program horder hprogram
  obtain ⟨parts, hparts⟩ := st.exists_outline_eq
  have hnode : .node st.span parts ∈ b.statements.map Stmt.outline := by
    rw [← hparts]
    exact List.mem_map_of_mem hst
  obtain ⟨vs, hvs, hne, hspan, hcut⟩ := hcut.of_mem hnode
  have hmem {v : Token} (hv : v ∈ vs) : v ∈ (TokenStream.ofTokens ts).rest := by
    rw [htook.rest]
    exact List.mem_append_left _ (hvs.mem hv)
  have horder := (htook.inOrder horder).1.part hvs
  rw [hparts, hspan]
  -- both properties pass from two places to the place of both together
  refine ((hcut.node hne).all (fun a b ha hb => ?_) fun v hv => ?_).1
  · refine ⟨ha.1.merge hb.1, ?_, ?_⟩
    · exact Nat.le_min.mpr ⟨ha.2.1, hb.2.1⟩
    · exact Nat.max_le.mpr ⟨ha.2.2, hb.2.2⟩
  · exact ⟨hstands.rest v (hmem hv), horder.inside hv⟩

/-- A run that fails comes to a statement at the top of the program and fails there. -/
lemma Block.exists_failed_statement {b : Block} {c : Chunk} (h : b.compile = .ok c)
    {limits : Limits} {host : List HostBinding} {e : RuntimeError}
    (he : (c.machine limits host).run.failure = some e) :
    ∃ pre st post before code after u t, b.statements = pre ++ st :: post ∧
      Stmt.compileAll pre = .ok before ∧ st.compile = .ok code ∧
      (c.machine limits host).Reaches before (code ++ after) u ∧
      runCode (firstOf after none) code u = (t, some e) := by
  obtain ⟨all, hall, hlocated⟩ := compile_ok h
  rw [← hlocated] at hall
  rcases hrun : runCode none c.located (.hosted limits host) with ⟨t, r⟩
  obtain rfl : r = some e :=
    (congrArg Outcome.failure (Stmt.outcome_of_runCode hall hrun)).symm.trans he
  obtain ⟨pre, st, post, before, code, after, u, hsplit, hpre, hst, hcode, hbefore, hfails⟩ :=
    Stmt.runCode_compileAll_failed hall hrun
  refine ⟨pre, st, post, before, code, after, u, t, hsplit, hpre, hst, ⟨?_, ?_⟩, hfails⟩
  · rw [Chunk.pending_machine, hcode]
  · rw [Chunk.state_machine, Stmt.runCode_next_all hpre _ none]
    exact hbefore

/-! ## Errors -/

/-- Every error in a text shows a part of the text, with its line and column:

* a fault in the characters or in the order of the tokens;
* an error of the run, whatever the host has bound and whatever the limits are; it occurs while the
  code of a statement at the top of the program is executed, and shows a part of this statement. -/
theorem errors_show_text (text : String) :
    (∀ e, chunkOf text = .error e → ∃ s, e.span? = some s ∧ s.Marks text) ∧
      ∀ (c : Chunk) (limits : Limits) (host : List HostBinding) (e : RuntimeError),
        chunkOf text = .ok c → (c.machine limits host).run.failure = some e →
        e.span.Marks text ∧
        ∃ b pre st post before code after u t, treeOf text = .ok b ∧
          b.statements = pre ++ st :: post ∧ Stmt.compileAll pre = .ok before ∧
          st.compile = .ok code ∧ (c.machine limits host).Reaches before (code ++ after) u ∧
          runCode (firstOf after none) code u = (t, some e) ∧
          st.span.start ≤ e.span.start ∧ e.span.stop ≤ st.span.stop := by
  rcases chunkOf_cases text with ⟨e, htokens, hchunk⟩ | ⟨ts, e, htokens, hb, hchunk⟩ |
    ⟨ts, b, c, htokens, hb, htree, hc, hchunk⟩
  · rw [hchunk]
    refine ⟨fun e' he' => ?_, nofun⟩
    cases he'
    exact ⟨e.span, rfl, marks_of_tokenize_error htokens⟩
  · rw [hchunk]
    refine ⟨fun e' he' => ?_, nofun⟩
    cases he'
    exact ⟨e.span, rfl, marks_of_parseTokens_error htokens hb⟩
  · rw [hchunk]
    refine ⟨nofun, fun c' limits host e hc' he => ?_⟩
    cases hc'
    obtain ⟨pre, st, post, before, code, after, u, t, hsplit, hpre, hst, hreaches, hfails⟩ :=
      Block.exists_failed_statement hc he
    obtain ⟨i, hi⟩ := mem_of_runCode_failed hfails
    have hmem : st ∈ b.statements := by simp [hsplit]
    obtain ⟨hmarks, hinside⟩ := Stmt.all_compile st hst (Stmt.all_outline htokens hb hmem) _ hi
    exact ⟨hmarks, b, pre, st, post, before, code, after, u, t, htree, hsplit, hpre, hst, hreaches,
      hfails, hinside⟩

/-- A shape in a binding, and a call of an unknown function in the second statement of a text. -/
theorem errors_show_text_sample :
    chunkOf "let x: object{}" = .error (.parse ⟨.objectOutsideTypedef, ⟨7, 15, 1, 8⟩⟩) ∧
      Span.Marks ⟨7, 15, 1, 8⟩ "let x: object{}" ∧
      ∃ c, chunkOf "f()\ng()" = .ok c ∧
        (c.machine {} [.register ⟨"f", .recorded⟩]).run.failure =
          some ⟨.functionNotFound "g", ⟨4, 5, 2, 1⟩⟩ ∧
        Span.Marks ⟨4, 5, 2, 1⟩ "f()\ng()" := by
  have htokens : tokenize "let x: object{}" = .ok [⟨.keyword .letWord, ⟨0, 3, 1, 1⟩⟩,
      ⟨.name "x", ⟨4, 5, 1, 5⟩⟩, ⟨.symbol .colon, ⟨5, 6, 1, 6⟩⟩, ⟨.name "object", ⟨7, 13, 1, 8⟩⟩,
      ⟨.symbol .openBrace, ⟨13, 14, 1, 14⟩⟩, ⟨.symbol .closeBrace, ⟨14, 15, 1, 15⟩⟩,
      ⟨.endOfInput, ⟨15, 15, 1, 16⟩⟩] := rfl
  have hparse : chunkOf "let x: object{}" =
      .error (.parse ⟨.objectOutsideTypedef, ⟨7, 15, 1, 8⟩⟩) := by
    rw [chunkOf, treeOf, tokensOf, htokens]
    rfl
  have htokens' : tokenize "f()\ng()" = .ok [⟨.name "f", ⟨0, 1, 1, 1⟩⟩,
      ⟨.symbol .openParen, ⟨1, 2, 1, 2⟩⟩, ⟨.symbol .closeParen, ⟨2, 3, 1, 3⟩⟩,
      ⟨.name "g", ⟨4, 5, 2, 1⟩⟩, ⟨.symbol .openParen, ⟨5, 6, 2, 2⟩⟩,
      ⟨.symbol .closeParen, ⟨6, 7, 2, 3⟩⟩, ⟨.endOfInput, ⟨7, 7, 2, 4⟩⟩] := rfl
  obtain ⟨c, hc⟩ : ∃ c, chunkOf "f()\ng()" = .ok c := by
    rw [chunkOf, treeOf, tokensOf, htokens']
    exact ⟨_, rfl⟩
  have hrun : (c.machine {} [.register ⟨"f", .recorded⟩]).run.failure =
      some ⟨.functionNotFound "g", ⟨4, 5, 2, 1⟩⟩ := by
    rw [chunkOf, treeOf, tokensOf, htokens'] at hc
    cases hc
    decide +kernel
  obtain ⟨s, hs, hmarks⟩ := (errors_show_text "let x: object{}").1 _ hparse
  cases hs
  exact ⟨hparse, hmarks, c, hc, hrun, ((errors_show_text "f()\ng()").2 c {} _ _ hc hrun).1⟩

end TypedConfig
