import TypedConfig.Proofs.ErrorPlaces

/-!
# Trees of a text

The tree of a text shows the text exactly: every node stands where the tokens do that spell it, from
the beginning of the first one to the end of the last one (`treeOf_spelled_nested`).

**Nesting.** The tokens of a text stand one behind the other.  So the parts of a node, which are cut
from its tokens, stand inside it and one behind the other as well (`Outline.Nested`).

**To the end.** The statements of a program take all its tokens, so its place ends with that of the
end of the input.
-/

namespace TypedConfig

/-! ## Nested outlines -/

namespace Outline

/-- Where the node of an outline stands. -/
def span : Outline → Span
  | .node s _ => s

/-- Whether the parts of every node stand inside it, in their order and without a common byte. -/
inductive Nested : Outline → Prop where
  | node {s : Span} {parts : List Outline} (hspan : s.start ≤ s.stop)
      (hinside : ∀ p ∈ parts, s.start ≤ p.span.start ∧ p.span.stop ≤ s.stop)
      (hdisjoint : parts.Pairwise fun p q => p.span.stop ≤ q.span.start)
      (hparts : ∀ p ∈ parts, p.Nested) : Nested (.node s parts)

namespace CutFrom

variable {ts : List Token} {os : List Outline}

/-- One of the outlines stands where some of the tokens do. -/
lemma span_of_mem {o : Outline} (h : CutFrom ts os) (ho : o ∈ os) :
    ∃ us, us <:+: ts ∧ us ≠ [] ∧ o.span = coverOf us := by
  obtain ⟨s, parts⟩ := o
  obtain ⟨us, hus, hne, hspan, -⟩ := h.of_mem ho
  exact ⟨us, hus, hne, hspan⟩

/-- What is cut from tokens that stand one behind the other is nested, and stands one behind the
other. -/
theorem nested (h : CutFrom ts os) (hts : Apart ts) :
    (∀ o ∈ os, o.Nested) ∧ os.Pairwise fun o p => o.span.stop ≤ p.span.start := by
  induction h with
  | nil => exact ⟨List.forall_mem_nil _, .nil⟩
  | @cons gap ts rest parts os hne hparts hos ihParts ih =>
      rw [List.append_assoc] at hts
      have hboth : Apart (ts ++ rest) := hts.part (List.suffix_append _ _).isInfix
      have hnode : Apart ts := hboth.part (List.prefix_append _ _).isInfix
      obtain ⟨hnested, hdisjoint⟩ := ihParts hnode
      obtain ⟨hothers, hbehind⟩ := ih (hboth.part (List.suffix_append _ _).isInfix)
      have hinside (p : Outline) (hp : p ∈ parts) :
          (coverOf ts).start ≤ p.span.start ∧ p.span.stop ≤ (coverOf ts).stop := by
        obtain ⟨us, hus, hne, hspan⟩ := hparts.span_of_mem hp
        rw [hspan]
        exact hnode.inOrder.coverOf_inside hus hne
      have hfirst (p : Outline) (hp : p ∈ os) : (coverOf ts).stop ≤ p.span.start := by
        obtain ⟨us, hus, hne', hspan⟩ := hos.span_of_mem hp
        rw [hspan]
        exact hboth.coverOf_le hne hus hne'
      refine ⟨List.forall_mem_cons.mpr ⟨?_, hothers⟩, List.pairwise_cons.mpr ⟨hfirst, hbehind⟩⟩
      exact .node (hnode.coverOf_bounds hne) hinside hdisjoint hnested

end CutFrom

end Outline

/-! ## Programs -/

/-- Only the last of the tokens is the end of the input. -/
lemma Source.ne_end_of_tokens {n : Nat} {s : Source} {us : List Token} {t : Token}
    (h : tokens n s = .ok (us ++ [t])) : ∀ u ∈ us, u.kind ≠ .endOfInput := by
  induction us generalizing n s with
  | nil => exact List.forall_mem_nil _
  | cons u us ih =>
      cases n with
      | zero => cases h
      | succ n =>
          obtain ⟨first, s', -, ⟨-, hts⟩ | ⟨hfirst, rest, hts, hrest⟩⟩ := tokens_ok h
          · simp at hts
          · obtain ⟨rfl, rfl⟩ := List.cons.inj hts
            exact List.forall_mem_cons.mpr ⟨hfirst, ih hrest⟩

/-- A program is spelled by its tokens and the end of the input. -/
lemma Block.spelled_of_parseTokens {body : List Token} {stop : Span} {b : Block}
    (hbody : ∀ t ∈ body, t.kind ≠ .endOfInput)
    (horder : InOrder (body ++ [⟨.endOfInput, stop⟩]))
    (h : parseTokens (body ++ [⟨.endOfInput, stop⟩]) = .ok b) :
    b.Spelled (body ++ [⟨.endOfInput, stop⟩]) := by
  obtain ⟨t, hprogram⟩ := parseTokens_ok.mp h
  have hnil : t.rest = [] := List.map_eq_nil_iff.mp (Parser.takes_program hbody hprogram).2
  rw [TokenStream.ofTokens_eq hbody] at hprogram
  obtain ⟨ts, htook, hspelled⟩ := Parser.spells_program horder.left hprogram
  obtain rfl : body = ts := by
    have hrest := htook.rest
    rwa [hnil, List.append_nil] at hrest
  obtain ⟨ss, -, rfl⟩ := Parser.program_ok.mp hprogram
  have hspan : (TokenStream.mk body stop stop).span.merge t.span =
      extent (body ++ [⟨.endOfInput, stop⟩]) := by
    have hstop : t.span = stop := by
      rw [TokenStream.span, hnil]
      exact htook.stop
    rw [horder.extent_eq, coverOf_eq (by simp), List.getLast_concat, hstop]
    cases body <;> rfl
  rw [hspan]
  exact .mk hspelled rfl

lemma treeOf_ok {text : String} {b : Block} (h : treeOf text = .ok b) :
    ∃ ts, tokenize text = .ok ts ∧ parseTokens ts = .ok b := by
  rw [treeOf, tokensOf] at h
  cases htokens : tokenize text with
  | error e =>
      rw [htokens] at h
      cases h
  | ok ts =>
      refine ⟨ts, rfl, ?_⟩
      rw [htokens] at h
      simp only [Except.mapError, bind, Except.bind] at h
      cases hb : parseTokens ts with
      | error e =>
          rw [hb] at h
          cases h
      | ok b' =>
          rw [hb] at h
          cases h
          rfl

/-- The tree of a text is spelled by the tokens of the text, which show parts of it:

* every node stands where its tokens do, from the beginning of the first one, with its line and
  column, to the end of the last one; the program stands where all tokens do, the end of the input
  included;
* every part of a node stands inside it, and its parts stand one behind the other. -/
theorem treeOf_spelled_nested {text : String} {b : Block} (h : treeOf text = .ok b) :
    ∃ ts, tokenize text = .ok ts ∧ (∀ t ∈ ts, t.span.Marks text) ∧ b.Spelled ts ∧
      b.outline.Nested := by
  obtain ⟨ts, htokens, hb⟩ := treeOf_ok h
  obtain ⟨hmarks, hapart⟩ := tokens_apart htokens
  obtain ⟨body, stop, rfl⟩ := exists_end_of_tokenize htokens
  have hspelled := Block.spelled_of_parseTokens (Source.ne_end_of_tokens htokens) hapart.inOrder hb
  have hcut := hspelled.cutFrom hapart.inOrder
  exact ⟨_, htokens, hmarks, hspelled, (hcut.nested hapart).1 _ List.mem_cons_self⟩

/-- A new object, whose field does not hold the comma behind it, and a call on a line of its own. -/
theorem treeOf_spelled_nested_sample :
    let b : Block := ⟨[
      .binding "a" (.named "T" ⟨7, 8, 1, 8⟩)
        (some (.object [⟨"b", .member (.name "x" ⟨21, 22, 1, 22⟩) "y" ⟨21, 24, 1, 22⟩,
          ⟨17, 24, 1, 18⟩⟩] ⟨11, 27, 1, 12⟩)) ⟨0, 27, 1, 1⟩,
      .effect (.call (.name "f" ⟨28, 29, 2, 1⟩) [.name "a" ⟨30, 31, 2, 3⟩] ⟨28, 32, 2, 1⟩)
        ⟨28, 32, 2, 1⟩], ⟨0, 32, 1, 1⟩⟩
    treeOf "let a: T = new \x7b b = x.y, \x7d\nf(a)" = .ok b ∧
      ∃ ts, tokenize "let a: T = new \x7b b = x.y, \x7d\nf(a)" = .ok ts ∧
        (∀ t ∈ ts, t.span.Marks "let a: T = new \x7b b = x.y, \x7d\nf(a)") ∧
        b.Spelled ts ∧ b.outline.Nested := by
  intro b
  have htokens : tokenize "let a: T = new \x7b b = x.y, \x7d\nf(a)" = .ok [
      ⟨.keyword .letWord, ⟨0, 3, 1, 1⟩⟩, ⟨.name "a", ⟨4, 5, 1, 5⟩⟩,
      ⟨.symbol .colon, ⟨5, 6, 1, 6⟩⟩, ⟨.name "T", ⟨7, 8, 1, 8⟩⟩,
      ⟨.symbol .equals, ⟨9, 10, 1, 10⟩⟩, ⟨.keyword .newWord, ⟨11, 14, 1, 12⟩⟩,
      ⟨.symbol .openBrace, ⟨15, 16, 1, 16⟩⟩, ⟨.name "b", ⟨17, 18, 1, 18⟩⟩,
      ⟨.symbol .equals, ⟨19, 20, 1, 20⟩⟩, ⟨.name "x", ⟨21, 22, 1, 22⟩⟩,
      ⟨.symbol .dot, ⟨22, 23, 1, 23⟩⟩, ⟨.name "y", ⟨23, 24, 1, 24⟩⟩,
      ⟨.symbol .comma, ⟨24, 25, 1, 25⟩⟩, ⟨.symbol .closeBrace, ⟨26, 27, 1, 27⟩⟩,
      ⟨.name "f", ⟨28, 29, 2, 1⟩⟩, ⟨.symbol .openParen, ⟨29, 30, 2, 2⟩⟩,
      ⟨.name "a", ⟨30, 31, 2, 3⟩⟩, ⟨.symbol .closeParen, ⟨31, 32, 2, 4⟩⟩,
      ⟨.endOfInput, ⟨32, 32, 2, 5⟩⟩] := rfl
  have hb : treeOf "let a: T = new \x7b b = x.y, \x7d\nf(a)" = .ok b := by
    rw [treeOf, tokensOf, htokens]
    rfl
  exact ⟨hb, treeOf_spelled_nested hb⟩

end TypedConfig
