import TypedConfig.Proofs.Outlines
import TypedConfig.Token.Basic

/-!
# Covers

Tokens that stand one behind the other take up a part of the text together, from the beginning of
the first one to the end of the last one.

**Two forms.** `coverOf` puts the place together as the parser does, with `Span.merge`; `extent`
says outright what it is to be.  For tokens in order they are the same (`InOrder.extent_eq`).

**Outlines of tokens.** The parts of a node are made of tokens of the node, and the next node is
made of tokens behind it (`Outline.CutFrom`).
-/

namespace TypedConfig

/-! ## Covers -/

/-- The place from the first token to the last one. -/
def coverOf : List Token → Span
  | [] => {}
  | t :: ts => t.span.merge ((t :: ts).getLast (List.cons_ne_nil t ts)).span

/-- The place of tokens: from the beginning of the first one, with its line and column, to the end
of the last one. -/
def extent : List Token → Span
  | [] => {}
  | t :: ts => { t.span with stop := ((t :: ts).getLast (List.cons_ne_nil t ts)).span.stop }

/-- Tokens of which the ones that come later neither begin nor end before the ones ahead of them. -/
def InOrder (ts : List Token) : Prop :=
  ts.Pairwise fun a b => a.span.start ≤ b.span.start ∧ a.span.stop ≤ b.span.stop

section

variable {ts us : List Token} {t : Token}

lemma coverOf_eq (hts : ts ≠ []) :
    coverOf ts = (ts.head hts).span.merge (ts.getLast hts).span := by
  obtain ⟨a, ts, rfl⟩ := List.exists_cons_of_ne_nil hts
  rfl

namespace InOrder

lemma part (h : InOrder ts) (hus : us <:+: ts) : InOrder us := h.sublist hus.sublist

lemma left (h : InOrder (ts ++ us)) : InOrder ts := h.part (List.prefix_append ts us).isInfix

lemma right (h : InOrder (ts ++ us)) : InOrder us := h.part (List.suffix_append ts us).isInfix

lemma tail (h : InOrder (t :: ts)) : InOrder ts := List.Pairwise.of_cons h

/-- No token begins or ends before the first one. -/
lemma head_le (h : InOrder ts) (ht : t ∈ ts) : (ts.head (List.ne_nil_of_mem ht)).span.start ≤
    t.span.start ∧ (ts.head (List.ne_nil_of_mem ht)).span.stop ≤ t.span.stop := by
  obtain ⟨a, ts, rfl⟩ := List.exists_cons_of_ne_nil (List.ne_nil_of_mem ht)
  rcases List.mem_cons.mp ht with rfl | ht
  · exact ⟨Nat.le_refl _, Nat.le_refl _⟩
  · exact List.rel_of_pairwise_cons h ht

/-- No token begins or ends behind the last one. -/
lemma le_getLast (h : InOrder ts) (ht : t ∈ ts) :
    t.span.start ≤ (ts.getLast (List.ne_nil_of_mem ht)).span.start ∧
      t.span.stop ≤ (ts.getLast (List.ne_nil_of_mem ht)).span.stop := by
  have hne := List.ne_nil_of_mem ht
  have hsplit := List.dropLast_concat_getLast hne
  rw [InOrder, ← hsplit, List.pairwise_append] at h
  obtain hbefore | rfl : t ∈ ts.dropLast ∨ t = ts.getLast hne := by
    rwa [← hsplit, List.mem_append, List.mem_singleton] at ht
  · exact h.2.2 t hbefore _ List.mem_cons_self
  · exact ⟨Nat.le_refl _, Nat.le_refl _⟩

/-- The cover of tokens in order begins with the first one and ends with the last one. -/
lemma coverOf_eq (h : InOrder ts) (hts : ts ≠ []) :
    coverOf ts = ⟨(ts.head hts).span.start, (ts.getLast hts).span.stop, (ts.head hts).span.line,
      (ts.head hts).span.column⟩ := by
  obtain ⟨hstart, hstop⟩ := h.head_le (List.getLast_mem hts)
  rw [TypedConfig.coverOf_eq hts, Span.merge_of_le hstart, Nat.max_eq_right hstop]

lemma extent_eq (h : InOrder ts) : extent ts = coverOf ts := by
  cases ts with
  | nil => rfl
  | cons t ts =>
      rw [h.coverOf_eq (List.cons_ne_nil t ts)]
      rfl

/-- Tokens in order stand inside their cover. -/
lemma inside (h : InOrder ts) (ht : t ∈ ts) :
    (coverOf ts).start ≤ t.span.start ∧ t.span.stop ≤ (coverOf ts).stop := by
  rw [h.coverOf_eq (List.ne_nil_of_mem ht)]
  exact ⟨(h.head_le ht).1, (h.le_getLast ht).2⟩

/-- A cover may be widened to tokens behind it. -/
lemma merge_coverOf (h : InOrder (ts ++ us)) (hts : ts ≠ []) (hus : us ≠ []) :
    (coverOf ts).merge (us.getLast hus).span = coverOf (ts ++ us) := by
  have hne : ts ++ us ≠ [] := List.append_ne_nil_of_left_ne_nil hts us
  have hlast := (h.le_getLast (List.mem_append_left us (List.getLast_mem hts))).2
  have hhead := (h.head_le (List.mem_append_right ts (List.getLast_mem hus))).1
  rw [h.coverOf_eq hne, (h.part (List.prefix_append ts us).isInfix).coverOf_eq hts]
  simp only [List.head_append_of_ne_nil hts, List.getLast_append_of_ne_nil hne hus] at hlast hhead ⊢
  refine (Span.merge_of_le ?_).trans ?_
  · exact hhead
  · rw [Nat.max_eq_right hlast]

/-- Some of the tokens stand inside the cover of all. -/
lemma coverOf_inside (h : InOrder ts) (hus : us <:+: ts) (hne : us ≠ []) :
    (coverOf ts).start ≤ (coverOf us).start ∧ (coverOf us).stop ≤ (coverOf ts).stop := by
  rw [(h.part hus).coverOf_eq hne]
  exact ⟨(h.inside (hus.mem (List.head_mem hne))).1, (h.inside (hus.mem (List.getLast_mem hne))).2⟩

end InOrder

/-- Tokens each of which ends before the ones that come later begin. -/
structure Apart (ts : List Token) : Prop where
  bounds : ∀ t ∈ ts, t.span.start ≤ t.span.stop
  disjoint : ts.Pairwise fun a b => a.span.stop ≤ b.span.start

namespace Apart

lemma part (h : Apart ts) (hus : us <:+: ts) : Apart us :=
  ⟨fun t ht => h.bounds t (hus.mem ht), h.disjoint.sublist hus.sublist⟩

lemma inOrder (h : Apart ts) : InOrder ts := by
  refine h.disjoint.imp_of_mem fun {a b} ha hb hab => ?_
  have ha := h.bounds a ha
  have hb := h.bounds b hb
  omega

/-- A cover does not end before it begins. -/
lemma coverOf_bounds (h : Apart ts) (hts : ts ≠ []) : (coverOf ts).start ≤ (coverOf ts).stop := by
  have hinside := h.inOrder.inside (List.head_mem hts)
  have hbounds := h.bounds _ (List.head_mem hts)
  omega

/-- A cover ends before any tokens behind it begin. -/
lemma coverOf_le {vs : List Token} (h : Apart (ts ++ us)) (hts : ts ≠ []) (hvs : vs <:+: us)
    (hne : vs ≠ []) : (coverOf ts).stop ≤ (coverOf vs).start := by
  have horder := h.inOrder
  rw [horder.left.coverOf_eq hts, (horder.right.part hvs).coverOf_eq hne]
  have hdisjoint := (List.pairwise_append.mp h.disjoint).2.2
  exact hdisjoint _ (List.getLast_mem hts) _ (hvs.mem (List.head_mem hne))

end Apart

end

/-! ## Outlines of tokens -/

namespace Outline

/-- Whether outlines are cut from tokens in order: each node stands where tokens from some first one
to some last one do, its parts are cut from these, and the next node is cut from tokens behind
them. -/
inductive CutFrom : List Token → List Outline → Prop where
  | nil {ts : List Token} : CutFrom ts []
  | cons {gap ts rest : List Token} {parts os : List Outline} (hts : ts ≠ [])
      (hparts : CutFrom ts parts) (hos : CutFrom rest os) :
      CutFrom (gap ++ ts ++ rest) (.node (coverOf ts) parts :: os)

namespace CutFrom

variable {ts us : List Token} {os ps : List Outline}

/-- Nothing has to be cut from the first tokens. -/
lemma behind (h : CutFrom ts os) (gap : List Token) : CutFrom (gap ++ ts) os := by
  cases h with
  | nil => exact .nil
  | @cons gap' ts rest parts os hts hparts hos =>
      rw [← List.append_assoc, ← List.append_assoc]
      exact .cons hts hparts hos

lemma append (h : CutFrom ts os) (hps : CutFrom us ps) : CutFrom (ts ++ us) (os ++ ps) := by
  induction h with
  | nil => exact hps.behind _
  | @cons gap ts rest parts os hts hparts hos _ ih =>
      rw [List.append_assoc]
      exact .cons hts hparts ih

/-- Nothing has to be cut from the last tokens. -/
lemma before (h : CutFrom ts os) (gap : List Token) : CutFrom (ts ++ gap) os := by
  rw [← List.append_nil os]
  exact h.append .nil

/-- Tokens become a node when their place is written around what is cut from them. -/
lemma node (h : CutFrom ts os) (hts : ts ≠ []) : CutFrom ts [.node (coverOf ts) os] := by
  have hnode : CutFrom ([] ++ ts ++ []) [.node (coverOf ts) os] := .cons hts h .nil
  rwa [List.append_nil] at hnode

/-- For tokens in order the place of the node may be said outright. -/
lemma node_extent (h : CutFrom ts os) (hts : ts ≠ []) (horder : InOrder ts) :
    CutFrom ts [.node (extent ts) os] := by
  rw [horder.extent_eq]
  exact h.node hts

/-- What holds of tokens, and of two places together when it holds of both, holds of everything that
is cut from the tokens. -/
theorem all {M : Span → Prop} (hM : ∀ a b, M a → M b → M (a.merge b)) (h : CutFrom ts os)
    (hts : ∀ t ∈ ts, M t.span) : AllIn M os := by
  induction h with
  | nil => trivial
  | @cons gap ts rest parts os hne _ _ ihParts ih =>
      simp only [List.forall_mem_append] at hts
      obtain ⟨⟨-, hts⟩, hrest⟩ := hts
      have hcover : M (coverOf ts) := by
        rw [coverOf_eq hne]
        exact hM _ _ (hts _ (List.head_mem hne)) (hts _ (List.getLast_mem hne))
      exact ⟨⟨hcover, ihParts hts⟩, ih hrest⟩

/-- One of the outlines is cut from some of the tokens. -/
lemma of_mem {s : Span} {parts : List Outline} (h : CutFrom ts os) (hmem : .node s parts ∈ os) :
    ∃ us, us <:+: ts ∧ us ≠ [] ∧ s = coverOf us ∧ CutFrom us parts := by
  induction h with
  | nil => cases hmem
  | @cons gap ts rest parts' os hne hparts _ _ ih =>
      rcases List.mem_cons.mp hmem with heq | hmem
      · cases heq
        exact ⟨ts, ⟨gap, rest, rfl⟩, hne, rfl, hparts⟩
      · obtain ⟨us, hus, h⟩ := ih hmem
        exact ⟨us, hus.trans (List.suffix_append _ _).isInfix, h⟩

end CutFrom

end Outline

end TypedConfig
