import TypedConfig.Proofs.Rendering

/-!
# Gaps and separators

The scanner skips what stands between tokens with a counter for open comments; a separator is a list
of blanks and of comments that are closed.  They are the same: a separator is skipped as a whole
(`Gap.split_separator`), and whatever is skipped before a token is a separator
(`Gap.exists_separator`).

**Nesting.** A comment inside another one is a whole part of it, so closing the inner one leads back
to where the outer one was.  The marks of a comment overlap, as those of `/*/` do, so a character is
no part of a mark only if the one behind it says so.
-/

namespace TypedConfig

namespace Gap

/-! ## Separators are gaps -/

variable {tail body rest : List Char}

lemma taking_taking (as bs : List Char) (s : List Char × List Char) :
    taking as (taking bs s) = taking (as ++ bs) s := by
  simp only [taking, List.append_assoc]

lemma split_line (h : '\n' ∉ body) :
    split line (body ++ '\n' :: rest) = taking (body ++ ['\n']) (split blank rest) := by
  induction body with
  | nil => rw [List.nil_append, split, if_pos rfl, List.nil_append]
  | cons c cs ih =>
      rw [List.mem_cons, not_or] at h
      rw [List.cons_append, split, if_neg (Ne.symm h.1), ih h.2, taking_taking]
      rfl

/-- The text that closes a comment is taken whole, however deep the comment stands. -/
lemma split_block (h : ClosesComment tail) (depth : Nat) :
    split (block depth) (tail ++ rest) = taking tail (split (close depth) rest) := by
  induction h generalizing depth rest with
  | close => rw [List.cons_append, List.cons_append, List.nil_append, split]
  | @char c d cs hmark _ ih =>
      have hplain : split (block depth) (c :: d :: (cs ++ rest)) =
          taking [c] (split (block depth) (d :: (cs ++ rest))) := by
        -- the two rules for marks come first and do not apply
        rw [split]
        · rintro _ rfl hd
          exact hmark (.inr ⟨rfl, (List.cons.inj hd).1⟩)
        · rintro _ rfl hd
          exact hmark (.inl ⟨rfl, (List.cons.inj hd).1⟩)
      rw [List.cons_append, List.cons_append, hplain, ← List.cons_append, ih, taking_taking]
      rfl
  | @comment inner cs _ _ ihInner ih =>
      -- the inner comment is closed one level deeper and leaves the scanner at this one
      rw [List.cons_append, List.cons_append, List.append_assoc, split, ihInner, close, ih,
        taking_taking, taking_taking]
      rfl

lemma split_filler (f : Filler) :
    split blank (f.chars ++ rest) = taking f.chars (split blank rest) := by
  cases f with
  | blank c h => obtain rfl | rfl | rfl | rfl := h <;> rfl
  | line body h =>
      simp only [Filler.chars, List.cons_append, List.append_assoc, List.nil_append]
      rw [split, split_line h, taking_taking]
      rfl
  | block tail h =>
      simp only [Filler.chars, List.cons_append]
      rw [split, split_block h, taking_taking]
      rfl

/-- A separator is taken whole. -/
lemma split_separator (s : Separator) (rest : List Char) :
    split blank (s.chars ++ rest) = taking s.chars (split blank rest) := by
  induction s with
  | nil => rfl
  | cons f s ih =>
      rw [Separator.chars, List.flatMap_cons, List.append_assoc, split_filler, ← Separator.chars,
        ih, taking_taking]

/-! ## Gaps are separators -/

/-- What is left of a gap, seen from a place in it: the end of the comments that are open there, and
then a separator. -/
inductive Fills : Gap → List Char → Prop
  | blank (s : Separator) : Fills blank s.chars
  | line {body : List Char} (s : Separator) (h : '\n' ∉ body) : Fills line (body ++ '\n' :: s.chars)
  | block {depth : Nat} {tail more : List Char} (h : ClosesComment tail)
      (hmore : Fills (close depth) more) : Fills (block depth) (tail ++ more)

namespace Fills

variable {cs : List Char} {c : Char} {depth : Nat}

lemma filler (f : Filler) (h : Fills .blank cs) : Fills .blank (f.chars ++ cs) := by
  cases h with
  | blank s => exact .blank (f :: s)

lemma lineComment (h : Fills .line cs) : Fills .blank ('/' :: '/' :: cs) := by
  cases h with
  | @line body s hbody =>
      rw [List.append_cons]
      exact .blank (.line body hbody :: s)

lemma blockComment (h : Fills (.block 0) cs) : Fills .blank ('/' :: '*' :: cs) := by
  cases h with
  | block htail hmore => exact hmore.filler (.block _ htail)

lemma lineEnd (h : Fills .blank cs) : Fills .line ('\n' :: cs) := by
  cases h with
  | blank s => exact @line [] s nofun

lemma lineChar (hc : c ≠ '\n') (h : Fills .line cs) : Fills .line (c :: cs) := by
  cases h with
  | @line body s hbody => exact @line (c :: body) s (by simp [hbody, hc.symm])

lemma nested (h : Fills (.block (depth + 1)) cs) : Fills (.block depth) ('/' :: '*' :: cs) := by
  cases h with
  | block hinner hmore =>
      cases hmore with
      | block htail hmore =>
          rw [← List.append_assoc]
          exact .block (.comment hinner htail) hmore

lemma blockChar (hmark : ∀ d ∈ cs.head?, ¬ IsCommentMark c d) (h : Fills (.block depth) cs) :
    Fills (.block depth) (c :: cs) := by
  cases h with
  | @block _ tail more htail hmore =>
      cases tail with
      | nil => cases htail
      | cons d tail => exact @block _ (c :: d :: tail) _ (.char (hmark d rfl) htail) hmore

end Fills

/-- Where a gap ends before something, it is a separator. -/
lemma fills_split (g : Gap) (cs : List Char) (h : (split g cs).2 ≠ []) :
    Fills g (split g cs).1 := by
  fun_induction split g cs with
  | case1 cs ih => exact (ih h).lineComment
  | case2 cs ih => exact (ih h).blockComment
  | case3 c cs _ _ hc ih =>
      have hfiller : Fills .blank ([c] ++ (split blank cs).1) := (ih h).filler
        (.blank c (by simpa [isBlank, or_assoc] using hc))
      exact hfiller
  | case4 => exact .blank []
  | case5 c cs ih =>
      by_cases hc : c = '\n'
      · rw [if_pos hc] at ih h ⊢
        rw [hc]
        exact (ih h).lineEnd
      · rw [if_neg hc] at ih h ⊢
        exact (ih h).lineChar hc
  | case6 depth cs ih => exact .block .close (ih h)
  | case7 depth cs ih => exact (ih h).nested
  | case8 depth c cs hclose hopen ih =>
      have hrest := ih h
      refine hrest.blockChar fun d (hd : (split (block depth) cs).1.head? = some d) hmark => ?_
      obtain ⟨ds, hds⟩ := List.head?_eq_some_iff.mp hd
      have hcs := split_append (block depth) cs
      rw [hds, List.cons_append] at hcs
      obtain ⟨rfl, rfl⟩ | ⟨rfl, rfl⟩ := hmark
      · exact hopen _ rfl hcs.symm
      · exact hclose _ rfl hcs.symm
  | case9 => exact absurd rfl h

/-- What is skipped before a token is a separator. -/
theorem exists_separator {gap rest cs : List Char} {c : Char}
    (h : split blank cs = (gap, c :: rest)) : ∃ s : Separator, s.chars = gap := by
  have hfills := fills_split blank cs (by rw [h]; exact List.cons_ne_nil c rest)
  rw [h] at hfills
  cases hfills with
  | blank s => exact ⟨s, rfl⟩

end Gap

end TypedConfig
