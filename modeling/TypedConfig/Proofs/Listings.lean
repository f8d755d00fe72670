import Mathlib.Tactic.Common
import TypedConfig.Proofs.ListingReader

/-!
# What a listing tells

Two chunks with the same listing are the same program: they have the same instructions, with all
that these carry, from the same lines of the text (`Chunk.listing_determines`).  Where in its line
an instruction stood is told only of the first one that is from there.

The first line of a listing is read whatever the listing is, and what is left of it is the listing
of the other instructions, so two listings are compared line by line.
-/

namespace TypedConfig

/-- Whether a chunk can be told from its listing: every instruction is listed, and can be told from
its line. -/
structure Chunk.Legible (c : Chunk) : Prop where
  spans : c.spans.length = c.code.length
  code : ∀ i ∈ c.code, i.Legible

namespace ListingReader

/-- What a listing is made for, without the columns. -/
def lineOf (p : Instr × Span) : Instr × Nat := (p.1, p.2.line)

/-- The first line of a listing is read back. -/
lemma line_listingLines (offset : Nat) (previous : Option Nat) {p : Instr × Span}
    (hp : p.1.Legible) (ps : List (Instr × Span)) :
    line previous (String.join (listingLines offset previous (p :: ps))).toList =
      some (lineOf p, (String.join (listingLines (offset + 1) (some p.2.line) ps)).toList) := by
  rw [listingLines, String.join_cons, String.toList_append, line_listingLine offset previous hp]
  rfl

lemma line_listingLines_nil (offset : Nat) (previous : Option Nat) :
    line previous (String.join (listingLines offset previous [])).toList = none := rfl

/-- Instructions with the same listing are the same, and from the same lines. -/
lemma map_lineOf_eq {offset : Nat} {previous : Option Nat} {ps qs : List (Instr × Span)}
    (hps : ∀ p ∈ ps, p.1.Legible) (hqs : ∀ q ∈ qs, q.1.Legible)
    (h : String.join (listingLines offset previous ps) =
      String.join (listingLines offset previous qs)) : ps.map lineOf = qs.map lineOf := by
  induction ps generalizing offset previous qs with
  | nil =>
      cases qs with
      | nil => rfl
      | cons q qs =>
          have hq := line_listingLines offset previous (hqs q List.mem_cons_self) qs
          rw [← h, line_listingLines_nil] at hq
          cases hq
  | cons p ps ih =>
      have hp := line_listingLines offset previous (hps p List.mem_cons_self) ps
      cases qs with
      | nil =>
          rw [h, line_listingLines_nil] at hp
          cases hp
      | cons q qs =>
          have hq := line_listingLines offset previous (hqs q List.mem_cons_self) qs
          rw [h, hq, Option.some.injEq, Prod.mk.injEq] at hp
          obtain ⟨hfirst, hrest⟩ := hp
          have hline : p.2.line = q.2.line := (congrArg Prod.snd hfirst).symm
          rw [String.toList_inj, hline] at hrest
          have hmore := ih (fun r hr => hps r (List.mem_cons_of_mem p hr))
            (fun r hr => hqs r (List.mem_cons_of_mem q hr)) hrest.symm
          rw [List.map_cons, List.map_cons, hfirst, hmore]

end ListingReader

open ListingReader

lemma Chunk.Legible.map_lineOf_pairs {c : Chunk} (hc : c.Legible) :
    (c.pairs.map lineOf).map (·.1) = c.code ∧
      (c.pairs.map lineOf).map (·.2) = c.spans.map (·.line) := by
  constructor
  · rw [List.map_map]
    exact List.map_fst_zip (le_of_eq hc.spans.symm)
  · calc (c.pairs.map lineOf).map (·.2) = (c.pairs.map (·.2)).map (·.line) := by
          rw [List.map_map, List.map_map]
          rfl
      _ = c.spans.map (·.line) := by rw [pairs, List.map_snd_zip (le_of_eq hc.spans)]

/-- Let two chunks have a span for every instruction, no name that is longer than a line and no
literal that is not a number.  If they have the same listing, they have the same instructions, which
come from the same lines. -/
theorem Chunk.listing_determines {c d : Chunk} (hc : c.Legible) (hd : d.Legible)
    (h : c.listing = d.listing) :
    c.code = d.code ∧ c.spans.map (·.line) = d.spans.map (·.line) := by
  have hlegible {e : Chunk} (he : e.Legible) : ∀ p ∈ e.pairs, p.1.Legible := fun p hp =>
    he.code p.1 (List.of_mem_zip hp).1
  have hlines : c.pairs.map lineOf = d.pairs.map lineOf :=
    map_lineOf_eq (hlegible hc) (hlegible hd) h
  constructor
  · rw [← hc.map_lineOf_pairs.1, hlines, hd.map_lineOf_pairs.1]
  · rw [← hc.map_lineOf_pairs.2, hlines, hd.map_lineOf_pairs.2]

/-- A name that is longer than a line is taken for an instruction behind it. -/
example : (Chunk.mk [.pushName "a\n0001      | LOAD_VALUE"] [{}]).listing =
    (Chunk.mk [.pushName "a", .loadValue] [{}, {}]).listing := by decide

/-- Chunks with the same listing that differ in columns behind the first instruction of a line. -/
theorem Chunk.listing_determines_columns :
    let code : List Instr := [.pushName "float", .resolveType .float true false,
      .pushLiteral (.string "a\n\"\\"), .pushLiteral (.float ⟨0xBFF8000000000000⟩), .store true]
    let c : Chunk :=
      ⟨code, [⟨7, 12, 1, 8⟩, ⟨7, 14, 1, 8⟩, ⟨20, 23, 2, 3⟩, ⟨24, 28, 2, 7⟩, ⟨0, 9, 4, 1⟩]⟩
    let d : Chunk :=
      ⟨code, [⟨7, 12, 1, 8⟩, ⟨12, 14, 1, 13⟩, ⟨20, 23, 2, 3⟩, ⟨25, 28, 2, 8⟩, ⟨0, 9, 4, 1⟩]⟩
    c.Legible ∧ d.Legible ∧ c.listing = d.listing ∧
      c.code = d.code ∧ c.spans.map (·.line) = d.spans.map (·.line) := by
  intro code c d
  have hcode : ∀ i ∈ code, i.Legible := by
    have hname : '\n' ∉ "float".toList := by decide
    simp only [code, List.forall_mem_cons]
    refine ⟨hname, trivial, nofun, ?_, trivial, nofun⟩
    rintro x ⟨⟩
    decide
  have hc : c.Legible := ⟨rfl, hcode⟩
  have hd : d.Legible := ⟨rfl, hcode⟩
  have hlisting : c.listing = d.listing := by decide +kernel
  exact ⟨hc, hd, hlisting, listing_determines hc hd hlisting⟩

end TypedConfig
