/-!
# Places in a source text

A `Position` says where a character stands, a `Span` which part of the text something takes up.

**Two measures.** Offsets count the bytes of the text's UTF-8 form, since that is what a tool that
cuts the text needs.  Lines and columns count from one and columns count characters, since that is
what a reader of a message needs.  Only a line feed ends a line.

**Positions are a fold.** `Position.past` takes a position past a piece of text one character at a
time, so the position after two pieces is the position after the second, started where the first
one ended (`Position.past_append`).  Everything that is known about where a token stands follows
from this one law.
-/

namespace TypedConfig

/-- Where a character stands: the bytes before it, its line and its column. -/
structure Position where
  offset : Nat
  line : Nat
  column : Nat
deriving DecidableEq, Repr, Inhabited

namespace Position

/-- The beginning of a text. -/
def start : Position := ⟨0, 1, 1⟩

/-- The position after the character `c`. -/
def step (p : Position) (c : Char) : Position :=
  if c = '\n' then ⟨p.offset + c.utf8Size, p.line + 1, 1⟩
  else ⟨p.offset + c.utf8Size, p.line, p.column + 1⟩

/-- The position after the text `cs`. -/
def past (p : Position) (cs : List Char) : Position :=
  cs.foldl step p

@[simp] theorem past_nil (p : Position) : p.past [] = p := rfl

@[simp] theorem past_cons (p : Position) (c : Char) (cs : List Char) :
    p.past (c :: cs) = (p.step c).past cs := rfl

/-- The position after a text is reached in two parts as well. -/
theorem past_append (p : Position) (cs ds : List Char) :
    p.past (cs ++ ds) = (p.past cs).past ds := by
  simp [past]

end Position

/-- A part of a source text: the bytes from `start` up to but not including `stop`, and the line
and column at which it begins. -/
structure Span where
  start : Nat := 0
  stop : Nat := 0
  line : Nat := 1
  column : Nat := 1
deriving DecidableEq, Repr, Inhabited

namespace Span

/-- The part of the text between two positions. -/
def between (p q : Position) : Span := ⟨p.offset, q.offset, p.line, p.column⟩

/-- The smallest part that holds both, at the line and column of the one that begins first; of two
that begin together it is the left one. -/
def merge (a b : Span) : Span :=
  let first := if a.start ≤ b.start then a else b
  ⟨min a.start b.start, max a.stop b.stop, first.line, first.column⟩

/-- The empty part at the end of a span, still at the line and column where the span begins. -/
def atEnd (s : Span) : Span := ⟨s.stop, s.stop, s.line, s.column⟩

/-- The text `line:column`. -/
def text (s : Span) : String := toString s.line ++ ":" ++ toString s.column

/-- Where the left part begins first, the merged part stands where the left one does. -/
theorem merge_of_le {a b : Span} (h : a.start ≤ b.start) :
    a.merge b = ⟨a.start, max a.stop b.stop, a.line, a.column⟩ := by
  unfold merge
  rw [if_pos h, Nat.min_eq_left h]

/-- Merging is idempotent. -/
theorem merge_self (a : Span) : a.merge a = a := by
  simp [merge]

end Span

/-- A fault together with the part of the text that shows it. -/
structure Located (ε : Type) where
  cause : ε
  span : Span
deriving DecidableEq, Repr

namespace Located

/-- The words for the fault, followed by where it is. -/
def describe {ε : Type} (words : ε → String) (e : Located ε) : String :=
  words e.cause ++ " at " ++ e.span.text

/-- The same fault, shown elsewhere. -/
def moveTo {ε : Type} (e : Located ε) (s : Span) : Located ε := { e with span := s }

end Located

end TypedConfig
