/-!
# What stands between tokens

Tokens are separated by blanks and comments.  A line comment runs from two slashes up to the end of
the line; a block comment runs from `/*` to its `*/` and may hold further block comments.

**A split, not a loop.** `Gap.split` cuts a text into the gap at its beginning and the rest, and
nothing is lost by it (`Gap.split_append`).  A comment that is still open at the end of the text
takes all that is left.
-/

namespace TypedConfig

/-- Where in a gap a character stands. -/
inductive Gap where
  /-- Between comments. -/
  | blank
  /-- In a line comment. -/
  | line
  /-- In a block comment that stands in `depth` others. -/
  | block (depth : Nat)
deriving DecidableEq, Repr

namespace Gap

/-- The characters that separate tokens without a comment. -/
def isBlank (c : Char) : Bool := c = ' ' || c = '\t' || c = '\r' || c = '\n'

/-- Puts characters in front of the first half of a split. -/
def taking (cs : List Char) (split : List Char × List Char) : List Char × List Char :=
  (cs ++ split.1, split.2)

/-- What follows the end of a block comment. -/
def close : Nat → Gap
  | 0 => blank
  | depth + 1 => block depth

/-- The gap at the beginning of a text, and the rest. -/
def split : Gap → List Char → List Char × List Char
  | blank, '/' :: '/' :: cs => taking ['/', '/'] (split line cs)
  | blank, '/' :: '*' :: cs => taking ['/', '*'] (split (block 0) cs)
  | blank, c :: cs => if isBlank c then taking [c] (split blank cs) else ([], c :: cs)
  | line, c :: cs => taking [c] (split (if c = '\n' then blank else line) cs)
  | block depth, '*' :: '/' :: cs => taking ['*', '/'] (split (close depth) cs)
  | block depth, '/' :: '*' :: cs => taking ['/', '*'] (split (block (depth + 1)) cs)
  | block depth, c :: cs => taking [c] (split (block depth) cs)
  | _, [] => ([], [])

/-- A split keeps the text. -/
theorem split_append (g : Gap) (cs : List Char) : (split g cs).1 ++ (split g cs).2 = cs := by
  fun_induction split g cs <;> simp_all [taking]

/-- What is left is no longer than the text. -/
theorem length_split_le (g : Gap) (cs : List Char) : (split g cs).2.length ≤ cs.length := by
  have h := congrArg List.length (split_append g cs)
  simp only [List.length_append] at h
  omega

end Gap

end TypedConfig
