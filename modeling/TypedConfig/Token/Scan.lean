import TypedConfig.Token.Gap
import TypedConfig.Token.Lexeme

/-!
# Scanning a text

A `Source` is what is left of a text together with the position where it begins.  `Source.next`
drops the gap in front, reads one token and says where it stands, or at the end of the text gives
the token for the end, again and again.

**Faults do not stop a source.** A fault comes with the source behind the characters that show it,
so that a caller may go on; `tokenize` does not and reports the first fault.
-/

namespace TypedConfig

/-- A fault in the characters of a text. -/
abbrev ScanError := Located ScanFault

/-- What is left of a text, and where it begins. -/
structure Source where
  position : Position
  rest : List Char
deriving DecidableEq, Repr

namespace Source

/-- The whole of a text. -/
def ofString (s : String) : Source := ⟨.start, s.toList⟩

/-- The next token or fault, and the source behind it. -/
def next (s : Source) : Except ScanError Token × Source :=
  let gap := Gap.split .blank s.rest
  let first := s.position.past gap.1
  match gap.2 with
  | [] => (.ok ⟨.endOfInput, .between first first⟩, ⟨first, []⟩)
  | c :: cs =>
    let reading := Reading.of c cs
    let last := first.past reading.taken
    let span := Span.between first last
    let item := match reading.outcome with
      | .ok kind => .ok ⟨kind, span⟩
      | .error fault => .error ⟨fault, span⟩
    (item, ⟨last, reading.rest⟩)

/-- Unless it is the end, the next token or fault leaves less of the text. -/
theorem length_next (s : Source) :
    (∃ span, s.next.1 = .ok ⟨.endOfInput, span⟩) ∨
      s.next.2.rest.length < s.rest.length := by
  have hgap := Gap.length_split_le .blank s.rest
  unfold next
  dsimp only
  split
  · exact .inl ⟨_, rfl⟩
  · next c cs heq =>
    have h := Reading.length_rest_of c cs
    rw [heq, List.length_cons] at hgap
    exact .inr (by simp only; omega)

/-- The tokens up to the end of the input, or the first fault; `n` bounds their number. -/
def tokens : Nat → Source → Except ScanError (List Token)
  | 0, _ => .ok []
  | n + 1, s =>
    match s.next with
    | (.error e, _) => .error e
    | (.ok t, s) => if t.kind = .endOfInput then .ok [t] else (t :: ·) <$> tokens n s

end Source

/-- The tokens of a text, the end of the input included, or the first fault.  Each token but the
last takes a character, so there are at most as many as characters and one. -/
def tokenize (text : String) : Except ScanError (List Token) :=
  let source := Source.ofString text
  source.tokens (source.rest.length + 1)

end TypedConfig
