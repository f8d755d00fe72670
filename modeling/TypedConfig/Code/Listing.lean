import TypedConfig.Code.Instr

/-!
# Listings

A chunk is listed with one instruction a line: its offset, where it came from, its name and what it
carries.

**Columns.** Offsets have at least four digits.  The place is written only where the line of the
text changes and is replaced by a bar otherwise; either way it takes six columns, or more where it
needs them.  What an instruction carries begins in a column of its own, and a string is quoted, so
that each line of the listing is a line of the text.
-/

namespace TypedConfig

/-- A text filled up from the left to a width. -/
def padLeft (width : Nat) (fill : Char) (s : String) : String :=
  String.ofList (List.replicate (width - s.length) fill) ++ s

/-- The name of an instruction, and what it carries. -/
def Instr.text : Instr → String
  | .pushName name => "LOAD_NAME       " ++ name
  | .pushLiteral l => "LOAD_CONST      " ++ l.text
  | .loadValue => "LOAD_VALUE"
  | .resolveType ref isArray isOptional =>
    "RESOLVE_TYPE    " ++ ref.builtinName?.getD "user" ++
      (if isArray then " []" else "") ++ (if isOptional then " ?" else "")
  | .makeField name => "MAKE_FIELD      " ++ name
  | .makeShape count => "MAKE_OBJECT_DEF " ++ count.repr
  | .bindType => "BIND_TYPE"
  | .store true => "STORE           value"
  | .store false => "STORE           default"
  | .newObject => "NEW_OBJECT"
  | .setField => "SET_FIELD"
  | .sealObject => "FINALIZE_INIT"
  | .openScope => "OPEN_SECTION"
  | .closeScope => "CLOSE_SECTION"
  | .loadMember => "LOAD_MEMBER"
  | .call count => "MAKE_CALL       " ++ count.repr

/-- The place of an instruction, given the line of the text of the one before it. -/
def placeText (previousLine : Option Nat) (s : Span) : String :=
  if previousLine = some s.line then "     |" else padLeft 6 ' ' s.text

/-- One line of a listing. -/
def listingLine (offset : Nat) (previousLine : Option Nat) (i : Instr) (s : Span) : String :=
  padLeft 4 '0' offset.repr ++ " " ++ placeText previousLine s ++ " " ++ i.text ++ "\n"

/-- The lines of a listing that begins at an offset. -/
def listingLines : Nat → Option Nat → List (Instr × Span) → List String
  | _, _, [] => []
  | offset, previousLine, (i, s) :: rest =>
    listingLine offset previousLine i s :: listingLines (offset + 1) (some s.line) rest

/-- The listing of a chunk.  Only instructions that have a span are listed. -/
def Chunk.listing (c : Chunk) : String := String.join (listingLines 0 none c.pairs)

/-- There is one line for each instruction. -/
theorem length_listingLines (offset : Nat) (previousLine : Option Nat)
    (ps : List (Instr × Span)) : (listingLines offset previousLine ps).length = ps.length := by
  induction ps generalizing offset previousLine with
  | nil => rfl
  | cons p ps ih => simp [listingLines, ih]

end TypedConfig
