import TypedConfig.Literal
import TypedConfig.Span

/-!
# Instructions

A program is evaluated by a stack machine from a straight list of instructions: there are no jumps,
so each instruction is executed once, in order.

**Chunks.** A `Chunk` is such a list together with the part of the text that each instruction came
from.  The two lists of a chunk made by the compiler are of one length; a chunk made by hand may
have too few spans, and then the missing ones are the beginning of the text.
-/

namespace TypedConfig

/-- How a type's name is resolved: the four builtin types need no lookup. -/
inductive TypeRef where
  | string
  | integer
  | boolean
  | float
  | user
deriving DecidableEq, Repr

namespace TypeRef

/-- What a type's name refers to. -/
def ofName (name : String) : TypeRef :=
  if name = "string" then string
  else if name = "int" then integer
  else if name = "bool" then boolean
  else if name = "float" then float
  else user

/-- The name of a builtin type. -/
def builtinName? : TypeRef → Option String
  | string => some "string"
  | integer => some "int"
  | boolean => some "bool"
  | float => some "float"
  | user => none

/-- A builtin type is found under its own name. -/
theorem ofName_builtinName {r : TypeRef} {name : String} (h : r.builtinName? = some name) :
    ofName name = r := by
  cases r <;> simp only [builtinName?, Option.some.injEq, reduceCtorEq] at h <;> subst h <;> decide

end TypeRef

/-- An instruction. -/
inductive Instr where
  /-- Pushes a name. -/
  | pushName (name : String)
  /-- Pushes the value of a literal. -/
  | pushLiteral (literal : Literal)
  /-- Pops a name and pushes the value bound to it. -/
  | loadValue
  /-- Pops the name of a type and pushes the type. -/
  | resolveType (ref : TypeRef) (isArray isOptional : Bool)
  /-- Pops a type and pushes a field of that type. -/
  | makeField (name : String)
  /-- Pops that many fields and pushes the shape that they make. -/
  | makeShape (count : Nat)
  /-- Pops a name and a shape or type, and binds the type to the name. -/
  | bindType
  /-- Pops a name, a value if there is one, and the declared type, and binds the value. -/
  | store (hasValue : Bool)
  /-- Pushes the type of a new object and an object without fields. -/
  | newObject
  /-- Pops a value, a name and an object, and pushes the object with the field. -/
  | setField
  /-- Sees to it that the object on top has all the fields it needs. -/
  | sealObject
  /-- Pops a name and opens a scope. -/
  | openScope
  /-- Closes the innermost scope. -/
  | closeScope
  /-- Pops a name and a value and pushes the value's field; directly before a call, pushes the
  method that is to be called. -/
  | loadMember
  /-- Pops what is called and that many arguments, and makes the call. -/
  | call (count : Nat)
deriving DecidableEq, Repr

/-- Instructions and where they came from. -/
structure Chunk where
  code : List Instr := []
  spans : List Span := []
deriving DecidableEq, Repr

namespace Chunk

/-- The chunk with the given instructions and spans. -/
def ofPairs (pairs : List (Instr × Span)) : Chunk := ⟨pairs.map (·.1), pairs.map (·.2)⟩

/-- The chunk with one more instruction at its end. -/
def emit (c : Chunk) (i : Instr) (s : Span) : Chunk := ⟨c.code ++ [i], c.spans ++ [s]⟩

/-- The span of the instruction at an offset; a missing one is the beginning of the text. -/
def spanAt (c : Chunk) (offset : Nat) : Span := c.spans[offset]?.getD {}

/-- The instructions that have a span, with it. -/
def pairs (c : Chunk) : List (Instr × Span) := c.code.zip c.spans

/-- All instructions with their spans, the missing ones filled in. -/
def located (c : Chunk) : List (Instr × Span) := go c.code c.spans
where
  go : List Instr → List Span → List (Instr × Span)
    | [], _ => []
    | i :: is, [] => (i, {}) :: go is []
    | i :: is, s :: ss => (i, s) :: go is ss

/-- Filling in keeps the instructions. -/
theorem map_fst_located (c : Chunk) : c.located.map (·.1) = c.code := by
  have go : ∀ is ss, (located.go is ss).map (·.1) = is := by
    intro is ss
    fun_induction located.go is ss <;> simp_all
  exact go _ _

/-- Every pair has a span, so none is left out. -/
theorem pairs_ofPairs (ps : List (Instr × Span)) : (ofPairs ps).pairs = ps := by
  induction ps with
  | nil => rfl
  | cons p ps ih => simpa [ofPairs, pairs] using ih

/-- No span is missing, so none is filled in. -/
theorem located_ofPairs (ps : List (Instr × Span)) : (ofPairs ps).located = ps := by
  unfold located ofPairs
  induction ps with
  | nil => rfl
  | cons p ps ih => simpa [located.go] using ih

end Chunk

end TypedConfig
