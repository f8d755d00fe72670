import TypedConfig.Machine.Fault
import TypedConfig.Value.Basic

/-!
# The data stack

Instructions hand each other their operands on one stack.  Its cells are of several kinds, and every
pop says which kind it wants.

**Popping and failing.** A pop that finds a cell of another kind takes it off all the same; a pop
from an empty stack and a push onto a full one leave the stack as it is.

**Objects under construction.** A new object has its type in the cell below.  Popped as a value, the
object and that cell are one value.
-/

namespace TypedConfig

/-- What can lie on the data stack. -/
inductive Cell where
  | name (name : String)
  | type (type : DataType)
  | value (value : Value)
  /-- The fields of an object under construction. -/
  | object (fields : Bindings Value)
  /-- A field of a shape under construction. -/
  | field (name : String) (type : DataType)
  | shape (shape : Shape)
  /-- The method that is to be called, and the value it is called on. -/
  | method (name : String) (receiver : Value)

/-- The kind of a cell, as messages have it. -/
def Cell.kind : Cell → String
  | .name _ => "name"
  | .type _ => "type"
  | .value _ => "value"
  | .object _ => "object"
  | .field _ _ => "field"
  | .shape _ => "object definition"
  | .method _ _ => "function lookup"

/-- Cells, the topmost first, and how many there may be. -/
structure DataStack where
  cells : List Cell
  limit : Nat

/-- A computation on the data stack that may fail.  It leaves a stack in either case. -/
abbrev StackAction := EStateM RuntimeFault DataStack

namespace DataStack

/-- A stack without cells. -/
def empty (limit : Nat) : DataStack := ⟨[], limit⟩

/-- The number of cells. -/
def size (s : DataStack) : Nat := s.cells.length

def isEmpty (s : DataStack) : Bool := s.cells.isEmpty

/-- The stack without its cells. -/
def clear (s : DataStack) : DataStack := { s with cells := [] }

/-- Puts a cell on top. -/
def push (c : Cell) : StackAction Unit := fun s =>
  if s.size < s.limit then .ok () { s with cells := c :: s.cells }
  else .error (.tooManyCells s.limit) s

/-- Takes the topmost cell. -/
def pop : StackAction Cell := do
  let s ← get
  match s.cells with
  | [] => throw (.internal "data stack is empty")
  | c :: cs =>
    set { s with cells := cs }
    return c

/-- The cell that far below the topmost one. -/
def peek (depth : Nat) : StackAction Cell := do
  match (← get).cells[depth]? with
  | some c => return c
  | none => throw (.noCell depth)

/-- Takes a name. -/
def popName : StackAction String := do
  match ← pop with
  | .name name => return name
  | c => throw (.wrongCell "name" c.kind)

/-- Takes a type. -/
def popType : StackAction DataType := do
  match ← pop with
  | .type t => return t
  | c => throw (.wrongCell "type" c.kind)

/-- Takes an object under construction. -/
def popObject : StackAction (Bindings Value) := do
  match ← pop with
  | .object fields => return fields
  | c => throw (.wrongCell "object" c.kind)

/-- Takes a field of a shape. -/
def popField : StackAction (String × DataType) := do
  match ← pop with
  | .field name t => return (name, t)
  | c => throw (.wrongCell "field" c.kind)

/-- Takes a value: one cell, or an object and its type. -/
def popValue : StackAction Value := do
  match ← pop with
  | .value v => return v
  | .object fields => return .object (← popType) fields
  | c => throw (.wrongCell "value" c.kind)

/-- The type that far below the topmost cell. -/
def peekType (depth : Nat) : StackAction DataType := do
  match ← peek depth with
  | .type t => return t
  | c => throw (.wrongCell "type" c.kind)

/-- The object under construction that far below the topmost cell. -/
def peekObject (depth : Nat) : StackAction (Bindings Value) := do
  match ← peek depth with
  | .object fields => return fields
  | c => throw (.wrongCell "object" c.kind)

/-! ## Pushing -/

section

variable (c : Cell) (cs : List Cell) (limit : Nat)

/-- Where there is room, a pushed cell comes to lie on top. -/
theorem push_of_lt (h : cs.length < limit) : push c ⟨cs, limit⟩ = .ok () ⟨c :: cs, limit⟩ :=
  if_pos h

/-- Where there is no room, nothing is pushed. -/
theorem push_of_le (h : limit ≤ cs.length) :
    push c ⟨cs, limit⟩ = .error (.tooManyCells limit) ⟨cs, limit⟩ :=
  if_neg (Nat.not_lt.mpr h)

end

end DataStack

end TypedConfig
