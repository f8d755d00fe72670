import TypedConfig.Machine.Step
import TypedConfig.Value.Json

/-!
# Running a chunk

A `Machine` evaluates one chunk once.  The host binds values and functions in the root frame before
the run; after the run the root frame holds the values of the program.

**Ends of a run.** A run ends well when all instructions are executed and nothing is left on the
data stack and of the scopes; it ends badly with the first fault, which then carries the span of its
instruction.  Either way no instruction, no cell and no scope is left, so a second run has nothing
to do: it ends as the first one did.

**What a failed run leaves.** The root frame and the calls, as they were before the instruction that
failed.
-/

namespace TypedConfig

/-- A chunk being evaluated. -/
structure Machine where
  /-- The instructions that are still to be executed. -/
  pending : List (Instr × Span)
  state : RunState
  /-- The error that ended the run. -/
  failure : Option RuntimeError := none

namespace RunState

/-- The state in which a run begins. -/
def initial (limits : Limits) : RunState :=
  { stack := .empty limits.maxCells, maxFrames := limits.maxFrames }

/-- The state without cells and scopes. -/
def unwound (s : RunState) : RunState :=
  { s with stack := s.stack.clear, frames := s.frames.unwind }

/-- Whether nothing is left on the data stack and no scope is open. -/
def isSettled (s : RunState) : Bool := s.stack.isEmpty && s.frames.depth = 1

/-- What is wrong with a state that is not settled at the end of a run. -/
def unsettled (s : RunState) : RuntimeFault :=
  .internal ("run ended with " ++ s.stack.size.repr ++ " stack cells and " ++
    s.frames.depth.repr ++ " frames")

end RunState

/-- The instruction that comes first in a piece of code, or else the one behind it. -/
def firstOf (code : List (Instr × Span)) (next : Option Instr) : Option Instr :=
  match code with
  | [] => next
  | (i, _) :: _ => some i

/-- What comes first in two pieces of code, one behind the other. -/
theorem firstOf_append (a b : List (Instr × Span)) (next : Option Instr) :
    firstOf (a ++ b) next = firstOf a (firstOf b next) := by
  cases a <;> rfl

/-- Executes a piece of code, given the instruction behind it.  With a fault comes the state before
the instruction that failed. -/
def runCode (next : Option Instr) : List (Instr × Span) → RunState →
    RunState × Option RuntimeError
  | [], s => (s, none)
  | (i, span) :: rest, s =>
    match i.execute (firstOf rest next) span s with
    | .ok ((), s) => runCode next rest s
    | .error fault => (s, some ⟨fault, span⟩)

/-- Code in two pieces is executed piece by piece, the first one ahead of the second. -/
theorem runCode_append (next : Option Instr) (a b : List (Instr × Span)) (s : RunState) :
    runCode next (a ++ b) s =
      match runCode (firstOf b next) a s with
      | (s, none) => runCode next b s
      | (s, some e) => (s, some e) := by
  induction a generalizing s with
  | nil => rfl
  | cons p a ih =>
    obtain ⟨i, span⟩ := p
    simp only [List.cons_append, runCode, firstOf_append]
    cases i.execute (firstOf a (firstOf b next)) span s with
    | error fault => rfl
    | ok r => exact ih r.2

/-- A whole run: executes code behind which nothing follows and sees to it that nothing is left. -/
def runToEnd (code : List (Instr × Span)) (s : RunState) : RunState × Option RuntimeError :=
  match runCode none code s with
  | (s, some e) => (s, some e)
  | (s, none) => (s, if s.isSettled then none else some ⟨s.unsettled, {}⟩)

namespace Machine

/-- A machine that has not run yet. -/
def ofChunk (chunk : Chunk) (limits : Limits := {}) : Machine :=
  { pending := chunk.located, state := .initial limits }

/-- Runs the machine.  Once it has failed, it stays as it is. -/
def run (m : Machine) : Machine :=
  match m.failure with
  | some _ => m
  | none =>
    match runToEnd m.pending m.state with
    | (s, none) => { pending := [], state := s }
    | (s, some e) => { pending := [], state := s.unwound, failure := some e }

/-- Whether no instruction is left. -/
def isHalted (m : Machine) : Bool := m.pending.isEmpty

/-- Binds a value in the root frame. -/
def set (m : Machine) (name : String) (v : Value) : Machine :=
  { m with state := { m.state with frames := m.state.frames.updateRoot (.bind name v) } }

/-- Binds a function in the root frame, under its own name. -/
def register (m : Machine) (f : Function) : Machine := m.set f.name (.function f)

/-- The values of the root frame, in order. -/
def globals (m : Machine) : Bindings Value := m.state.frames.root.values

/-- A value of the root frame. -/
def get? (m : Machine) (name : String) : Option Value := m.globals.get? name

/-- A type of the root frame. -/
def getType? (m : Machine) (name : String) : Option DataType :=
  m.state.frames.root.types.get? name

/-- The values of the root frame as indented JSON, without those whose type is that of functions. -/
def dump (m : Machine) : String :=
  (Json.object (membersToJson (m.globals.filter fun b => b.2.type.tag ≠ .function))).pretty 0

/-- Behind a run nothing is left to be executed. -/
theorem isHalted_run (m : Machine) (h : m.failure = none) : m.run.isHalted = true := by
  rw [run, h]
  dsimp only
  split <;> rfl

end Machine

end TypedConfig
