import TypedConfig.Machine.Run
import TypedConfig.Value.Text

/-!
# The default host library

A program can print its arguments and the lengths of strings and arrays.  What is printed follows
from the record of calls alone: every call prints at most one line.
-/

namespace TypedConfig

/-- The functions that are bound before a run, in this order. -/
def defaultLibrary : List Function :=
  [⟨"print", .print⟩, ⟨"string_len", .stringLength⟩, ⟨"array_len", .arrayLength⟩]

/-- Binds the default library in the root frame. -/
def Machine.bindDefaults (m : Machine) : Machine := defaultLibrary.foldl Machine.register m

/-- The line that a call prints, if it prints one.  A length is that of the first argument, and
nothing is printed if that has no such length. -/
def Call.line? (c : Call) : Option String :=
  match c.function.routine with
  | .print => some (argumentsText c.arguments)
  | .stringLength => (c.arguments.head?.bind Value.string?).map fun s => s.length.repr
  | .arrayLength => (c.arguments.head?.bind Value.array?).map fun items => items.length.repr
  | .recorded => none

/-- All that calls print, each line with its line feed. -/
def printed (calls : List Call) : String :=
  String.join ((calls.filterMap Call.line?).map (· ++ "\n"))

/-- Later calls print behind earlier ones. -/
theorem printed_append (a b : List Call) : printed (a ++ b) = printed a ++ printed b := by
  simp [printed]

end TypedConfig
