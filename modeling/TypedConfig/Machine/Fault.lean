import TypedConfig.Span

/-!
# What can go wrong in a run

All faults but one are the program's: a name that is not bound, a value of the wrong type, a limit
that is too small.  `RuntimeFault.internal` says that the instructions did not fit together, which
no compiled program brings about.
-/

namespace TypedConfig

/-- What can go wrong in a run. -/
inductive RuntimeFault where
  | typeNotFound (name : String)
  | typeMismatch (expected found : String)
  | missingValue (name : String)
  | unknownField (type field : String)
  | duplicateField (name : String)
  | notAnObject (type : String)
  | nameNotFound (name : String)
  | functionNotFound (name : String)
  | notCallable (type : String)
  | stackOverflow (limit : String)
  | internal (message : String)
deriving DecidableEq, Repr

namespace RuntimeFault

/-- The words for a fault. -/
def text : RuntimeFault → String
  | typeNotFound name => "Type not found: '" ++ name ++ "'"
  | typeMismatch expected found =>
    "Type mismatch: expected " ++ expected ++ ", found " ++ found
  | missingValue name => "Missing value for '" ++ name ++ "'"
  | unknownField type field => "Unknown field '" ++ field ++ "' on type '" ++ type ++ "'"
  | duplicateField name => "Field '" ++ name ++ "' is initialized more than once"
  | notAnObject type => "Cannot access a field on non-object type '" ++ type ++ "'"
  | nameNotFound name => "Name not found: '" ++ name ++ "'"
  | functionNotFound name => "Function not found: '" ++ name ++ "'"
  | notCallable type => "Cannot call non-function value of type '" ++ type ++ "'"
  | stackOverflow limit => "Stack overflow: " ++ limit
  | internal message => "Internal error: " ++ message

/-- Whether the instructions are at fault and not the program. -/
def isInternal : RuntimeFault → Bool
  | internal _ => true
  | _ => false

/-- Whether a limit was too small for the program. -/
def isOverflow : RuntimeFault → Bool
  | stackOverflow _ => true
  | _ => false

/-- There are more cells than the data stack may have. -/
def tooManyCells (limit : Nat) : RuntimeFault :=
  stackOverflow ("data stack exceeded " ++ limit.repr ++ " cells")

/-- There are more frames than there may be. -/
def tooManyFrames (limit : Nat) : RuntimeFault :=
  stackOverflow ("frame depth exceeded " ++ limit.repr)

/-- The cell on the stack is not what it should be. -/
def wrongCell (expected found : String) : RuntimeFault :=
  internal ("expected " ++ expected ++ " on data stack, found " ++ found)

/-- The stack has no cell that far down. -/
def noCell (depth : Nat) : RuntimeFault := internal ("no cell at depth " ++ depth.repr)

end RuntimeFault

/-- A fault and the part of the text that was being evaluated. -/
abbrev RuntimeError := Located RuntimeFault

end TypedConfig
