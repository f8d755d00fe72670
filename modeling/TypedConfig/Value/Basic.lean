import TypedConfig.Value.Bindings
import TypedConfig.Value.Type

/-!
# Values

A value is a payload with its type.  The payload alone does not say what the value means: an empty
array has a type of items, an object belongs to a type by name, and `nil` is a value of every
optional type.

**Functions are data.** A program cannot define functions, it can only call those that the host
binds.  Such a function is its name and the `Routine` that says what a call of it does, so that a
run can record its calls and what they print can be read off the record.
-/

namespace TypedConfig

/-- What a call of a host function does. -/
inductive Routine where
  /-- Prints its arguments, with blanks between them. -/
  | print
  /-- Prints how many characters its first argument has, if that is a string. -/
  | stringLength
  /-- Prints how many items its first argument has, if that is an array. -/
  | arrayLength
  /-- Prints nothing: what the call does is up to whoever reads the record of calls. -/
  | recorded
deriving DecidableEq, Repr

/-- A function that the host has bound. -/
structure Function where
  name : String
  routine : Routine
deriving DecidableEq, Repr

mutual

/-- A value with its type. -/
structure Value where
  type : DataType
  isMutable : Bool := false
  payload : Payload

/-- The content of a value. -/
inductive Payload where
  /-- An optional value that is not there. -/
  | nil
  | string (s : String)
  | integer (n : Int64)
  | float (x : Binary64)
  | boolean (b : Bool)
  /-- The fields that were given, in the order in which they were given. -/
  | object (fields : List (String × Value))
  | array (items : List Value)
  | function (f : Function)

end

namespace Value

def string (s : String) : Value := { type := .string, payload := .string s }
def integer (n : Int64) : Value := { type := .integer, payload := .integer n }
def float (x : Binary64) : Value := { type := .float, payload := .float x }
def boolean (b : Bool) : Value := { type := .boolean, payload := .boolean b }
def nil (type : DataType) : Value := { type := type, payload := .nil }

def array (type : DataType) (items : List Value) : Value :=
  { type := type, payload := .array items }

def object (type : DataType) (fields : Bindings Value) : Value :=
  { type := type, payload := .object fields }

instance : Inhabited Value := ⟨nil default⟩

/-- A host function as a value. -/
def function (f : Function) : Value := { type := .function, payload := .function f }

/-- The value of a literal. -/
def ofLiteral : Literal → Value
  | .string s => string s
  | .integer n => integer n
  | .float x => float x
  | .boolean b => boolean b

/-- The same value, as a value that may change. -/
def mutable (v : Value) : Value := { v with isMutable := true }

/-- The same value with another type. -/
def retype (v : Value) (t : DataType) : Value := { v with type := t }

def isNil (v : Value) : Bool := match v.payload with
  | .nil => true
  | _ => false

def string? (v : Value) : Option String := match v.payload with
  | .string s => some s
  | _ => none

def integer? (v : Value) : Option Int64 := match v.payload with
  | .integer n => some n
  | _ => none

def float? (v : Value) : Option Binary64 := match v.payload with
  | .float x => some x
  | _ => none

def boolean? (v : Value) : Option Bool := match v.payload with
  | .boolean b => some b
  | _ => none

def object? (v : Value) : Option (Bindings Value) := match v.payload with
  | .object fields => some fields
  | _ => none

def array? (v : Value) : Option (List Value) := match v.payload with
  | .array items => some items
  | _ => none

def function? (v : Value) : Option Function := match v.payload with
  | .function f => some f
  | _ => none

end Value

end TypedConfig
