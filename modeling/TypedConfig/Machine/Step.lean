import TypedConfig.Code.Instr
import TypedConfig.Machine.CallStack
import TypedConfig.Machine.DataStack

/-!
# Executing an instruction

`Instr.execute` says what one instruction does to the state of a run: the data stack, the frames and
the record of calls.

**All or nothing.** An instruction that fails gives a fault and no state, so nothing of what it did
before can be seen.

**Looking ahead.** Two instructions look at the one that follows.  Directly before a call a missing
name is a missing function, and a member is a method, which is looked up only by the call: the
method `m` of a value of type `T` is the function `T_m`, called with the value as its first
argument.

**Counts.** The fields of a shape and the arguments of a call are as many as the instruction says.
Room to collect them in is taken as available, however large the count is: memory is not modelled, a
run is bounded by its limits alone.  Taking more of them than lie on the stack is an internal fault.

**Declared types win.** A value that is bound or becomes a field takes over the declared type, with
its being optional and its shape; to fit it needs to be equal to the declared type only in the sense
of `DataType.equals`.
-/

namespace TypedConfig

/-- How large a run may become. -/
structure Limits where
  /-- How many cells the data stack may have. -/
  maxCells : Nat := 1024
  /-- How many frames there may be, the root included. -/
  maxFrames : Nat := 256
deriving DecidableEq, Repr

/-- A call of a host function. -/
structure Call where
  function : Function
  arguments : List Value

/-- The state of a run. -/
structure RunState where
  stack : DataStack
  frames : CallStack := {}
  maxFrames : Nat
  /-- The calls made so far, in order. -/
  calls : List Call := []

/-- A computation on the state of a run; a failed one leaves no state. -/
abbrev Step := StateT RunState (Except RuntimeFault)

namespace Step

variable {α : Type}

/-- A computation on the data stack. -/
def onStack (action : StackAction α) : Step α := fun s =>
  match action s.stack with
  | .ok x stack => .ok (x, { s with stack })
  | .error fault _ => .error fault

/-- Puts a cell on the data stack. -/
def push (c : Cell) : Step Unit := onStack (DataStack.push c)

/-- Sees to it that there is room for one more frame. -/
def roomForFrame : Step Unit := do
  let s ← get
  if s.maxFrames ≤ s.frames.depth then throw (.tooManyFrames s.maxFrames)

/-- The type of a field of an object type. -/
def fieldType (t : DataType) (name : String) : Except RuntimeFault DataType :=
  match t.shape with
  | none => throw (.notAnObject t.fullName)
  | some shape =>
    match DataType.field? shape name with
    | none => throw (.unknownField t.name name)
    | some field => return field

/-- The value as one of the declared type, if it fits. -/
def assign (name : String) (declared : DataType) (v : Value) : Except RuntimeFault Value :=
  if !v.type.equals declared then throw (.typeMismatch declared.fullName v.type.fullName)
  else if v.isNil && !declared.isOptional then throw (.missingValue name)
  else return v.retype declared

/-- The value of a binding or field of the declared type that is given none: an empty array, or
nothing if the type is optional. -/
def default? (declared : DataType) : Option Value :=
  if declared.isArray then some (.array declared [])
  else if declared.isOptional then some (.nil declared)
  else none

/-- The first name that also stands earlier in the list. -/
def firstRepeated (seen : List String) : List String → Option String
  | [] => none
  | n :: ns => if seen.contains n then some n else firstRepeated (seen ++ [n]) ns

/-- Whether an instruction is a call. -/
def isCall : Option Instr → Bool
  | some (.call _) => true
  | _ => false

/-! ## Names and types -/

/-- Replaces a name by the value bound to it. -/
def loadValue (next : Option Instr) : Step Unit := do
  let name ← onStack DataStack.popName
  match (← get).frames.get? name with
  | some v => push (.value v)
  | none => throw (if isCall next then .functionNotFound name else .nameNotFound name)

/-- Replaces the name of a type by the type. -/
def resolveType (ref : TypeRef) (isArray isOptional : Bool) : Step Unit := do
  let name ← onStack DataStack.popName
  let base ← match DataType.primitive? ref with
    | some t => pure t
    | none =>
      match (← get).frames.getType? name with
      | some t => pure t
      | none => throw (.typeNotFound name)
  let t := if isArray then .arrayOf base else base
  push (.type (t.withOptional (t.isOptional || isOptional)))

/-- Replaces a type by a field of that type. -/
def makeField (name : String) : Step Unit := do
  let t ← onStack DataStack.popType
  push (.field name t)

/-- Takes that many fields and puts them in front of the given ones. -/
def popFields : Nat → Shape → Step Shape
  | 0, fields => return fields
  | n + 1, fields => do
    let field ← onStack DataStack.popField
    popFields n (field :: fields)

/-- Replaces fields by the shape that they make. -/
def makeShape (count : Nat) : Step Unit := do
  let shape ← popFields count []
  match firstRepeated [] (shape.map (·.1)) with
  | some name => throw (.duplicateField name)
  | none => push (.shape shape)

/-- Binds a type in the innermost frame: a new object type for a shape, or the type itself. -/
def bindType : Step Unit := do
  let name ← onStack DataStack.popName
  let t ← match ← onStack DataStack.pop with
    | .shape shape => pure (DataType.object name shape)
    | .type t => pure t
    | c => throw (.wrongCell "type definition" c.kind)
  modify fun s => { s with frames := s.frames.updateCurrent (.bindType name t) }

/-! ## Bindings and objects -/

/-- Binds a value in the innermost frame. -/
def store (hasValue : Bool) : Step Unit := do
  let name ← onStack DataStack.popName
  let value ← if hasValue then some <$> onStack DataStack.popValue else pure none
  let declared ← onStack DataStack.popType
  let v ← match value with
    | some v => assign name declared v
    | none =>
      match default? declared with
      | some v => pure v
      | none => throw (.missingValue name)
  modify fun s => { s with frames := s.frames.updateCurrent (.bind name v.mutable) }

/-- Begins an object.  A name on top is that of the field it is for, in an object whose type lies
two cells below; else the type on top is that of the object. -/
def newObject : Step Unit := do
  let t ← match ← onStack (DataStack.peek 0) with
    | .name field => do
      let outer ← onStack (DataStack.peekType 2)
      liftM (fieldType outer field)
    | _ => onStack (DataStack.peekType 0)
  if !t.isObject then throw (.typeMismatch t.fullName "object")
  push (.type t)
  push (.object [])

/-- Gives a field of the object under construction its value. -/
def setField : Step Unit := do
  let v ← onStack DataStack.popValue
  let name ← onStack DataStack.popName
  let fields ← onStack DataStack.popObject
  let t ← onStack (DataStack.peekType 0)
  let declared ← fieldType t name
  if fields.contains name then throw (.duplicateField name)
  let v ← assign name declared v
  push (.object (fields.set name v.mutable))

/-- Sees to it that all fields that need a value have one. -/
def sealObject : Step Unit := do
  let fields ← onStack (DataStack.peekObject 0)
  let t ← onStack (DataStack.peekType 1)
  match t.shape with
  | none => throw (.notAnObject t.fullName)
  | some shape =>
    match shape.find? fun f => !f.2.isOptional && !f.2.isArray && !fields.contains f.1 with
    | some f => throw (.missingValue (t.name ++ "." ++ f.1))
    | none => pure ()

/-! ## Members and calls -/

/-- The value of a field of an object: the one that was given, or else its default. -/
def member (receiver : Value) (name : String) : Except RuntimeFault Value := do
  let t := receiver.type
  if !t.isObject then throw (.notAnObject t.fullName)
  match receiver.payload with
  | .object fields =>
    match Bindings.get? fields name with
    | some v => return v
    | none =>
      match default? (← fieldType t name) with
      | some v => return v
      | none => throw (.missingValue (t.name ++ "." ++ name))
  | .nil => throw (.missingValue (t.name ++ "." ++ name))
  | _ => throw (.internal "object type without object payload")

/-- Replaces a value by one of its fields, or by one of its methods if it is called next. -/
def loadMember (next : Option Instr) : Step Unit := do
  let name ← onStack DataStack.popName
  let receiver ← onStack DataStack.popValue
  if isCall next then push (.method name receiver)
  else push (.value (← member receiver name))

/-- Takes that many values and puts them in front of the given ones. -/
def popArguments : Nat → List Value → Step (List Value)
  | 0, values => return values
  | n + 1, values => do
    let v ← onStack DataStack.popValue
    popArguments n (v :: values)

/-- Takes what is called: a value, or the function of a method and the value it is called on. -/
def popCallee : Step (Value × List Value) := do
  match ← onStack DataStack.pop with
  | .method name receiver =>
    let target := receiver.type.name ++ "_" ++ name
    match (← get).frames.get? target with
    | some v => return (v, [receiver])
    | none => throw (.functionNotFound target)
  | .value v => return (v, [])
  | c => throw (.wrongCell "callee" c.kind)

/-- Makes a call.  Its frame is gone when the call is over and host functions bind nothing, so all
that is left of the frame is that there must be room for it. -/
def call (count : Nat) : Step Unit := do
  let (callee, receiver) ← popCallee
  match callee.payload with
  | .function f =>
    let arguments ← popArguments count []
    roomForFrame
    modify fun s => { s with calls := s.calls ++ [⟨f, receiver ++ arguments⟩] }
  | _ => throw (.notCallable callee.type.fullName)

/-! ## Scopes -/

/-- Opens a scope. -/
def openScope (span : Span) : Step Unit := do
  let name ← onStack DataStack.popName
  roomForFrame
  modify fun s => { s with frames := s.frames.push .block name span }

/-- Closes the innermost scope. -/
def closeScope : Step Unit := do
  let (_, frames) ← (← get).frames.pop
  modify fun s => { s with frames }

end Step

/-- What an instruction does, given the one that follows and the part of the text it came from. -/
def Instr.execute (next : Option Instr) (span : Span) : Instr → Step Unit
  | .pushName name => Step.push (.name name)
  | .pushLiteral l => Step.push (.value (.ofLiteral l))
  | .loadValue => Step.loadValue next
  | .resolveType ref isArray isOptional => Step.resolveType ref isArray isOptional
  | .makeField name => Step.makeField name
  | .makeShape count => Step.makeShape count
  | .bindType => Step.bindType
  | .store hasValue => Step.store hasValue
  | .newObject => Step.newObject
  | .setField => Step.setField
  | .sealObject => Step.sealObject
  | .openScope => Step.openScope span
  | .closeScope => Step.closeScope
  | .loadMember => Step.loadMember next
  | .call count => Step.call count

end TypedConfig
