import TypedConfig.Machine.Fault
import TypedConfig.Value.Basic

/-!
# Frames

A frame holds the values and types that are bound in one scope.  The frames of the open scopes lie
on the call stack, above the root frame, which holds the bindings of the whole program and is never
closed.

**Links.** Every frame but the root knows the number of the frame around it, counted from the root.
A name is looked up by following these links from the innermost frame.  `walk` does so while it goes
down the stack once, so a lookup ends whatever the links are.
-/

namespace TypedConfig

/-- What a frame was opened for. -/
inductive FrameKind where
  | root
  | function
  | block
deriving DecidableEq, Repr

/-- The bindings of one scope. -/
structure Frame where
  kind : FrameKind
  name : String
  /-- The number of the frame around this one. -/
  parent : Option Nat
  span : Span
  values : Bindings Value := []
  types : Bindings DataType := []

/-- The open frames: the root, and the others with the innermost first. -/
structure CallStack where
  inner : List Frame := []
  root : Frame := { kind := .root, name := "<root>", parent := none, span := {} }

namespace CallStack

/-- A call stack with nothing but an empty root. -/
def empty : CallStack := {}

/-- The number of frames, the root included. -/
def depth (s : CallStack) : Nat := s.inner.length + 1

/-- All frames, the innermost first. -/
def frames (s : CallStack) : List Frame := s.inner ++ [s.root]

/-- The innermost frame. -/
def current (s : CallStack) : Frame := s.inner.head?.getD s.root

/-- Opens a frame in the innermost one. -/
def push (s : CallStack) (kind : FrameKind) (name : String) (span : Span) : CallStack :=
  { s with inner := { kind, name, parent := some (s.depth - 1), span } :: s.inner }

/-- Closes the innermost frame. -/
def pop (s : CallStack) : Except RuntimeFault (Frame × CallStack) :=
  match s.inner with
  | [] => throw (.internal "cannot pop the root frame")
  | f :: fs => return (f, { s with inner := fs })

/-- Closes all frames but the root. -/
def unwind (s : CallStack) : CallStack := { s with inner := [] }

/-- Changes the innermost frame. -/
def updateCurrent (f : Frame → Frame) (s : CallStack) : CallStack :=
  match s.inner with
  | [] => { s with root := f s.root }
  | g :: gs => { s with inner := f g :: gs }

/-- Changes the root frame. -/
def updateRoot (f : Frame → Frame) (s : CallStack) : CallStack := { s with root := f s.root }

end CallStack

/-- Binds a value in a frame. -/
def Frame.bind (name : String) (v : Value) (f : Frame) : Frame :=
  { f with values := f.values.set name v }

/-- Binds a type in a frame. -/
def Frame.bindType (name : String) (t : DataType) (f : Frame) : Frame :=
  { f with types := f.types.set name t }

namespace CallStack

/-- The frames that the links lead through, beginning with the frame of the given number.  The
frames come with the innermost first, so a frame's number is how many frames follow it. -/
def walk : List Frame → Option Nat → List Frame
  | [], _ => []
  | f :: fs, link => if link = some fs.length then f :: walk fs f.parent else walk fs link

/-- The frames in which names are looked up, in that order. -/
def chain (s : CallStack) : List Frame := walk s.frames (some s.inner.length)

/-- The value that a name is bound to. -/
def get? (s : CallStack) (name : String) : Option Value :=
  s.chain.findSome? fun f => f.values.get? name

/-- The type that a name is bound to. -/
def getType? (s : CallStack) (name : String) : Option DataType :=
  s.chain.findSome? fun f => f.types.get? name

@[simp] theorem depth_push (s : CallStack) (kind : FrameKind) (name : String) (span : Span) :
    (s.push kind name span).depth = s.depth + 1 := rfl

/-- Closing a frame undoes opening it. -/
theorem pop_push (s : CallStack) (kind : FrameKind) (name : String) (span : Span) :
    (s.push kind name span).pop =
      .ok ({ kind, name, parent := some s.inner.length, span }, s) := rfl

@[simp] theorem depth_updateCurrent (s : CallStack) (f : Frame → Frame) :
    (s.updateCurrent f).depth = s.depth := by
  obtain ⟨inner, root⟩ := s
  cases inner <;> rfl

end CallStack

end TypedConfig
