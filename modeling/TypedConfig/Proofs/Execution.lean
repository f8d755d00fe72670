import Mathlib.Tactic.Common
import TypedConfig.Machine.Run

/-!
# What an instruction does, given the cells it finds

Each instruction is a short program over the data stack.  Here it becomes one equation: given the
cells on top, the instruction gives this state or this fault.

**Operands.** A value on the stack is one cell, or an object with its type below it
(`IsOperand`).  Whatever pops a value takes it in either form.

**Data.** What an instruction computes from its operands is a function of its own that knows of no
stack: `resolvedType`, `addField`, `checkSealed`, `defaultFor`.
-/

namespace TypedConfig

lemma bind_eq_ok {ε α β : Type} {x : Except ε α} {f : α → Except ε β} {b : β} :
    (x >>= f) = .ok b ↔ ∃ a, x = .ok a ∧ f a = .ok b := by
  cases x <;> simp [bind, Except.bind]

/-! ## States with other cells -/

namespace RunState

/-- The state with the given cells on the data stack. -/
def withCells (s : RunState) (cs : List Cell) : RunState :=
  { s with stack := { s.stack with cells := cs } }

/-- The state after a change of the innermost frame. -/
def updateFrame (f : Frame → Frame) (s : RunState) : RunState :=
  { s with frames := s.frames.updateCurrent f }

section

variable (s : RunState) (cs ds : List Cell) (f : Frame → Frame)

@[simp] lemma withCells_self : s.withCells s.stack.cells = s := rfl

@[simp] lemma withCells_withCells : (s.withCells cs).withCells ds = s.withCells ds := rfl

@[simp] lemma cells_withCells : (s.withCells cs).stack.cells = cs := rfl

@[simp] lemma frames_withCells : (s.withCells cs).frames = s.frames := rfl

@[simp] lemma frames_updateFrame : (s.updateFrame f).frames = s.frames.updateCurrent f := rfl

end

end RunState

/-! ## Operands -/

/-- The cells that are a value: the value itself, or an object on top of its type. -/
inductive IsOperand : List Cell → Value → Prop
  | value (v : Value) : IsOperand [.value v] v
  | object (t : DataType) (fields : Bindings Value) :
      IsOperand [.object fields, .type t] (.object t fields)

namespace DataStack

lemma bind_of_ok {α β : Type} {x : StackAction α} {a : α} {s t : DataStack} (h : x s = .ok a t)
    (f : α → StackAction β) : (x >>= f) s = f a t := by
  simp only [bind, EStateM.bind, h]

/-- Looking at a cell leaves the stack as it is. -/
lemma peek_of_getElem? {d : Nat} {c : Cell} {s : DataStack} (h : s.cells[d]? = some c) :
    peek d s = .ok c s := by
  rw [peek, bind_of_ok (x := get) (a := s) (t := s) rfl, h]
  rfl

lemma peek_of_none {d : Nat} {s : DataStack} (h : s.cells[d]? = none) :
    peek d s = .error (.noCell d) s := by
  rw [peek, bind_of_ok (x := get) (a := s) (t := s) rfl, h]
  rfl

lemma pop_of_nil {s : DataStack} (h : s.cells = []) :
    pop s = .error (.internal "data stack is empty") s := by
  rw [pop, bind_of_ok (x := get) (a := s) (t := s) rfl, h]
  rfl

end DataStack

namespace Step

variable {s : RunState} {cs : List Cell}

lemma bind_eq {α β : Type} (x : Step α) (f : α → Step β) (s : RunState) :
    (x >>= f) s = (x s).bind fun r => f r.1 r.2 := by
  cases h : x s <;> simp [bind, StateT.bind, Except.bind, h]

lemma map_eq {α β : Type} (f : α → β) (x : Step α) (s : RunState) :
    (f <$> x) s = (x s).map fun r => (f r.1, r.2) := by
  cases h : x s <;> simp [Functor.map, StateT.map, bind, Except.bind, pure, Except.pure,
    Except.map, h]

lemma push_eq (c : Cell) (s : RunState) :
    push c s = if s.stack.cells.length < s.stack.limit
      then .ok ((), s.withCells (c :: s.stack.cells))
      else .error (.tooManyCells s.stack.limit) := by
  obtain ⟨⟨cells, limit⟩, frames, maxFrames, calls⟩ := s
  by_cases hroom : cells.length < limit
  · rw [push, onStack, DataStack.push_of_lt c cells limit hroom, if_pos hroom]
    rfl
  · rw [push, onStack, DataStack.push_of_le c cells limit (by omega), if_neg hroom]

lemma popName_eq {n : String} (h : s.stack.cells = .name n :: cs) :
    onStack DataStack.popName s = .ok (n, s.withCells cs) := by
  obtain ⟨⟨cells, limit⟩, frames, maxFrames, calls⟩ := s
  cases h
  rfl

lemma popType_eq {t : DataType} (h : s.stack.cells = .type t :: cs) :
    onStack DataStack.popType s = .ok (t, s.withCells cs) := by
  obtain ⟨⟨cells, limit⟩, frames, maxFrames, calls⟩ := s
  cases h
  rfl

lemma popObject_eq {fields : Bindings Value} (h : s.stack.cells = .object fields :: cs) :
    onStack DataStack.popObject s = .ok (fields, s.withCells cs) := by
  obtain ⟨⟨cells, limit⟩, frames, maxFrames, calls⟩ := s
  cases h
  rfl

lemma popField_eq {n : String} {t : DataType} (h : s.stack.cells = .field n t :: cs) :
    onStack DataStack.popField s = .ok ((n, t), s.withCells cs) := by
  obtain ⟨⟨cells, limit⟩, frames, maxFrames, calls⟩ := s
  cases h
  rfl

lemma popValue_eq {top : List Cell} {v : Value} (hv : IsOperand top v)
    (h : s.stack.cells = top ++ cs) :
    onStack DataStack.popValue s = .ok (v, s.withCells cs) := by
  obtain ⟨⟨cells, limit⟩, frames, maxFrames, calls⟩ := s
  cases hv <;> cases h <;> rfl

lemma pop_eq {c : Cell} (h : s.stack.cells = c :: cs) :
    onStack DataStack.pop s = .ok (c, s.withCells cs) := by
  obtain ⟨⟨cells, limit⟩, frames, maxFrames, calls⟩ := s
  cases h
  rfl

lemma peek_eq {d : Nat} {c : Cell} (h : s.stack.cells[d]? = some c) :
    onStack (DataStack.peek d) s = .ok (c, s) := by
  rw [onStack, DataStack.peek_of_getElem? h]

lemma peekType_eq {d : Nat} {t : DataType} (h : s.stack.cells[d]? = some (.type t)) :
    onStack (DataStack.peekType d) s = .ok (t, s) := by
  have hpeek : DataStack.peekType d s.stack = .ok t s.stack :=
    DataStack.bind_of_ok (DataStack.peek_of_getElem? h) _
  rw [onStack, hpeek]

lemma peekObject_eq {d : Nat} {fields : Bindings Value}
    (h : s.stack.cells[d]? = some (.object fields)) :
    onStack (DataStack.peekObject d) s = .ok (fields, s) := by
  have hpeek : DataStack.peekObject d s.stack = .ok fields s.stack :=
    DataStack.bind_of_ok (DataStack.peek_of_getElem? h) _
  rw [onStack, hpeek]

/-! ## The computations behind the instructions -/

/-- The type that a written type refers to, given what the names of types are bound to. -/
def resolvedType (lookup : String → Option DataType) (ref : TypeRef) (name : String)
    (isArray isOptional : Bool) : Except RuntimeFault DataType :=
  match (DataType.primitive? ref).or (lookup name) with
  | none => .error (.typeNotFound name)
  | some base =>
    let t := if isArray then .arrayOf base else base
    .ok (t.withOptional (t.isOptional || isOptional))

/-- The fields of an object of type `t` after the field `name` is given the value `v`. -/
def addField (t : DataType) (fields : Bindings Value) (name : String) (v : Value) :
    Except RuntimeFault (Bindings Value) :=
  match fieldType t name with
  | .error fault => .error fault
  | .ok declared =>
    if fields.contains name then .error (.duplicateField name)
    else (assign name declared v).map fun v => fields.set name v.mutable

/-- Whether an object of type `t` has all the fields that need a value. -/
def checkSealed (t : DataType) (fields : Bindings Value) : Except RuntimeFault Unit :=
  match t.shape with
  | none => .error (.notAnObject t.fullName)
  | some shape =>
    match shape.find? fun f => (default? f.2).isNone && !fields.contains f.1 with
    | some f => .error (.missingValue (t.name ++ "." ++ f.1))
    | none => .ok ()

/-- The value of a binding that is given none. -/
def defaultFor (name : String) (declared : DataType) : Except RuntimeFault Value :=
  match default? declared with
  | some v => .ok v
  | none => .error (.missingValue name)

/-- Begins an object of the given type. -/
def beginObject (t : DataType) : Step Unit := do
  if !t.isObject then throw (.typeMismatch t.fullName "object")
  push (.type t)
  push (.object [])

/-- Calls a value with arguments. -/
def invoke (callee : Value) (arguments : List Value) (s : RunState) :
    Except RuntimeFault (Unit × RunState) :=
  match callee.payload with
  | .function f =>
    if s.maxFrames ≤ s.frames.depth then .error (.tooManyFrames s.maxFrames)
    else .ok ((), { s with calls := s.calls ++ [⟨f, arguments⟩] })
  | _ => .error (.notCallable callee.type.fullName)

/-! ## One equation for each instruction -/

lemma get_eq (s : RunState) : (get : Step RunState) s = .ok (s, s) := rfl

lemma modify_eq (f : RunState → RunState) (s : RunState) :
    (modify f : Step Unit) s = .ok ((), f s) := rfl

lemma pure_eq {α : Type} (a : α) (s : RunState) : (pure a : Step α) s = .ok (a, s) := rfl

lemma lift_eq {α : Type} (x : Except RuntimeFault α) (s : RunState) :
    (liftM x : Step α) s = x.map fun a => (a, s) := by
  cases x <;> rfl

lemma loadValue_eq {n : String} (next : Option Instr) (h : s.stack.cells = .name n :: cs) :
    loadValue next s = match s.frames.get? n with
      | some v => push (.value v) (s.withCells cs)
      | none => .error (if isCall next then .functionNotFound n else .nameNotFound n) := by
  simp only [loadValue, bind_eq, popName_eq h, Except.bind, get_eq, RunState.frames_withCells]
  cases s.frames.get? n <;> rfl

lemma resolveType_eq {n : String} (ref : TypeRef) (isArray isOptional : Bool)
    (h : s.stack.cells = .name n :: cs) :
    resolveType ref isArray isOptional s =
      (resolvedType s.frames.getType? ref n isArray isOptional).bind fun t =>
        push (.type t) (s.withCells cs) := by
  simp only [resolveType, bind_eq, popName_eq h, Except.bind, resolvedType]
  cases DataType.primitive? ref with
  | some t => rfl
  | none =>
      simp only [bind_eq, get_eq, Except.bind, RunState.frames_withCells, Option.none_or]
      cases s.frames.getType? n <;> rfl

lemma makeField_eq {t : DataType} (n : String) (h : s.stack.cells = .type t :: cs) :
    makeField n s = push (.field n t) (s.withCells cs) := by
  simp only [makeField, bind_eq, popType_eq h, Except.bind]

lemma popFields_eq (fields : Shape) (acc : Shape)
    (h : s.stack.cells = (fields.map fun f => Cell.field f.1 f.2) ++ cs) :
    popFields fields.length acc s = .ok (fields.reverse ++ acc, s.withCells cs) := by
  induction fields generalizing s acc with
  | nil =>
      simp only [List.map_nil, List.nil_append] at h
      subst h
      rfl
  | cons f fields ih =>
      have hpop := popField_eq (s := s) (n := f.1) (t := f.2) h
      simp only [List.length_cons, popFields, bind_eq, hpop, Except.bind]
      rw [ih _ (by simp)]
      simp

/-- The fields lie on the stack with the last one on top. -/
lemma makeShape_eq {shape : Shape}
    (h : s.stack.cells = (shape.reverse.map fun f => Cell.field f.1 f.2) ++ cs) :
    makeShape shape.length s = match firstRepeated [] (shape.map (·.1)) with
      | some n => .error (.duplicateField n)
      | none => push (.shape shape) (s.withCells cs) := by
  have hpop := popFields_eq shape.reverse [] h
  simp only [List.length_reverse, List.reverse_reverse, List.append_nil] at hpop
  simp only [makeShape, bind_eq, hpop, Except.bind]
  cases firstRepeated [] (shape.map (·.1)) <;> rfl

lemma bindType_shape {n : String} {shape : Shape}
    (h : s.stack.cells = .name n :: .shape shape :: cs) :
    bindType s = .ok ((), (s.withCells cs).updateFrame (.bindType n (.object n shape))) := by
  simp only [bindType, bind_eq, popName_eq h, Except.bind,
    pop_eq (s := s.withCells (.shape shape :: cs)) rfl, pure_eq, modify_eq]
  rfl

lemma bindType_type {n : String} {t : DataType} (h : s.stack.cells = .name n :: .type t :: cs) :
    bindType s = .ok ((), (s.withCells cs).updateFrame (.bindType n t)) := by
  simp only [bindType, bind_eq, popName_eq h, Except.bind,
    pop_eq (s := s.withCells (.type t :: cs)) rfl, pure_eq, modify_eq]
  rfl

lemma store_value {n : String} {top : List Cell} {v : Value} {t : DataType}
    (hv : IsOperand top v) (h : s.stack.cells = .name n :: (top ++ .type t :: cs)) :
    store true s = (assign n t v).map fun v =>
      ((), (s.withCells cs).updateFrame (.bind n v.mutable)) := by
  have hvalue := popValue_eq (s := s.withCells (top ++ .type t :: cs)) hv rfl
  have htype := popType_eq (s := s.withCells (.type t :: cs)) rfl
  simp only [RunState.withCells_withCells] at hvalue htype
  simp only [store, bind_eq, popName_eq h, Except.bind, if_true, map_eq, hvalue, Except.map, htype,
    lift_eq]
  cases assign n t v <;> rfl

lemma store_default {n : String} {t : DataType} (h : s.stack.cells = .name n :: .type t :: cs) :
    store false s = (defaultFor n t).map fun v =>
      ((), (s.withCells cs).updateFrame (.bind n v.mutable)) := by
  have htype := popType_eq (s := s.withCells (.type t :: cs)) rfl
  simp only [RunState.withCells_withCells] at htype
  simp only [store, bind_eq, popName_eq h, Except.bind, Bool.false_eq_true, if_false, pure_eq,
    htype, defaultFor]
  cases default? t <;> rfl

lemma beginObject_other {t : DataType} (h : t.isObject = false) (s : RunState) :
    beginObject t s = .error (.typeMismatch t.fullName "object") := by
  simp only [beginObject, h, Bool.not_false, if_true]
  rfl

lemma beginObject_object {t : DataType} (h : t.isObject = true) (s : RunState) :
    beginObject t s = (push (.type t) s).bind fun r => push (.object []) r.2 := by
  simp only [beginObject, h, Bool.not_true, Bool.false_eq_true, if_false]
  exact bind_eq _ _ s

/-- A new object that is not for a field takes the type on top. -/
lemma newObject_type {t : DataType} (h : s.stack.cells = .type t :: cs) :
    newObject s = beginObject t s := by
  have hpeek := peek_eq (s := s) (d := 0) (c := .type t) (by rw [h]; rfl)
  have htype := peekType_eq (s := s) (d := 0) (t := t) (by rw [h]; rfl)
  simp only [newObject, bind_eq, hpeek, htype, Except.bind]
  rfl

/-- A new object for a field takes the type that the field has in the object around it. -/
lemma newObject_field {t : DataType} {n : String} {fields : Bindings Value}
    (h : s.stack.cells = .name n :: .object fields :: .type t :: cs) :
    newObject s = (fieldType t n).bind fun u => beginObject u s := by
  have hpeek := peek_eq (s := s) (d := 0) (c := .name n) (by rw [h]; rfl)
  have htype := peekType_eq (s := s) (d := 2) (t := t) (by rw [h]; rfl)
  simp only [newObject, bind_eq, hpeek, htype, Except.bind, lift_eq]
  cases fieldType t n <;> rfl

lemma setField_eq {top : List Cell} {v : Value} {n : String} {fields : Bindings Value}
    {t : DataType} (hv : IsOperand top v)
    (h : s.stack.cells = top ++ .name n :: .object fields :: .type t :: cs) :
    setField s = (addField t fields n v).bind fun fields =>
      push (.object fields) (s.withCells (.type t :: cs)) := by
  have hname := popName_eq (s := s.withCells (.name n :: .object fields :: .type t :: cs)) rfl
  have hobject := popObject_eq (s := s.withCells (.object fields :: .type t :: cs)) rfl
  have htype := peekType_eq (s := s.withCells (.type t :: cs)) (d := 0) (t := t) rfl
  simp only [RunState.withCells_withCells] at hname hobject
  simp only [setField, bind_eq, popValue_eq hv h, hname, hobject, htype, Except.bind, lift_eq,
    addField]
  cases fieldType t n with
  | error fault => rfl
  | ok declared =>
      cases hc : fields.contains n with
      | true => rfl
      | false =>
          simp only [Except.map, Bool.false_eq_true, if_false, bind_eq, Except.bind, lift_eq]
          cases assign n declared v <;> rfl

/-- The types without a default are those that are neither optional nor types of arrays. -/
lemma isNone_default? (t : DataType) : (default? t).isNone = (!t.isOptional && !t.isArray) := by
  rw [default?]
  cases t.isArray <;> cases t.isOptional <;> rfl

lemma sealObject_eq {fields : Bindings Value} {t : DataType}
    (h : s.stack.cells = .object fields :: .type t :: cs) :
    sealObject s = (checkSealed t fields).map fun _ => ((), s) := by
  have hobject : onStack (DataStack.peekObject 0) s = .ok (fields, s) :=
    peekObject_eq (by rw [h]; rfl)
  have htype := peekType_eq (s := s) (d := 1) (t := t) (by rw [h]; rfl)
  simp only [sealObject, bind_eq, hobject, htype, Except.bind, checkSealed, isNone_default?]
  cases t.shape with
  | none => rfl
  | some shape =>
      dsimp only
      cases shape.find? fun f => !f.2.isOptional && !f.2.isArray && !fields.contains f.1 <;> rfl

/-- Directly before a call, a member is a method. -/
lemma loadMember_method {next : Option Instr} {n : String} {top : List Cell} {v : Value}
    (hnext : isCall next = true) (hv : IsOperand top v)
    (h : s.stack.cells = .name n :: (top ++ cs)) :
    loadMember next s = push (.method n v) (s.withCells cs) := by
  have hvalue := popValue_eq (s := s.withCells (top ++ cs)) hv rfl
  simp only [RunState.withCells_withCells] at hvalue
  simp only [loadMember, bind_eq, popName_eq h, hvalue, Except.bind, hnext, if_true]

lemma loadMember_value {next : Option Instr} {n : String} {top : List Cell} {v : Value}
    (hnext : isCall next = false) (hv : IsOperand top v)
    (h : s.stack.cells = .name n :: (top ++ cs)) :
    loadMember next s = (member v n).bind fun w => push (.value w) (s.withCells cs) := by
  have hvalue := popValue_eq (s := s.withCells (top ++ cs)) hv rfl
  simp only [RunState.withCells_withCells] at hvalue
  simp only [loadMember, bind_eq, popName_eq h, hvalue, Except.bind, hnext, Bool.false_eq_true,
    if_false, lift_eq]
  cases member v n <;> rfl

lemma popArguments_eq (values : List Value) (acc : List Value)
    (h : s.stack.cells = values.map .value ++ cs) :
    popArguments values.length acc s = .ok (values.reverse ++ acc, s.withCells cs) := by
  induction values generalizing s acc with
  | nil =>
      simp only [List.map_nil, List.nil_append] at h
      subst h
      rfl
  | cons v values ih =>
      have hpop := popValue_eq (s := s) (.value v) h
      simp only [List.length_cons, popArguments, bind_eq, hpop, Except.bind]
      rw [ih _ (by simp)]
      simp

lemma roomForFrame_full (h : s.maxFrames ≤ s.frames.depth) :
    roomForFrame s = .error (.tooManyFrames s.maxFrames) := by
  simp only [roomForFrame, bind_eq, get_eq, Except.bind, if_pos h]
  rfl

lemma roomForFrame_free (h : ¬ s.maxFrames ≤ s.frames.depth) : roomForFrame s = .ok ((), s) := by
  simp only [roomForFrame, bind_eq, get_eq, Except.bind, if_neg h]
  rfl

/-- What is left of a call once it is known what is called: the arguments lie on the stack with
the last one on top. -/
lemma call_eq {v : Value} {arguments : List Value} (receiver : List Value)
    (h : popCallee s =
      .ok ((v, receiver), s.withCells (arguments.reverse.map .value ++ cs))) :
    call arguments.length s = invoke v (receiver ++ arguments) (s.withCells cs) := by
  have hpop := popArguments_eq (s := s.withCells (arguments.reverse.map .value ++ cs))
    arguments.reverse [] rfl
  simp only [List.length_reverse, List.reverse_reverse, List.append_nil,
    RunState.withCells_withCells] at hpop
  simp only [call, bind_eq, h, Except.bind, invoke]
  cases v.payload with
  | function f =>
      by_cases hroom : (s.withCells cs).maxFrames ≤ (s.withCells cs).frames.depth
      · simp only [bind_eq, hpop, roomForFrame_full hroom, Except.bind, if_pos hroom]
      · simp only [bind_eq, hpop, roomForFrame_free hroom, Except.bind, modify_eq, if_neg hroom]
  | _ => rfl

lemma call_value {v : Value} {arguments : List Value}
    (h : s.stack.cells = .value v :: (arguments.reverse.map .value ++ cs)) :
    call arguments.length s = invoke v arguments (s.withCells cs) := by
  refine call_eq [] ?_
  simp only [popCallee, bind_eq, pop_eq h, pure_eq, Except.bind]

/-- A method is the function that has the name of the receiver's type in front of its own, called
with the receiver first. -/
lemma call_method {n : String} {receiver : Value} {arguments : List Value}
    (h : s.stack.cells = .method n receiver :: (arguments.reverse.map .value ++ cs)) :
    call arguments.length s = match s.frames.get? (receiver.type.name ++ "_" ++ n) with
      | some v => invoke v (receiver :: arguments) (s.withCells cs)
      | none => .error (.functionNotFound (receiver.type.name ++ "_" ++ n)) := by
  cases hget : s.frames.get? (receiver.type.name ++ "_" ++ n) with
  | none =>
      simp only [call, popCallee, bind_eq, pop_eq h, get_eq, Except.bind,
        RunState.frames_withCells, hget]
      rfl
  | some v =>
      refine call_eq [receiver] ?_
      simp only [popCallee, bind_eq, pop_eq h, get_eq, Except.bind, RunState.frames_withCells,
        hget, pure_eq]

lemma openScope_eq {n : String} (span : Span) (h : s.stack.cells = .name n :: cs) :
    openScope span s = if s.maxFrames ≤ s.frames.depth then .error (.tooManyFrames s.maxFrames)
      else .ok ((), { s.withCells cs with frames := s.frames.push .block n span }) := by
  by_cases hroom : s.maxFrames ≤ s.frames.depth
  · simp only [openScope, bind_eq, popName_eq h, Except.bind, if_pos hroom,
      roomForFrame_full (s := s.withCells cs) hroom]
    rfl
  · simp only [openScope, bind_eq, popName_eq h, Except.bind, if_neg hroom,
      roomForFrame_free (s := s.withCells cs) hroom]
    rfl

lemma closeScope_eq {f : Frame} {fs : List Frame} (h : s.frames.inner = f :: fs) :
    closeScope s = .ok ((), { s with frames := { s.frames with inner := fs } }) := by
  obtain ⟨stack, ⟨inner, root⟩, maxFrames, calls⟩ := s
  cases h
  rfl

end Step

end TypedConfig
