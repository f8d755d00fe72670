import TypedConfig.Proofs.Execution

/-!
# How much room an instruction takes

A run has two limits: how many cells there may be and how many frames.  What an instruction does
depends on them in one way only, and `Instr.execute_room` says which.  Either it fails whatever the
limits are; or it comes to a state that has nothing to do with them, and it gets there if the limits
leave room for the cells of that state and for the frame that the instruction opens, if it opens one
(`Instr.demand`).

**First take, then put.** Every instruction takes its operands off the stack before it puts anything
on it, and everything else that can go wrong goes wrong before it asks for room.  So computations
are of two kinds: those that take cells away and know of no limit (`Step.Shrinks`), and those with
which an instruction may end (`Step.Fits`).  A computation of the first kind may stand before any
other one.
-/

namespace TypedConfig

/-! ## States under other limits -/

namespace RunState

/-- The state under the given limits. -/
def under (s : RunState) (l : Limits) : RunState :=
  { s with stack := { s.stack with limit := l.maxCells }, maxFrames := l.maxFrames }

/-- The limits of a state. -/
def limits (s : RunState) : Limits := ⟨s.stack.limit, s.maxFrames⟩

@[simp] lemma under_limits (s : RunState) : s.under s.limits = s := rfl

end RunState

/-! ## Computations on the stack that take cells away -/

/-- Whether a computation on the data stack takes cells away or leaves them, and does not look at
how many there may be. -/
def StackAction.Shrinks {α : Type} (action : StackAction α) : Prop :=
  ∀ cells, (∃ fault, ∀ limit, ∃ t, action ⟨cells, limit⟩ = .error fault t) ∨
    ∃ a cs, cs.length ≤ cells.length ∧ ∀ limit, action ⟨cells, limit⟩ = .ok a ⟨cs, limit⟩

namespace StackAction.Shrinks

open DataStack

variable {α β : Type}

lemma throw (fault : RuntimeFault) : Shrinks (throw fault : StackAction α) :=
  fun _ => .inl ⟨fault, fun _ => ⟨_, rfl⟩⟩

lemma pure (a : α) : Shrinks (pure a : StackAction α) :=
  fun cells => .inr ⟨a, cells, Nat.le_refl _, fun _ => rfl⟩

lemma bind {x : StackAction α} {f : α → StackAction β} (hx : x.Shrinks)
    (hf : ∀ a, (f a).Shrinks) : Shrinks (x >>= f) := by
  intro cells
  rcases hx cells with ⟨fault, hfault⟩ | ⟨a, cs, hlength, hok⟩
  · refine .inl ⟨fault, fun limit => ?_⟩
    obtain ⟨t, ht⟩ := hfault limit
    exact ⟨t, by simp only [Bind.bind, EStateM.bind, ht]⟩
  · have hbind (limit : Nat) : (x >>= f) ⟨cells, limit⟩ = f a ⟨cs, limit⟩ :=
      bind_of_ok (hok limit) f
    simp only [hbind]
    rcases hf a cs with hfault | ⟨b, cs', hlength', hok'⟩
    · exact .inl hfault
    · exact .inr ⟨b, cs', Nat.le_trans hlength' hlength, hok'⟩

lemma pop : Shrinks pop := by
  rintro (_ | ⟨c, cs⟩)
  · exact .inl ⟨_, fun _ => ⟨_, rfl⟩⟩
  · exact .inr ⟨c, cs, Nat.le_succ _, fun _ => rfl⟩

lemma peek (depth : Nat) : Shrinks (peek depth) := by
  intro cells
  cases hcell : cells[depth]? with
  | some c =>
      exact .inr ⟨c, cells, Nat.le_refl _, fun limit => peek_of_getElem? (s := ⟨cells, limit⟩) hcell⟩
  | none =>
      exact .inl ⟨_, fun limit => ⟨_, peek_of_none (s := ⟨cells, limit⟩) hcell⟩⟩

lemma popName : Shrinks popName :=
  bind pop fun c => by cases c <;> first | exact pure _ | exact throw _

lemma popType : Shrinks popType :=
  bind pop fun c => by cases c <;> first | exact pure _ | exact throw _

lemma popObject : Shrinks popObject :=
  bind pop fun c => by cases c <;> first | exact pure _ | exact throw _

lemma popField : Shrinks popField :=
  bind pop fun c => by cases c <;> first | exact pure _ | exact throw _

lemma popValue : Shrinks popValue :=
  bind pop fun c => by
    cases c <;> first | exact pure _ | exact bind popType fun _ => pure _ | exact throw _

lemma peekType (depth : Nat) : Shrinks (peekType depth) :=
  bind (peek depth) fun c => by cases c <;> first | exact pure _ | exact throw _

lemma peekObject (depth : Nat) : Shrinks (peekObject depth) :=
  bind (peek depth) fun c => by cases c <;> first | exact pure _ | exact throw _

end StackAction.Shrinks

namespace Step

variable {α β : Type} {x : Step α} {f : α → Step β} {s t : RunState}

/-! ## The two kinds of computations -/

/-- Whether a computation fails from a state, with the same fault under all limits. -/
def Fails (x : Step α) (s : RunState) : Prop := ∃ fault, ∀ l, x (s.under l) = .error fault

/-- Whether a computation takes cells away or leaves them, does nothing else, and is the same under
all limits. -/
def Shrinks (x : Step α) : Prop :=
  ∀ s, Fails x s ∨ ∃ a cs, cs.length ≤ s.stack.size ∧
    ∀ l, x (s.under l) = .ok (a, (s.withCells cs).under l)

/-- Whether a computation comes from `s` to `t` under limits that leave room for the cells of `t`
and for that many frames, and overflows under all others that `s` itself keeps to. -/
def ComesTo (x : Step α) (s : RunState) (frames : Nat) (a : α) (t : RunState) : Prop :=
  ∀ l : Limits, s.stack.size ≤ l.maxCells →
    if t.stack.size ≤ l.maxCells ∧ frames ≤ l.maxFrames then x (s.under l) = .ok (a, t.under l)
    else ∃ fault, fault.isOverflow = true ∧ x (s.under l) = .error fault

/-- Whether a computation fails whatever the limits are, or comes to a state if there is room for
its cells and for as many frames as `demand` says. -/
def Fits (demand : CallStack → Nat) (x : Step α) : Prop :=
  ∀ s, Fails x s ∨ ∃ a t, ComesTo x s (demand s.frames) a t

lemma Fails.bind (h : Fails x s) (f : α → Step β) : Fails (x >>= f) s := by
  obtain ⟨fault, hfault⟩ := h
  exact ⟨fault, fun l => by rw [bind_eq, hfault]; rfl⟩

lemma Shrinks.bind (hx : Shrinks x) (hf : ∀ a, Shrinks (f a)) : Shrinks (x >>= f) := by
  intro s
  rcases hx s with hfails | ⟨a, cs, hlength, hok⟩
  · exact .inl (hfails.bind f)
  · have hbind (l : Limits) : (x >>= f) (s.under l) = f a ((s.withCells cs).under l) := by
      rw [bind_eq, hok]
      rfl
    simp only [Fails, hbind]
    rcases hf a (s.withCells cs) with hfails | ⟨b, cs', hlength', hok'⟩
    · exact .inl hfails
    · exact .inr ⟨b, cs', Nat.le_trans hlength' hlength, hok'⟩

/-- What takes cells away may stand before anything else. -/
lemma Shrinks.fits {demand : CallStack → Nat} (hx : Shrinks x) (hf : ∀ a, Fits demand (f a)) :
    Fits demand (x >>= f) := by
  intro s
  rcases hx s with hfails | ⟨a, cs, hlength, hok⟩
  · exact .inl (hfails.bind f)
  · have hbind (l : Limits) : (x >>= f) (s.under l) = f a ((s.withCells cs).under l) := by
      rw [bind_eq, hok]
      rfl
    simp only [Fails, ComesTo, hbind]
    rcases hf a (s.withCells cs) with hfails | ⟨b, t, hcomes⟩
    · exact .inl hfails
    · exact .inr ⟨b, t, fun l hroom => hcomes l (Nat.le_trans hlength hroom)⟩

lemma shrinks_pure (a : α) : Shrinks (pure a : Step α) :=
  fun s => .inr ⟨a, s.stack.cells, Nat.le_refl _, fun _ => rfl⟩

lemma shrinks_throw (fault : RuntimeFault) : Shrinks (throw fault : Step α) :=
  fun _ => .inl ⟨fault, fun _ => rfl⟩

lemma shrinks_lift (x : Except RuntimeFault α) : Shrinks (liftM x : Step α) := by
  cases x with
  | error fault => exact shrinks_throw fault
  | ok a => exact shrinks_pure a

lemma shrinks_onStack {action : StackAction α} (h : action.Shrinks) : Shrinks (onStack action) := by
  intro s
  rcases h s.stack.cells with ⟨fault, hfault⟩ | ⟨a, cs, hlength, hok⟩
  · refine .inl ⟨fault, fun l => ?_⟩
    obtain ⟨t, ht⟩ := hfault l.maxCells
    simp only [onStack, RunState.under, ht]
  · refine .inr ⟨a, cs, hlength, fun l => ?_⟩
    simp only [onStack, RunState.under, hok]
    rfl

/-- A computation may look at the frames. -/
lemma shrinks_read {f : RunState → Step α} (hread : ∀ s l, f (s.under l) = f s)
    (hf : ∀ s, Shrinks (f s)) : Shrinks (get >>= f) := by
  intro s
  have hbind (l : Limits) : (get >>= f : Step α) (s.under l) = f s (s.under l) := by
    rw [bind_eq, get_eq, ← hread s l]
    rfl
  simp only [Fails, hbind]
  exact hf s s

section

variable {demand : CallStack → Nat}

lemma fits_read {f : RunState → Step α} (hread : ∀ s l, f (s.under l) = f s)
    (hf : ∀ s, Fits demand (f s)) : Fits demand (get >>= f) := by
  intro s
  have hbind (l : Limits) : (get >>= f : Step α) (s.under l) = f s (s.under l) := by
    rw [bind_eq, get_eq, ← hread s l]
    rfl
  simp only [Fails, ComesTo, hbind]
  exact hf s s

lemma fits_throw (fault : RuntimeFault) : Fits demand (throw fault : Step α) :=
  fun _ => .inl ⟨fault, fun _ => rfl⟩

end

/-- Whether an instruction opens no frame. -/
abbrev FitsFrameless (x : Step α) : Prop := Fits (fun _ => 0) x

/-- A computation that leaves the cells as they are and knows of no limit always has room. -/
lemma fits_modify {g : RunState → RunState} (hunder : ∀ s l, g (s.under l) = (g s).under l)
    (hcells : ∀ s, (g s).stack.cells = s.stack.cells) :
    FitsFrameless (modify g : Step Unit) := by
  intro s
  refine .inr ⟨(), g s, fun l hroom => ?_⟩
  have hsize : (g s).stack.size = s.stack.size := congrArg List.length (hcells s)
  rw [if_pos ⟨hsize ▸ hroom, Nat.zero_le _⟩, modify_eq, hunder]

lemma fits_pure (a : α) : FitsFrameless (pure a : Step α) :=
  fun s => .inr ⟨a, s, fun _ hroom => by rw [if_pos ⟨hroom, Nat.zero_le _⟩]; rfl⟩

lemma push_under (c : Cell) (s : RunState) (l : Limits) :
    push c (s.under l) = if s.stack.size < l.maxCells
      then .ok ((), (s.withCells (c :: s.stack.cells)).under l)
      else .error (.tooManyCells l.maxCells) :=
  push_eq c (s.under l)

lemma fits_push (c : Cell) : FitsFrameless (push c) := by
  intro s
  refine .inr ⟨(), s.withCells (c :: s.stack.cells), fun l _ => ?_⟩
  have hsize : (s.withCells (c :: s.stack.cells)).stack.size = s.stack.size + 1 := rfl
  rw [push_under, hsize]
  by_cases hroom : s.stack.size < l.maxCells
  · rw [if_pos hroom, if_pos ⟨hroom, Nat.zero_le _⟩]
  · rw [if_neg hroom, if_neg fun h => hroom h.1]
    exact ⟨_, rfl, rfl⟩

/-- A new object takes two cells, and where there is room for the second there is for the first. -/
lemma fits_beginObject (t : DataType) : FitsFrameless (beginObject t) := by
  intro s
  cases hobject : t.isObject with
  | false => exact .inl ⟨_, fun l => beginObject_other hobject (s.under l)⟩
  | true =>
      refine .inr ⟨(), s.withCells (.object [] :: .type t :: s.stack.cells), fun l _ => ?_⟩
      have hsize : (s.withCells (.object [] :: .type t :: s.stack.cells)).stack.size =
        s.stack.size + 2 := rfl
      have hsecond := push_under (.object []) (s.withCells (.type t :: s.stack.cells)) l
      have hfirst : (s.withCells (.type t :: s.stack.cells)).stack.size = s.stack.size + 1 := rfl
      rw [beginObject_object hobject, push_under, hsize]
      by_cases hroom : s.stack.size < l.maxCells
      · rw [if_pos hroom, Except.bind, hsecond, hfirst]
        by_cases hroom' : s.stack.size + 1 < l.maxCells
        · rw [if_pos hroom', if_pos ⟨hroom', Nat.zero_le _⟩]
          rfl
        · rw [if_neg hroom', if_neg fun h => hroom' h.1]
          exact ⟨_, rfl, rfl⟩
      · have hnot : ¬ (s.stack.size + 2 ≤ l.maxCells ∧ 0 ≤ l.maxFrames) := by omega
        rw [if_neg hroom, if_neg hnot]
        exact ⟨_, rfl, rfl⟩

/-- The frame that a scope or a call opens is one more than there are. -/
def oneMoreFrame (frames : CallStack) : Nat := frames.depth + 1

/-- Room for a frame is asked for before anything else is done. -/
lemma fits_frame {g : RunState → RunState} (hunder : ∀ s l, g (s.under l) = (g s).under l)
    (hcells : ∀ s, (g s).stack.cells = s.stack.cells) :
    Fits oneMoreFrame (do roomForFrame; modify g : Step Unit) := by
  intro s
  refine .inr ⟨(), g s, fun l hroom => ?_⟩
  have hsize : (g s).stack.size = s.stack.size := congrArg List.length (hcells s)
  rw [bind_eq]
  by_cases hframe : l.maxFrames ≤ s.frames.depth
  · have hnot : ¬ ((g s).stack.size ≤ l.maxCells ∧ oneMoreFrame s.frames ≤ l.maxFrames) :=
      fun h => absurd h.2 (Nat.not_le.mpr (Nat.lt_succ_of_le hframe))
    rw [roomForFrame_full (s := s.under l) hframe, if_neg hnot]
    exact ⟨_, rfl, rfl⟩
  · rw [roomForFrame_free (s := s.under l) hframe,
      if_pos ⟨hsize ▸ hroom, Nat.not_le.mp hframe⟩, Except.bind, modify_eq, hunder]

/-! ## One lemma for each instruction -/

lemma fits_loadValue (next : Option Instr) : FitsFrameless (loadValue next) := by
  refine (shrinks_onStack .popName).fits fun name => fits_read (fun _ _ => rfl) fun s => ?_
  split
  · exact fits_push _
  · exact fits_throw _

lemma fits_resolveType (ref : TypeRef) (isArray isOptional : Bool) :
    FitsFrameless (resolveType ref isArray isOptional) := by
  refine (shrinks_onStack .popName).fits fun name => ?_
  cases DataType.primitive? ref with
  | some t => exact (shrinks_pure t).fits fun t => fits_push _
  | none =>
      refine fits_read (fun _ _ => rfl) fun s => ?_
      cases s.frames.getType? name with
      | some t => exact (shrinks_pure t).fits fun t => fits_push _
      | none => exact (shrinks_throw _).fits fun t => fits_push _

lemma fits_makeField (name : String) : FitsFrameless (makeField name) :=
  (shrinks_onStack .popType).fits fun _ => fits_push _

lemma shrinks_popFields (count : Nat) (fields : Shape) : Shrinks (popFields count fields) := by
  induction count generalizing fields with
  | zero => exact shrinks_pure fields
  | succ n ih => exact (shrinks_onStack .popField).bind fun field => ih (field :: fields)

lemma fits_makeShape (count : Nat) : FitsFrameless (makeShape count) := by
  refine (shrinks_popFields count []).fits fun shape => ?_
  cases firstRepeated [] (shape.map (·.1)) with
  | some name => exact fits_throw _
  | none => exact fits_push _

lemma fits_bindType : FitsFrameless bindType := by
  have hbind (name : String) (t : DataType) : FitsFrameless
      (modify fun s => { s with frames := s.frames.updateCurrent (.bindType name t) } : Step Unit) :=
    fits_modify (fun _ _ => rfl) fun _ => rfl
  refine (shrinks_onStack .popName).fits fun name => (shrinks_onStack .pop).fits fun c => ?_
  cases c with
  | shape | type => exact (shrinks_pure _).fits (hbind name)
  | _ => exact (shrinks_throw _).fits (hbind name)

lemma fits_store (hasValue : Bool) : FitsFrameless (store hasValue) := by
  have hbind (name : String) (v : Value) : FitsFrameless
      (modify fun s => { s with frames := s.frames.updateCurrent (.bind name v.mutable) } :
        Step Unit) :=
    fits_modify (fun _ _ => rfl) fun _ => rfl
  have hvalue : Shrinks (some <$> onStack DataStack.popValue : Step (Option Value)) :=
    (shrinks_onStack .popValue).bind fun v => shrinks_pure (some v)
  refine (shrinks_onStack .popName).fits fun name => ?_
  cases hasValue
  case' true => refine hvalue.fits fun value => ?_
  case' false => refine (shrinks_pure none).fits fun value => ?_
  all_goals
    refine (shrinks_onStack .popType).fits fun declared => ?_
    cases value with
    | some v => exact (shrinks_lift _).fits (hbind name)
    | none =>
        dsimp only
        cases default? declared with
        | some v => exact (shrinks_pure v).fits (hbind name)
        | none => exact (shrinks_throw _).fits (hbind name)

lemma fits_newObject : FitsFrameless newObject := by
  refine (shrinks_onStack (.peek 0)).fits fun c => ?_
  cases c with
  | name field =>
      exact (shrinks_onStack (.peekType 2)).fits fun outer =>
        (shrinks_lift _).fits fits_beginObject
  | _ => exact (shrinks_onStack (.peekType 0)).fits fits_beginObject

lemma fits_setField : FitsFrameless setField := by
  refine (shrinks_onStack .popValue).fits fun v =>
    (shrinks_onStack .popName).fits fun name =>
    (shrinks_onStack .popObject).fits fun fields =>
    (shrinks_onStack (.peekType 0)).fits fun t =>
    (shrinks_lift _).fits fun declared => ?_
  dsimp only
  split
  · exact (shrinks_throw _).fits fun _ => (shrinks_lift _).fits fun _ => fits_push _
  · exact (shrinks_lift _).fits fun _ => fits_push _

lemma fits_sealObject : FitsFrameless sealObject := by
  refine (shrinks_onStack (.peekObject 0)).fits fun fields =>
    (shrinks_onStack (.peekType 1)).fits fun t => ?_
  split
  · exact fits_throw _
  · split
    · exact fits_throw _
    · exact fits_pure ()

lemma fits_loadMember (next : Option Instr) : FitsFrameless (loadMember next) := by
  refine (shrinks_onStack .popName).fits fun name =>
    (shrinks_onStack .popValue).fits fun receiver => ?_
  split
  · exact fits_push _
  · exact (shrinks_lift _).fits fun v => fits_push _

lemma shrinks_popArguments (count : Nat) (values : List Value) :
    Shrinks (popArguments count values) := by
  induction count generalizing values with
  | zero => exact shrinks_pure values
  | succ n ih => exact (shrinks_onStack .popValue).bind fun v => ih (v :: values)

lemma shrinks_popCallee : Shrinks popCallee := by
  refine (shrinks_onStack .pop).bind fun c => ?_
  cases c with
  | method name receiver =>
      refine shrinks_read (fun _ _ => rfl) fun s => ?_
      split
      · exact shrinks_pure _
      · exact shrinks_throw _
  | value v => exact shrinks_pure _
  | _ => exact shrinks_throw _

lemma fits_call (count : Nat) : Fits oneMoreFrame (call count) := by
  refine shrinks_popCallee.fits fun callee => ?_
  dsimp only
  split
  · exact (shrinks_popArguments count []).fits fun arguments =>
      fits_frame (fun _ _ => rfl) fun _ => rfl
  · exact fits_throw _

lemma fits_openScope (span : Span) : Fits oneMoreFrame (openScope span) :=
  (shrinks_onStack .popName).fits fun _ => fits_frame (fun _ _ => rfl) fun _ => rfl

lemma fits_closeScope : FitsFrameless closeScope := by
  refine fits_read (fun _ _ => rfl) fun s => (shrinks_lift _).fits fun r => ?_
  exact fits_modify (fun _ _ => rfl) fun _ => rfl

end Step

/-- How many frames there must be room for: an instruction that opens a scope or makes a call needs
one more than there are. -/
def Instr.demand : Instr → CallStack → Nat
  | .openScope, frames | .call _, frames => Step.oneMoreFrame frames
  | _, _ => 0

/-- An instruction fails whatever the limits are, or comes to a state if there is room for the cells
of that state and for the frame that it opens. -/
theorem Instr.execute_room (i : Instr) (next : Option Instr) (span : Span) :
    Step.Fits i.demand (i.execute next span) := by
  cases i with
  | pushName name => exact Step.fits_push _
  | pushLiteral l => exact Step.fits_push _
  | loadValue => exact Step.fits_loadValue next
  | resolveType ref isArray isOptional => exact Step.fits_resolveType ref isArray isOptional
  | makeField name => exact Step.fits_makeField name
  | makeShape count => exact Step.fits_makeShape count
  | bindType => exact Step.fits_bindType
  | store hasValue => exact Step.fits_store hasValue
  | newObject => exact Step.fits_newObject
  | setField => exact Step.fits_setField
  | sealObject => exact Step.fits_sealObject
  | openScope => exact Step.fits_openScope span
  | closeScope => exact Step.fits_closeScope
  | loadMember => exact Step.fits_loadMember next
  | call count => exact Step.fits_call count

end TypedConfig
