import TypedConfig.Proofs.Accepted
import TypedConfig.Proofs.Scopes

/-!
# What instructions see and what they do

An instruction reads little of a state: the cells, what names are bound to, how many frames there
are and how many there may be.  Two states that agree on these (`RunState.LooksLike`) are the same
to it.

**Effects.** Besides changing the cells, an instruction does one thing or nothing: it binds a name,
opens or closes a scope, or makes a call (`Effect`).  Which of these it can be depends on the
instruction alone (`Instr.Allows`).

**One theorem.** `Instr.execute_does` says both: in states that look alike an instruction fails with
the same fault, or leaves the same cells and has the same effect.  What runs change, and in what two
runs differ, follows from it.
-/

namespace TypedConfig

/-- What an instruction does to a state besides changing the cells. -/
inductive Effect where
  | none
  | bind (name : String) (v : Value)
  | bindType (name : String) (t : DataType)
  | openScope (name : String) (span : Span)
  | closeScope
  | call (c : Call)

/-- The state after an effect. -/
def Effect.apply : Effect → RunState → RunState
  | none, s => s
  | bind name v, s => s.updateFrame (.bind name v)
  | bindType name t, s => s.updateFrame (.bindType name t)
  | openScope name span, s => { s with frames := s.frames.push .block name span }
  | closeScope, s => { s with frames := { s.frames with inner := s.frames.inner.tail } }
  | call c, s => { s with calls := s.calls ++ [c] }

/-- What an effect does to the scopes. -/
def Effect.onScopes : Effect → Scopes → Scopes
  | none, s | call _, s => s
  | bind name v, s => s.bind name v
  | bindType name t, s => s.bindType name t
  | openScope _ _, s => s.opened
  | closeScope, s => s.closed

namespace Effect

lemma stack_apply (effect : Effect) (s : RunState) : (effect.apply s).stack = s.stack := by
  cases effect <;> rfl

lemma maxFrames_apply (effect : Effect) (s : RunState) :
    (effect.apply s).maxFrames = s.maxFrames := by
  cases effect <;> rfl

lemma scopes_apply (effect : Effect) (s : RunState) :
    (effect.apply s).frames.scopes = effect.onScopes s.frames.scopes := by
  cases effect with
  | bind name v =>
      exact CallStack.scopes_updateCurrent (f := .bind name v)
        (g := fun c => { c with values := c.values.set name v }) fun _ => rfl
  | bindType name t =>
      exact CallStack.scopes_updateCurrent (f := .bindType name t)
        (g := fun c => { c with types := c.types.set name t }) fun _ => rfl
  | closeScope => simp [apply, onScopes, CallStack.scopes, Scopes.closed, List.map_tail]
  | _ => rfl

lemma linked_apply (effect : Effect) {s : RunState} (h : s.frames.Linked) :
    (effect.apply s).frames.Linked := by
  cases effect with
  | bind name v => exact CallStack.linked_updateCurrent (f := .bind name v) (fun _ => rfl) h
  | bindType name t =>
      exact CallStack.linked_updateCurrent (f := .bindType name t) (fun _ => rfl) h
  | openScope name span => exact CallStack.linked_push h .block name span
  | closeScope =>
      obtain ⟨stack, ⟨_ | ⟨f, fs⟩, root⟩, maxFrames, calls⟩ := s
      · exact h
      · exact CallStack.linked_of_cons h
  | _ => exact h

end Effect

/-- The effects that an instruction can have. -/
def Instr.Allows : Instr → Effect → Prop
  | .bindType, e => ∃ name t, e = .bindType name t
  | .store _, e => ∃ name v, e = .bind name v
  | .openScope, e => ∃ name span, e = .openScope name span
  | .closeScope, e => e = .closeScope
  | .call _, e => ∃ c, e = .call c
  | _, e => e = .none

namespace RunState

/-- The state with another data stack. -/
def withStack (s : RunState) (stack : DataStack) : RunState := { s with stack }

/-- Whether two states look the same to an instruction that looks up no other values and types than
those with the given names. -/
structure LooksLike (values types : String → Prop) (s s' : RunState) : Prop where
  stack : s.stack = s'.stack
  maxFrames : s.maxFrames = s'.maxFrames
  depth : s.frames.depth = s'.frames.depth
  value : ∀ name, values name → s.frames.get? name = s'.frames.get? name
  type : ∀ name, types name → s.frames.getType? name = s'.frames.getType? name

variable {values types : String → Prop} {s s' : RunState}

lemma LooksLike.refl (values types : String → Prop) (s : RunState) : s.LooksLike values types s :=
  ⟨rfl, rfl, rfl, fun _ _ => rfl, fun _ _ => rfl⟩

lemma LooksLike.symm (h : s.LooksLike values types s') : s'.LooksLike values types s where
  stack := h.stack.symm
  maxFrames := h.maxFrames.symm
  depth := h.depth.symm
  value name hname := (h.value name hname).symm
  type name hname := (h.type name hname).symm

lemma LooksLike.withStack (h : s.LooksLike values types s') (stack : DataStack) :
    (s.withStack stack).LooksLike values types (s'.withStack stack) :=
  ⟨rfl, h.maxFrames, h.depth, h.value, h.type⟩

end RunState

/-! ## Room on the data stack -/

/-- Whether a computation on the data stack leaves as it is how many cells there may be. -/
def StackAction.KeepsLimit {α : Type} (action : StackAction α) : Prop :=
  ∀ s, match action s with
    | .ok _ t | .error _ t => t.limit = s.limit

namespace StackAction.KeepsLimit

open DataStack

variable {α β : Type}

lemma throw (fault : RuntimeFault) : KeepsLimit (throw fault : StackAction α) := fun _ => rfl

lemma pure (a : α) : KeepsLimit (pure a : StackAction α) := fun _ => rfl

lemma bind {x : StackAction α} {f : α → StackAction β} (hx : x.KeepsLimit)
    (hf : ∀ a, (f a).KeepsLimit) : KeepsLimit (x >>= f) := by
  intro s
  have hfirst := hx s
  cases hrun : x s with
  | error fault t =>
      have hbind : (x >>= f) s = .error fault t := by
        simp only [Bind.bind, EStateM.bind, hrun]
      rw [hrun] at hfirst
      rw [hbind]
      exact hfirst
  | ok a t =>
      have hbind : (x >>= f) s = f a t := DataStack.bind_of_ok hrun f
      have hrest := hf a t
      rw [hrun] at hfirst
      replace hfirst : t.limit = s.limit := hfirst
      rw [hbind, ← hfirst]
      exact hrest

lemma push (c : Cell) : KeepsLimit (push c) := by
  intro s
  rw [DataStack.push]
  by_cases hroom : s.size < s.limit
  · rw [if_pos hroom]
  · rw [if_neg hroom]

lemma pop : KeepsLimit pop := by
  rintro ⟨_ | ⟨c, cs⟩, limit⟩ <;> rfl

lemma peek (depth : Nat) : KeepsLimit (peek depth) := by
  refine bind (fun _ => rfl) fun s => ?_
  cases s.cells[depth]? with
  | some c => exact pure c
  | none => exact throw _

lemma popName : KeepsLimit popName :=
  bind pop fun c => by cases c <;> first | exact pure _ | exact throw _

lemma popType : KeepsLimit popType :=
  bind pop fun c => by cases c <;> first | exact pure _ | exact throw _

lemma popObject : KeepsLimit popObject :=
  bind pop fun c => by cases c <;> first | exact pure _ | exact throw _

lemma popField : KeepsLimit popField :=
  bind pop fun c => by cases c <;> first | exact pure _ | exact throw _

lemma popValue : KeepsLimit popValue :=
  bind pop fun c => by
    cases c <;> first | exact pure _ | exact bind popType fun _ => pure _ | exact throw _

lemma peekType (depth : Nat) : KeepsLimit (peekType depth) :=
  bind (peek depth) fun c => by cases c <;> first | exact pure _ | exact throw _

lemma peekObject (depth : Nat) : KeepsLimit (peekObject depth) :=
  bind (peek depth) fun c => by cases c <;> first | exact pure _ | exact throw _

end StackAction.KeepsLimit

namespace Step

variable {α β : Type} {values types : String → Prop} {P : Effect → Prop} {s s' : RunState}

/-- Whether two computations, from `s` and from `s'`, give the same result or the same fault, and
do the same to the state: the same change of the cells and one of the effects `P`. -/
def SameEffect (P : Effect → Prop) (s s' : RunState)
    (r r' : Except RuntimeFault (α × RunState)) : Prop :=
  match r with
  | .ok (a, t) => ∃ stack effect, P effect ∧ stack.limit = s.stack.limit ∧
      t = effect.apply (s.withStack stack) ∧ r' = .ok (a, effect.apply (s'.withStack stack))
  | .error fault => r' = .error fault

/-- Whether a computation does the same in states that look alike, with one of the effects `P`. -/
def Does (values types : String → Prop) (P : Effect → Prop) (x : Step α) : Prop :=
  ∀ s s' : RunState, s.LooksLike values types s' → SameEffect P s s' (x s) (x s')

/-- Whether a computation changes nothing but the cells. -/
abbrev Reads (values types : String → Prop) (x : Step α) : Prop := Does values types (· = .none) x

lemma reads_pure (a : α) : Reads values types (pure a : Step α) :=
  fun s s' h => ⟨s.stack, .none, rfl, rfl, rfl, by rw [h.stack]; rfl⟩

lemma does_throw (fault : RuntimeFault) : Does values types P (throw fault : Step α) :=
  fun _ _ _ => rfl

lemma reads_lift (x : Except RuntimeFault α) : Reads values types (liftM x : Step α) := by
  cases x with
  | error fault => exact does_throw fault
  | ok a => exact reads_pure a

lemma reads_onStack {action : StackAction α} (haction : action.KeepsLimit) :
    Reads values types (onStack action) := by
  intro s s' h
  have hlimit := haction s.stack
  rw [Step.onStack, Step.onStack, ← h.stack]
  cases hrun : action s.stack with
  | ok a stack =>
      rw [hrun] at hlimit
      exact ⟨stack, .none, rfl, hlimit, rfl, rfl⟩
  | error fault stack => rfl

/-- What is done to a state with other cells is done to the state. -/
lemma SameEffect.of_limit {stack : DataStack} {r r' : Except RuntimeFault (α × RunState)}
    (h : SameEffect P (s.withStack stack) (s'.withStack stack) r r')
    (hlimit : stack.limit = s.stack.limit) : SameEffect P s s' r r' := by
  rcases r with fault | ⟨a, t⟩
  · exact h
  · obtain ⟨stack', effect, heffect, hlimit', ht, hr⟩ := h
    exact ⟨stack', effect, heffect, hlimit'.trans hlimit, ht, hr⟩

/-- An effect that is allowed is allowed by any weaker condition. -/
lemma Does.imp {Q : Effect → Prop} {x : Step α} (h : Does values types P x)
    (hQ : ∀ effect, P effect → Q effect) : Does values types Q x := by
  intro s s' hs
  have hdoes := h s s' hs
  rcases hx : x s with fault | ⟨a, t⟩
  · rw [hx] at hdoes
    exact hdoes
  · rw [hx] at hdoes
    obtain ⟨stack, effect, heffect, hrest⟩ := hdoes
    exact ⟨stack, effect, hQ effect heffect, hrest⟩

/-- What comes first reads only, so what comes behind it still sees states that look alike. -/
lemma does_bind {x : Step α} {f : α → Step β} (hx : Reads values types x)
    (hf : ∀ a, Does values types P (f a)) : Does values types P (x >>= f) := by
  intro s s' h
  have hfirst := hx s s' h
  rw [bind_eq, bind_eq]
  cases hrun : x s with
  | error fault =>
      rw [hrun] at hfirst
      replace hfirst : x s' = .error fault := hfirst
      rw [hfirst]
      rfl
  | ok r =>
      rw [hrun] at hfirst
      obtain ⟨stack, effect, rfl, hlimit, ht, hx'⟩ := hfirst
      have hrest := hf r.1 _ _ (h.withStack stack)
      rw [hx', Except.bind, Except.bind, ht]
      exact hrest.of_limit hlimit

/-- A computation may depend on what a name is bound to. -/
lemma does_readValue {name : String} {f : RunState → Step α} (hvalue : values name)
    (hname : ∀ s s', s.frames.get? name = s'.frames.get? name → f s = f s')
    (hf : ∀ s, Does values types P (f s)) : Does values types P (get >>= f) := by
  intro s s' h
  have hrest := hf s s s' h
  rw [bind_eq, bind_eq, get_eq, get_eq, Except.bind, Except.bind,
    ← hname s s' (h.value name hvalue)]
  exact hrest

lemma reads_roomForFrame : Reads values types roomForFrame := by
  intro s s' h
  by_cases hroom : s.maxFrames ≤ s.frames.depth
  · have hroom' := hroom
    rw [h.maxFrames, h.depth] at hroom'
    rw [roomForFrame_full hroom, roomForFrame_full hroom', h.maxFrames]
    rfl
  · have hroom' := hroom
    rw [h.maxFrames, h.depth] at hroom'
    rw [roomForFrame_free hroom, roomForFrame_free hroom']
    exact reads_pure () s s' h

/-- The last part of a computation is its effect. -/
lemma does_modify (effect : Effect) (h : P effect) : Does values types P (modify effect.apply) :=
  fun s s' hs => ⟨s.stack, effect, h, rfl, rfl, by rw [hs.stack]; rfl⟩

/-! ## One lemma for each instruction -/

lemma reads_push (c : Cell) : Reads values types (push c) := reads_onStack (.push c)

/-- A name lies on top, or it cannot be popped. -/
lemma popName_cases (h : s.stack = s'.stack) :
    (∃ fault, onStack DataStack.popName s = .error fault ∧
      onStack DataStack.popName s' = .error fault) ∨
      ∃ name cs, s.stack.cells = .name name :: cs := by
  obtain ⟨⟨cells, limit⟩, frames, maxFrames, calls⟩ := s
  obtain ⟨stack', frames', maxFrames', calls'⟩ := s'
  obtain rfl : DataStack.mk cells limit = stack' := h
  rcases cells with _ | ⟨c, cs⟩
  · exact .inl ⟨_, rfl, rfl⟩
  · cases c with
    | name name => exact .inr ⟨name, cs, rfl⟩
    | _ => exact .inl ⟨_, rfl, rfl⟩

/-- The value that is looked up is that of the name on top. -/
lemma reads_loadValue (next : Option Instr) (h : s.LooksLike values types s')
    (hvalues : ∀ name cs, s.stack.cells = .name name :: cs → values name) :
    SameEffect (· = .none) s s' (loadValue next s) (loadValue next s') := by
  rcases popName_cases h.stack with ⟨fault, hpop, hpop'⟩ | ⟨name, cs, hcells⟩
  · simp only [loadValue, bind_eq, hpop, hpop', Except.bind]
    rfl
  · rw [loadValue_eq next hcells, loadValue_eq next (h.stack ▸ hcells),
      h.value name (hvalues name cs hcells)]
    cases s'.frames.get? name with
    | none => rfl
    | some v =>
        have hpush := reads_push (.value v) _ _ (h.withStack { s.stack with cells := cs })
        rw [RunState.withCells, RunState.withCells, ← h.stack]
        exact hpush

/-- Only the name of a user's type is looked up. -/
lemma reads_resolveType {ref : TypeRef} (isArray isOptional : Bool)
    (h : s.LooksLike values types s')
    (htypes : ref = .user → ∀ name cs, s.stack.cells = .name name :: cs → types name) :
    SameEffect (· = .none) s s' (resolveType ref isArray isOptional s)
      (resolveType ref isArray isOptional s') := by
  rcases popName_cases h.stack with ⟨fault, hpop, hpop'⟩ | ⟨name, cs, hcells⟩
  · simp only [resolveType, bind_eq, hpop, hpop', Except.bind]
    rfl
  · have hlookup : resolvedType s.frames.getType? ref name isArray isOptional =
        resolvedType s'.frames.getType? ref name isArray isOptional := by
      cases ref with
      | user => rw [resolvedType, resolvedType, h.type name (htypes rfl name cs hcells)]
      | _ => rfl
    rw [resolveType_eq ref isArray isOptional hcells, hlookup,
      resolveType_eq ref isArray isOptional (h.stack ▸ hcells)]
    cases resolvedType s'.frames.getType? ref name isArray isOptional with
    | error fault => rfl
    | ok t =>
        have hpush := reads_push (.type t) _ _ (h.withStack { s.stack with cells := cs })
        rw [RunState.withCells, RunState.withCells, ← h.stack]
        exact hpush

lemma reads_makeField (name : String) : Reads values types (makeField name) :=
  does_bind (reads_onStack .popType) fun _ => reads_push _

lemma reads_popFields (count : Nat) (fields : Shape) : Reads values types (popFields count fields) := by
  induction count generalizing fields with
  | zero => exact reads_pure fields
  | succ n ih => exact does_bind (reads_onStack .popField) fun field => ih (field :: fields)

lemma reads_makeShape (count : Nat) : Reads values types (makeShape count) := by
  refine does_bind (reads_popFields count []) fun shape => ?_
  cases firstRepeated [] (shape.map (·.1)) with
  | some name => exact does_throw _
  | none => exact reads_push _

/-- What `bindType` does when it has taken the name. -/
def bindTypeAs (name : String) : Step Unit := do
  let t ← match ← onStack DataStack.pop with
    | .shape shape => pure (DataType.object name shape)
    | .type t => pure t
    | c => throw (.wrongCell "type definition" c.kind)
  modify fun s => { s with frames := s.frames.updateCurrent (.bindType name t) }

lemma does_bindTypeAs (name : String) :
    Does values types (fun e => ∃ t, e = .bindType name t) (bindTypeAs name) := by
  refine does_bind (reads_onStack .pop) fun c => ?_
  cases c with
  | shape shape => exact does_bind (reads_pure _) fun t => does_modify (.bindType name t) ⟨t, rfl⟩
  | type t => exact does_bind (reads_pure _) fun t => does_modify (.bindType name t) ⟨t, rfl⟩
  | _ => exact does_bind (does_throw _) fun t => does_modify (.bindType name t) ⟨t, rfl⟩

lemma does_bindType : Does values types Instr.bindType.Allows bindType :=
  does_bind (reads_onStack .popName) fun name =>
    (does_bindTypeAs name).imp fun _ ⟨t, h⟩ => ⟨name, t, h⟩

/-- What `store` does when it has taken the name. -/
def storeAs (hasValue : Bool) (name : String) : Step Unit := do
  let value ← if hasValue then some <$> onStack DataStack.popValue else pure none
  let declared ← onStack DataStack.popType
  let v ← match value with
    | some v => assign name declared v
    | none =>
      match default? declared with
      | some v => pure v
      | none => throw (.missingValue name)
  modify fun s => { s with frames := s.frames.updateCurrent (.bind name v.mutable) }

lemma does_storeAs (hasValue : Bool) (name : String) :
    Does values types (fun e => ∃ v, e = .bind name v) (storeAs hasValue name) := by
  have hbind (v : Value) : Does values types (fun e => ∃ v, e = .bind name v)
      (modify (Effect.bind name v.mutable).apply : Step Unit) := does_modify _ ⟨_, rfl⟩
  have hrest (value : Option Value) (declared : DataType) :
      Does values types (fun e => ∃ v, e = .bind name v) (do
        let v ← match value with
          | some v => assign name declared v
          | none =>
            match default? declared with
            | some v => pure v
            | none => throw (.missingValue name)
        modify (Effect.bind name v.mutable).apply : Step Unit) := by
    cases value with
    | some v => exact does_bind (reads_lift _) hbind
    | none =>
        dsimp only
        cases default? declared with
        | some v => exact does_bind (reads_pure v) hbind
        | none => exact does_bind (does_throw _) hbind
  cases hasValue with
  | true =>
      have hvalue : Reads values types (some <$> onStack DataStack.popValue : Step (Option Value)) :=
        does_bind (reads_onStack .popValue) fun v => reads_pure (some v)
      exact does_bind hvalue fun value => does_bind (reads_onStack .popType) (hrest value)
  | false =>
      exact does_bind (reads_pure none) fun value => does_bind (reads_onStack .popType) (hrest value)

lemma does_store (hasValue : Bool) :
    Does values types (Instr.store hasValue).Allows (store hasValue) :=
  does_bind (reads_onStack .popName) fun name =>
    (does_storeAs hasValue name).imp fun _ ⟨v, h⟩ => ⟨name, v, h⟩

lemma reads_beginObject (t : DataType) : Reads values types (beginObject t) := by
  rw [beginObject]
  cases t.isObject with
  | true => exact does_bind (reads_push _) fun _ => reads_push _
  | false => exact does_bind (does_throw _) fun _ => does_bind (reads_push _) fun _ => reads_push _

lemma reads_newObject : Reads values types newObject := by
  refine does_bind (reads_onStack (.peek 0)) fun c => ?_
  cases c with
  | name field =>
      exact does_bind (reads_onStack (.peekType 2)) fun outer =>
        does_bind (reads_lift _) reads_beginObject
  | _ => exact does_bind (reads_onStack (.peekType 0)) reads_beginObject

lemma reads_setField : Reads values types setField := by
  refine does_bind (reads_onStack .popValue) fun v =>
    does_bind (reads_onStack .popName) fun name =>
    does_bind (reads_onStack .popObject) fun fields =>
    does_bind (reads_onStack (.peekType 0)) fun t =>
    does_bind (reads_lift _) fun declared => ?_
  dsimp only
  split
  · exact does_bind (does_throw _) fun _ => does_bind (reads_lift _) fun _ => reads_push _
  · exact does_bind (reads_lift _) fun _ => reads_push _

lemma reads_sealObject : Reads values types sealObject := by
  refine does_bind (reads_onStack (.peekObject 0)) fun fields =>
    does_bind (reads_onStack (.peekType 1)) fun t => ?_
  split
  · exact does_throw _
  · split
    · exact does_throw _
    · exact reads_pure ()

lemma reads_loadMember (next : Option Instr) : Reads values types (loadMember next) := by
  refine does_bind (reads_onStack .popName) fun name =>
    does_bind (reads_onStack .popValue) fun receiver => ?_
  split
  · exact reads_push _
  · exact does_bind (reads_lift _) fun v => reads_push _

lemma reads_popArguments (count : Nat) (arguments : List Value) :
    Reads values types (popArguments count arguments) := by
  induction count generalizing arguments with
  | zero => exact reads_pure arguments
  | succ n ih => exact does_bind (reads_onStack .popValue) fun v => ih (v :: arguments)

lemma reads_popCallee (hvalues : ∀ name, values name) : Reads values types popCallee := by
  refine does_bind (reads_onStack .pop) fun c => ?_
  cases c with
  | method name receiver =>
      refine does_readValue (hvalues _) (fun s s' hname => by rw [hname]) fun s => ?_
      split
      · exact reads_pure _
      · exact does_throw _
  | value v => exact reads_pure _
  | _ => exact does_throw _

lemma does_call (hvalues : ∀ name, values name) (count : Nat) :
    Does values types (Instr.call count).Allows (call count) := by
  refine does_bind (reads_popCallee hvalues) fun callee => ?_
  dsimp only
  split
  · next f _ =>
    refine does_bind (reads_popArguments count []) fun arguments =>
      does_bind reads_roomForFrame fun _ => ?_
    exact does_modify (.call ⟨f, callee.2 ++ arguments⟩) ⟨_, rfl⟩
  · exact does_throw _

lemma does_openScope (span : Span) : Does values types Instr.openScope.Allows (openScope span) :=
  does_bind (reads_onStack .popName) fun name => does_bind reads_roomForFrame fun _ =>
    does_modify (.openScope name span) ⟨_, _, rfl⟩

lemma does_closeScope : Does values types Instr.closeScope.Allows closeScope := by
  intro s s' h
  have hdepth := h.depth
  obtain ⟨stack, ⟨inner, root⟩, maxFrames, calls⟩ := s
  obtain ⟨stack', ⟨inner', root'⟩, maxFrames', calls'⟩ := s'
  have hstack : stack = stack' := h.stack
  cases inner with
  | nil =>
      cases inner' with
      | nil => rfl
      | cons f' fs' => simp [CallStack.depth] at hdepth
  | cons f fs =>
      cases inner' with
      | nil => simp [CallStack.depth] at hdepth
      | cons f' fs' => exact ⟨stack, .closeScope, rfl, rfl, rfl, by rw [hstack]; rfl⟩

end Step

/-- Whether an instruction looks up the value of a name, given the cells before it.  Which method is
called depends on the type of a value, so a call may look up any. -/
def Instr.LooksUp (cells : List Cell) (name : String) : Instr → Prop
  | .loadValue => ∃ cs, cells = .name name :: cs
  | .call _ => True
  | _ => False

/-- Whether an instruction looks up the type of a name, given the cells before it. -/
def Instr.LooksUpType (cells : List Cell) (name : String) : Instr → Prop
  | .resolveType .user _ _ => ∃ cs, cells = .name name :: cs
  | _ => False

/-- In states that look alike an instruction does the same: it fails with the same fault, or leaves
the same cells and has the same effect, which is one of those the instruction can have.  The names
that it looks up must be among those on which the states agree. -/
theorem Instr.execute_does {values types : String → Prop} {s s' : RunState}
    (h : s.LooksLike values types s') (i : Instr) (next : Option Instr) (span : Span)
    (hvalues : ∀ name, i.LooksUp s.stack.cells name → values name)
    (htypes : ∀ name, i.LooksUpType s.stack.cells name → types name) :
    Step.SameEffect i.Allows s s' (i.execute next span s) (i.execute next span s') := by
  cases i with
  | pushName name => exact Step.reads_push _ s s' h
  | pushLiteral l => exact Step.reads_push _ s s' h
  | loadValue => exact Step.reads_loadValue next h fun name cs hcells => hvalues name ⟨cs, hcells⟩
  | resolveType ref isArray isOptional =>
      refine Step.reads_resolveType isArray isOptional h ?_
      rintro rfl name cs hcells
      exact htypes name ⟨cs, hcells⟩
  | makeField name => exact Step.reads_makeField name s s' h
  | makeShape count => exact Step.reads_makeShape count s s' h
  | bindType => exact Step.does_bindType s s' h
  | store hasValue => exact Step.does_store hasValue s s' h
  | newObject => exact Step.reads_newObject s s' h
  | setField => exact Step.reads_setField s s' h
  | sealObject => exact Step.reads_sealObject s s' h
  | openScope => exact Step.does_openScope span s s' h
  | closeScope => exact Step.does_closeScope s s' h
  | loadMember => exact Step.reads_loadMember next s s' h
  | call count => exact Step.does_call (fun name => hvalues name trivial) count s s' h

/-- The name on top is the one that is bound. -/
lemma Step.sameEffect_popName {α : Type} {values types : String → Prop} {P : Effect → Prop}
    {s s' : RunState} {f : String → Step α} {name : String} {cs : List Cell}
    (hcells : s.stack.cells = .name name :: cs) (h : s.LooksLike values types s')
    (hf : Does values types P (f name)) :
    SameEffect P s s' ((onStack DataStack.popName >>= f) s)
      ((onStack DataStack.popName >>= f) s') := by
  rw [bind_eq, bind_eq, popName_eq hcells, popName_eq (h.stack ▸ hcells)]
  have hrest := hf _ _ (h.withStack { s.stack with cells := cs })
  rw [RunState.withCells, RunState.withCells, ← h.stack]
  exact hrest.of_limit rfl

/-- Taken alone, an instruction changes the cells and has one of the effects it can have. -/
lemma Instr.execute_ok {i : Instr} {next : Option Instr} {span : Span} {s t : RunState}
    (h : i.execute next span s = .ok ((), t)) :
    ∃ stack effect, i.Allows effect ∧ stack.limit = s.stack.limit ∧
      t = effect.apply (s.withStack stack) := by
  have hdoes := i.execute_does (RunState.LooksLike.refl (fun _ => True) (fun _ => True) s) next
    span (fun _ _ => trivial) fun _ _ => trivial
  rw [h] at hdoes
  obtain ⟨stack, effect, hallows, hlimit, ht, -⟩ := hdoes
  exact ⟨stack, effect, hallows, hlimit, ht⟩

end TypedConfig
