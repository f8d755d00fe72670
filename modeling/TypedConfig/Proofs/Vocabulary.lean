import TypedConfig.Proofs.Discipline
import TypedConfig.Proofs.TypeNames

/-!
# The types that a run comes upon

Types come into a run through the instructions that resolve and that bind them.  Nothing is said
here about the values that the host binds, so there is no layout to go by: whatever an instruction
finds on the stack, it makes nothing but types that can be said.

**Vocabularies.** A `Vocabulary` says which names the types of objects may have and which types the
values may have.  A state that keeps to it (`Vocabulary.Holds`) has only such types and values in
its cells and in its frames.

**Faults.** A type mismatch that is reported shows two types of the vocabulary that are not equal,
or a type that is not of objects where an object was to begin (`Vocabulary.Tells`).

**Steps and runs.** Every computation on a state keeps to the vocabulary (`Vocabulary.Keeps`), one
lemma for each.  Two instructions depend on the name on top of the stack, that of a type to resolve
and that of a type to bind; in compiled code it has just been pushed (`Code.Says`).
-/

namespace TypedConfig

/-- Whether a fault is that two types do not match. -/
def RuntimeFault.isMismatch : RuntimeFault → Bool
  | typeMismatch .. => true
  | _ => false

/-- Names for the types of objects, and the types that values may have. -/
structure Vocabulary where
  names : String → Prop
  typed : DataType → Prop
  typed_of_sayable {t : DataType} : t.Sayable names → typed t
  typed_field {t u : DataType} {n : String} :
    typed t → Step.fieldType t n = .ok u → typed u

namespace Vocabulary

variable (V : Vocabulary)

/-- Whether the types of a value and of all values inside it are among those of the vocabulary. -/
def Value (v : TypedConfig.Value) : Prop := v.Everywhere fun w => V.typed w.type

/-- Whether a cell keeps to the vocabulary. -/
def Allows : Cell → Prop
  | .name _ => True
  | .type t | .field _ t => t.Sayable V.names
  | .value v | .method _ v => V.Value v
  | .object fields => ∀ f ∈ fields, V.Value f.2
  | .shape fields => ∀ f ∈ fields, f.2.Sayable V.names

/-- Whether a state keeps to the vocabulary.  What is bound to the names of builtin types is never
looked up. -/
structure Holds (s : RunState) : Prop where
  cells : ∀ c ∈ s.stack.cells, V.Allows c
  values : ∀ f ∈ s.frames.frames, ∀ e ∈ f.values, V.Value e.2
  types : ∀ f ∈ s.frames.frames, ∀ e ∈ f.types, e.1 ∉ TypeRef.builtinNames → e.2.Sayable V.names

/-- Whether a fault is no type mismatch or shows types that differ. -/
inductive Tells : RuntimeFault → Prop
  | mismatch {t u : DataType} (ht : t.Sayable V.names) (hu : V.typed u) (h : u.equals t = false) :
      Tells (.typeMismatch t.fullName u.fullName)
  | notObject {t : DataType} (ht : t.Sayable V.names) (h : t.isObject = false) :
      Tells (.typeMismatch t.fullName "object")
  | other {fault : RuntimeFault} (h : fault.isMismatch = false) : Tells fault

/-- Whether a computation has given a result that meets `Q` and a state that keeps to the
vocabulary, or has failed with a fault that tells why. -/
def Ends {α : Type} (Q : α → Prop) : Except RuntimeFault (α × RunState) → Prop
  | .ok r => Q r.1 ∧ V.Holds r.2
  | .error fault => V.Tells fault

/-- Whether a run has ended in a state that keeps to the vocabulary, or has failed with a fault that
tells why. -/
def EndsRun : RunState × Option RuntimeError → Prop
  | (s, none) => V.Holds s
  | (_, some e) => V.Tells e.cause

/-- Whether a computation keeps to the vocabulary and gives only results that meet `Q`. -/
def Keeps {α : Type} (Q : α → Prop) (x : Step α) : Prop := ∀ s, V.Holds s → V.Ends Q (x s)

variable {V} {s : RunState} {cs : List Cell}

/-! ## States -/

namespace Holds

lemma withCells (hs : V.Holds s) (h : ∀ c ∈ cs, V.Allows c) : V.Holds (s.withCells cs) :=
  ⟨h, hs.values, hs.types⟩

lemma updateFrame (hs : V.Holds s) {f : Frame → Frame}
    (hvalues : ∀ x, (∀ e ∈ x.values, V.Value e.2) → ∀ e ∈ (f x).values, V.Value e.2)
    (htypes : ∀ x, (∀ e ∈ x.types, e.1 ∉ TypeRef.builtinNames → e.2.Sayable V.names) →
      ∀ e ∈ (f x).types, e.1 ∉ TypeRef.builtinNames → e.2.Sayable V.names) :
    V.Holds (s.updateFrame f) := by
  refine ⟨hs.cells, fun x hx => ?_, fun x hx => ?_⟩
  · rcases Discipline.mem_updateCurrent hx with hx | ⟨y, hy, rfl⟩
    · exact hs.values x hx
    · exact hvalues y (hs.values y hy)
  · rcases Discipline.mem_updateCurrent hx with hx | ⟨y, hy, rfl⟩
    · exact hs.types x hx
    · exact htypes y (hs.types y hy)

lemma bind (hs : V.Holds s) {v : TypedConfig.Value} (hv : V.Value v) (n : String) :
    V.Holds (s.updateFrame (.bind n v)) := by
  refine hs.updateFrame (fun x hx e he => ?_) fun _ htypes => htypes
  rcases Bindings.mem_set he with rfl | he
  · exact hv
  · exact hx e he

lemma bindType (hs : V.Holds s) {n : String} {t : DataType}
    (ht : n ∉ TypeRef.builtinNames → t.Sayable V.names) :
    V.Holds (s.updateFrame (.bindType n t)) := by
  refine hs.updateFrame (fun _ hvalues => hvalues) fun x hx e he => ?_
  rcases Bindings.mem_set he with rfl | he
  · exact ht
  · exact hx e he

lemma value_of_get? (hs : V.Holds s) {n : String} {v : TypedConfig.Value}
    (h : s.frames.get? n = some v) : V.Value v := by
  obtain ⟨f, hf, he⟩ := Discipline.mem_of_findSome? h
  exact hs.values f hf _ he

lemma type_of_getType? (hs : V.Holds s) {n : String} {t : DataType}
    (h : s.frames.getType? n = some t) (hn : n ∉ TypeRef.builtinNames) : t.Sayable V.names := by
  obtain ⟨f, hf, he⟩ := Discipline.mem_of_findSome? h
  exact hs.types f hf _ he hn

end Holds

/-! ## Computations -/

namespace Keeps

variable {α β : Type} {Q : α → Prop} {R : β → Prop} {x : Step α}

lemma pure {a : α} (ha : Q a) : V.Keeps Q (pure a) := fun _ hs => ⟨ha, hs⟩

lemma throw {fault : RuntimeFault} (h : V.Tells fault) :
    V.Keeps Q (throw fault) := fun _ _ => h

lemma get : V.Keeps V.Holds get := fun _ hs => ⟨hs, hs⟩

lemma modify {f : RunState → RunState} (h : ∀ s, V.Holds s → V.Holds (f s)) :
    V.Keeps (fun _ => True) (modify f) := fun s hs => ⟨trivial, h s hs⟩

lemma bind {f : α → Step β} (hx : V.Keeps Q x) (hf : ∀ a, Q a → V.Keeps R (f a)) :
    V.Keeps R (x >>= f) := by
  intro s hs
  rw [Step.bind_eq]
  have hends := hx s hs
  cases hrun : x s with
  | error fault =>
      rw [hrun] at hends
      exact hends
  | ok r =>
      rw [hrun] at hends
      exact hf r.1 hends.1 r.2 hends.2

lemma lift {y : Except RuntimeFault α} (hok : ∀ a, y = .ok a → Q a)
    (herror : ∀ fault, y = .error fault → V.Tells fault) : V.Keeps Q (liftM y : Step α) := by
  intro s hs
  rw [Step.lift_eq]
  cases y with
  | error fault => exact herror fault rfl
  | ok a => exact ⟨hok a rfl, hs⟩

/-- A computation on the data stack in two parts is two computations. -/
lemma onStack_bind {x : StackAction α} {f : α → StackAction β} (hx : V.Keeps Q (Step.onStack x))
    (hf : ∀ a, Q a → V.Keeps R (Step.onStack (f a))) : V.Keeps R (Step.onStack (x >>= f)) := by
  have heq : Step.onStack (x >>= f) = Step.onStack x >>= fun a => Step.onStack (f a) := by
    funext s
    rw [Step.bind_eq]
    simp only [Step.onStack, Bind.bind, EStateM.bind]
    cases x s.stack <;> rfl
  rw [heq]
  exact hx.bind hf

lemma onStack_pure {a : α} (ha : Q a) : V.Keeps Q (Step.onStack (Pure.pure a)) :=
  fun _ hs => ⟨ha, hs⟩

lemma onStack_throw {fault : RuntimeFault} (h : V.Tells fault) :
    V.Keeps Q (Step.onStack (MonadExcept.throw fault : StackAction α)) := fun _ _ => h

end Keeps

/-! ## The data stack -/

lemma keeps_push {c : Cell} (hc : V.Allows c) : V.Keeps (fun _ => True) (Step.push c) := by
  intro s hs
  rw [Step.push_eq]
  split
  · exact ⟨trivial, hs.withCells (List.forall_mem_cons.mpr ⟨hc, hs.cells⟩)⟩
  · exact .other rfl

lemma keeps_pop : V.Keeps V.Allows (Step.onStack DataStack.pop) := by
  intro s hs
  cases hcells : s.stack.cells with
  | nil =>
      rw [Step.onStack, DataStack.pop_of_nil hcells]
      exact .other rfl
  | cons c cs =>
      rw [Step.pop_eq hcells]
      have hboth := List.forall_mem_cons.mp (hcells ▸ hs.cells)
      exact ⟨hboth.1, hs.withCells hboth.2⟩

lemma keeps_peek (d : Nat) : V.Keeps V.Allows (Step.onStack (DataStack.peek d)) := by
  intro s hs
  cases hcell : s.stack.cells[d]? with
  | none =>
      rw [Step.onStack, DataStack.peek_of_none hcell]
      exact .other rfl
  | some c =>
      rw [Step.peek_eq hcell]
      exact ⟨hs.cells c (List.mem_of_getElem? hcell), hs⟩

lemma keeps_popName : V.Keeps (fun _ => True) (Step.onStack DataStack.popName) := by
  refine keeps_pop.onStack_bind fun c _ => ?_
  cases c with
  | name n => exact .onStack_pure trivial
  | _ => exact .onStack_throw (.other rfl)

lemma keeps_popType :
    V.Keeps (fun t => t.Sayable V.names) (Step.onStack DataStack.popType) := by
  refine keeps_pop.onStack_bind fun c hc => ?_
  cases c with
  | type t => exact .onStack_pure hc
  | _ => exact .onStack_throw (.other rfl)

lemma keeps_popObject :
    V.Keeps (fun fields => ∀ f ∈ fields, V.Value f.2) (Step.onStack DataStack.popObject) := by
  refine keeps_pop.onStack_bind fun c hc => ?_
  cases c with
  | object fields => exact .onStack_pure hc
  | _ => exact .onStack_throw (.other rfl)

lemma keeps_popField :
    V.Keeps (fun f => f.2.Sayable V.names) (Step.onStack DataStack.popField) := by
  refine keeps_pop.onStack_bind fun c hc => ?_
  cases c with
  | field n t => exact .onStack_pure hc
  | _ => exact .onStack_throw (.other rfl)

lemma keeps_popValue : V.Keeps V.Value (Step.onStack DataStack.popValue) := by
  refine keeps_pop.onStack_bind fun c hc => ?_
  cases c with
  | value v => exact .onStack_pure hc
  | object fields =>
      refine keeps_popType.onStack_bind fun t ht => .onStack_pure ?_
      exact .object (V.typed_of_sayable ht) hc
  | _ => exact .onStack_throw (.other rfl)

lemma keeps_peekType (d : Nat) :
    V.Keeps (fun t => t.Sayable V.names) (Step.onStack (DataStack.peekType d)) := by
  refine (keeps_peek d).onStack_bind fun c hc => ?_
  cases c with
  | type t => exact .onStack_pure hc
  | _ => exact .onStack_throw (.other rfl)

lemma keeps_peekObject (d : Nat) :
    V.Keeps (fun fields => ∀ f ∈ fields, V.Value f.2)
      (Step.onStack (DataStack.peekObject d)) := by
  refine (keeps_peek d).onStack_bind fun c hc => ?_
  cases c with
  | object fields => exact .onStack_pure hc
  | _ => exact .onStack_throw (.other rfl)

/-! ## Instructions -/

lemma keeps_loadValue (next : Option Instr) : V.Keeps (fun _ => True) (Step.loadValue next) := by
  refine keeps_popName.bind fun n _ => Keeps.get.bind fun s hs => ?_
  cases hget : s.frames.get? n with
  | none => exact .throw (.other (by split <;> rfl))
  | some v => exact keeps_push (hs.value_of_get? hget)

lemma keeps_makeField (n : String) : V.Keeps (fun _ => True) (Step.makeField n) :=
  keeps_popType.bind fun _ ht => keeps_push (c := .field n _) ht

lemma keeps_popFields (count : Nat) {fields : Shape} (h : ∀ f ∈ fields, f.2.Sayable V.names) :
    V.Keeps (fun shape : Shape => ∀ f ∈ shape, f.2.Sayable V.names)
      (Step.popFields count fields) := by
  induction count generalizing fields with
  | zero => exact .pure h
  | succ count ih =>
      exact keeps_popField.bind fun f hf => ih (List.forall_mem_cons.mpr ⟨hf, h⟩)

lemma keeps_makeShape (count : Nat) : V.Keeps (fun _ => True) (Step.makeShape count) := by
  refine (keeps_popFields count (List.forall_mem_nil _)).bind fun shape hshape => ?_
  split
  · exact .throw (.other rfl)
  · exact keeps_push (c := .shape shape) hshape

/-- A value that is assigned gets a type that can be said, and one that cannot be assigned has
another type than the declared one. -/
lemma keeps_assign {n : String} {t : DataType} {v : TypedConfig.Value}
    (ht : t.Sayable V.names) (hv : V.Value v) :
    V.Keeps V.Value (liftM (Step.assign n t v) : Step TypedConfig.Value) := by
  refine .lift (fun w hw => ?_) fun fault hfault => ?_
  · obtain ⟨-, -, rfl⟩ := Step.assign_ok hw
    exact hv.replace rfl (V.typed_of_sayable ht)
  · rw [Step.assign] at hfault
    split at hfault
    · rename_i hequals
      cases hfault
      exact .mismatch ht hv.here (by simpa using hequals)
    · split at hfault <;> cases hfault
      exact .other rfl

lemma value_mutable {v : TypedConfig.Value} (h : V.Value v) : V.Value v.mutable :=
  h.replace rfl h.here

lemma value_default {t : DataType} {v : TypedConfig.Value} (ht : V.typed t)
    (h : Step.default? t = some v) : V.Value v := by
  rcases Step.default?_eq_some.mp h with ⟨-, rfl⟩ | ⟨-, -, rfl⟩ <;>
    exact .leaf ht rfl

lemma keeps_store (hasValue : Bool) : V.Keeps (fun _ => True) (Step.store hasValue) := by
  refine keeps_popName.bind fun n _ => ?_
  have hbind (v : TypedConfig.Value) (hv : V.Value v) : V.Keeps (fun _ => True)
      (modify fun s => RunState.updateFrame (.bind n v.mutable) s : Step Unit) :=
    .modify fun s hs => hs.bind (value_mutable hv) n
  cases hasValue with
  | true =>
      refine Keeps.bind (Q := fun v => ∃ w, v = some w ∧ V.Value w)
        (keeps_popValue.bind fun w hw => .pure ⟨w, rfl, hw⟩) fun v hv => ?_
      obtain ⟨w, rfl, hw⟩ := hv
      exact keeps_popType.bind fun t ht => (keeps_assign ht hw).bind hbind
  | false =>
      refine Keeps.bind (Q := fun v => v = none) (.pure rfl) fun v hv => ?_
      subst hv
      refine keeps_popType.bind fun t ht => ?_
      cases hdefault : Step.default? t with
      | some v => exact Keeps.bind (.pure (value_default (V.typed_of_sayable ht) hdefault)) hbind
      | none => exact Keeps.bind (Q := V.Value) (.throw (.other rfl)) hbind

lemma tells_fieldType {t : DataType} {n : String} {fault : RuntimeFault}
    (h : Step.fieldType t n = .error fault) : V.Tells fault := by
  rw [Step.fieldType] at h
  split at h
  · cases h
    exact .other rfl
  · split at h <;> cases h
    exact .other rfl

lemma keeps_fieldType {t : DataType} (ht : t.Sayable V.names) (n : String) :
    V.Keeps (fun u => u.Sayable V.names) (liftM (Step.fieldType t n) : Step DataType) := by
  refine .lift (fun u hu => ?_) fun _ => tells_fieldType
  obtain ⟨shape, hshape, hfield⟩ := Step.fieldType_eq_ok.mp hu
  exact ht.field hshape hfield

lemma keeps_beginObject {t : DataType} (ht : t.Sayable V.names) :
    V.Keeps (fun _ => True) (Step.beginObject t) := by
  rw [Step.beginObject]
  cases hobject : t.isObject with
  | false => exact .throw (.notObject ht hobject)
  | true =>
      exact (keeps_push (c := .type t) ht).bind fun _ _ =>
        keeps_push (c := .object []) (List.forall_mem_nil _)

lemma keeps_newObject : V.Keeps (fun _ => True) Step.newObject := by
  refine (keeps_peek 0).bind fun c _ => ?_
  cases c with
  | name n =>
      exact (keeps_peekType 2).bind fun t ht => (keeps_fieldType ht n).bind fun u hu =>
        keeps_beginObject hu
  | _ => exact (keeps_peekType 0).bind fun t ht => keeps_beginObject ht

lemma keeps_setField : V.Keeps (fun _ => True) Step.setField := by
  refine keeps_popValue.bind fun v hv => keeps_popName.bind fun n _ =>
    keeps_popObject.bind fun fields hfields => (keeps_peekType 0).bind fun t ht =>
    (keeps_fieldType ht n).bind fun u hu => ?_
  split
  · exact .throw (.other rfl)
  · refine (keeps_assign hu hv).bind fun w hw => keeps_push (c := .object _) fun f hf => ?_
    rcases Bindings.mem_set hf with rfl | hf
    · exact value_mutable hw
    · exact hfields f hf

lemma keeps_sealObject : V.Keeps (fun _ => True) Step.sealObject := by
  refine (keeps_peekObject 0).bind fun fields _ => (keeps_peekType 1).bind fun t _ => ?_
  split
  · exact .throw (.other rfl)
  · split
    · exact .throw (.other rfl)
    · exact .pure trivial

lemma tells_member {v : TypedConfig.Value} {n : String} {fault : RuntimeFault}
    (h : Step.member v n = .error fault) : V.Tells fault := by
  cases hobject : v.type.isObject with
  | false =>
      rw [Step.member_other hobject] at h
      cases h
      exact .other rfl
  | true =>
      cases hpayload : v.payload with
      | object fields =>
          cases hget : Bindings.get? fields n with
          | some w =>
              rw [Step.member_given hobject hpayload hget] at h
              cases h
          | none =>
              rw [Step.member_missing hobject hpayload hget] at h
              cases hfield : Step.fieldType v.type n with
              | error fault =>
                  rw [hfield] at h
                  cases h
                  exact tells_fieldType hfield
              | ok u =>
                  rw [hfield] at h
                  simp only [Except.bind] at h
                  split at h <;> cases h
                  exact .other rfl
      | _ =>
          rw [Step.member] at h
          dsimp only at h
          rw [hobject, hpayload] at h
          cases h
          exact .other rfl

lemma keeps_member {v : TypedConfig.Value} (hv : V.Value v) (n : String) :
    V.Keeps V.Value (liftM (Step.member v n) : Step TypedConfig.Value) := by
  refine .lift (fun w hw => ?_) fun _ => tells_member
  obtain ⟨-, fields, hpayload, hget | ⟨-, u, hu, hdefault⟩⟩ := Step.member_ok hw
  · exact hv.field hpayload (Bindings.mem_of_get? hget)
  · exact value_default (V.typed_field hv.here hu) hdefault

lemma keeps_loadMember (next : Option Instr) :
    V.Keeps (fun _ => True) (Step.loadMember next) := by
  refine keeps_popName.bind fun n _ => keeps_popValue.bind fun v hv => ?_
  split
  · exact keeps_push (c := .method n v) hv
  · exact (keeps_member hv n).bind fun w hw => keeps_push (c := .value w) hw

lemma keeps_popArguments (count : Nat) {values : List TypedConfig.Value} :
    V.Keeps (fun _ => True) (Step.popArguments count values) := by
  induction count generalizing values with
  | zero => exact .pure trivial
  | succ count ih => exact keeps_popValue.bind fun _ _ => ih

lemma keeps_popCallee : V.Keeps (fun _ => True) Step.popCallee := by
  refine keeps_pop.bind fun c _ => ?_
  split
  · refine Keeps.get.bind fun s _ => ?_
    split
    · exact .pure trivial
    · exact .throw (.other rfl)
  · exact .pure trivial
  · exact .throw (.other rfl)

lemma keeps_roomForFrame : V.Keeps (fun _ => True) Step.roomForFrame := by
  refine Keeps.get.bind fun s _ => ?_
  split
  · exact .throw (.other rfl)
  · exact .pure trivial

lemma keeps_call (count : Nat) : V.Keeps (fun _ => True) (Step.call count) := by
  refine keeps_popCallee.bind fun callee _ => ?_
  obtain ⟨callee, receiver⟩ := callee
  dsimp only
  split
  · refine (keeps_popArguments count).bind fun arguments _ => keeps_roomForFrame.bind fun _ _ => ?_
    exact .modify fun s hs => ⟨hs.cells, hs.values, hs.types⟩
  · exact .throw (.other rfl)

lemma keeps_openScope (span : Span) : V.Keeps (fun _ => True) (Step.openScope span) := by
  refine keeps_popName.bind fun n _ => keeps_roomForFrame.bind fun _ _ => .modify fun s hs => ?_
  exact ⟨hs.cells, List.forall_mem_cons.mpr ⟨List.forall_mem_nil _, hs.values⟩,
    List.forall_mem_cons.mpr ⟨List.forall_mem_nil _, hs.types⟩⟩

lemma keeps_closeScope : V.Keeps (fun _ => True) Step.closeScope := by
  refine Keeps.get.bind fun s hs => ?_
  refine Keeps.bind (Q := fun r : Frame × CallStack => ∀ x ∈ r.2.frames, x ∈ s.frames.frames)
    (.lift (fun r hr => ?_) fun fault hfault => ?_) fun r hr => ?_
  · rw [CallStack.pop] at hr
    split at hr <;> cases hr
    rename_i f fs hinner
    intro x hx
    rw [CallStack.frames, hinner]
    exact List.mem_cons_of_mem _ hx
  · rw [CallStack.pop] at hfault
    split at hfault <;> cases hfault
    exact .other rfl
  · exact .modify fun t ht => ⟨ht.cells, fun x hx => hs.values x (hr x hx),
      fun x hx => hs.types x (hr x hx)⟩

/-- Behind its own name a type is resolved to one that can be said. -/
lemma Holds.sayable_resolved (hs : V.Holds s) {n : String} {isArray isOptional : Bool}
    {t : DataType}
    (h : Step.resolvedType s.frames.getType? (.ofName n) n isArray isOptional = .ok t) :
    t.Sayable V.names := by
  rw [Step.resolvedType] at h
  split at h
  · cases h
  · rename_i base hbase
    have hsayable : base.Sayable V.names := by
      rcases Option.or_eq_some_iff.mp hbase with hprimitive | ⟨hnone, hlookup⟩
      · have heq : base.withOptional false = base := by
          obtain ⟨tag, m, rfl⟩ := DataType.primitive?_eq_some hprimitive
          rfl
        exact heq ▸ .builtin hprimitive false
      · refine hs.type_of_getType? hlookup (TypeRef.not_mem_builtinNames ?_)
        cases href : TypeRef.ofName n with
        | user => rfl
        | _ =>
            rw [href] at hnone
            cases hnone
    cases h
    cases isArray with
    | false => exact hsayable.withOptional _
    | true => exact .array hsayable _

lemma Holds.resolveType (hs : V.Holds s) {n : String} (h : s.stack.cells = .name n :: cs)
    (isArray isOptional : Bool) :
    V.Ends (fun _ => True) (Step.resolveType (.ofName n) isArray isOptional s) := by
  rw [Step.resolveType_eq _ isArray isOptional h]
  cases ht : Step.resolvedType s.frames.getType? (.ofName n) n isArray isOptional with
  | error fault =>
      rw [Step.resolvedType] at ht
      split at ht
      · cases ht
        exact .other rfl
      · cases ht
  | ok t =>
      have hcells : ∀ c ∈ cs, V.Allows c := (List.forall_mem_cons.mp (h ▸ hs.cells)).2
      have htype : V.Allows (.type t) := hs.sayable_resolved ht
      exact keeps_push htype _ (hs.withCells hcells)

lemma Holds.bindNamed (hs : V.Holds s) {n : String} (h : s.stack.cells = .name n :: cs)
    (hn : V.names n) : V.Ends (fun _ => True) (Step.bindType s) := by
  have hcells : ∀ c ∈ cs, V.Allows c := (List.forall_mem_cons.mp (h ▸ hs.cells)).2
  rw [Step.bindType, Step.bind_eq, Step.popName_eq h]
  refine (keeps_pop.bind fun c hc => ?_) _ (hs.withCells hcells)
  have hbind (t : DataType) (ht : n ∉ TypeRef.builtinNames → t.Sayable V.names) :
      V.Keeps (fun _ => True)
        (modify fun s => RunState.updateFrame (.bindType n t) s : Step Unit) :=
    .modify fun s hs => hs.bindType ht
  cases c with
  | shape fields =>
      have ht (hb : n ∉ TypeRef.builtinNames) : (DataType.object n fields).Sayable V.names :=
        .object hn hb hc false
      exact Keeps.bind (.pure ht) hbind
  | type t => exact Keeps.bind (.pure fun _ => hc) hbind
  | _ => exact Keeps.bind (.throw (.other rfl)) hbind

end Vocabulary

/-- Whether what an instruction does depends on the name of a type on top of the stack. -/
def Instr.takesTypeName : Instr → Bool
  | .resolveType .. | .bindType => true
  | _ => false

/-- Any other instruction keeps to the vocabulary. -/
lemma Vocabulary.keeps_execute {V : Vocabulary} {i : Instr} (hi : i.takesTypeName = false)
    (next : Option Instr) (span : Span) : V.Keeps (fun _ => True) (i.execute next span) := by
  cases i with
  | pushName n => exact keeps_push (c := .name n) trivial
  | pushLiteral l =>
      refine keeps_push (c := .value (.ofLiteral l)) (.leaf (V.typed_of_sayable ?_) ?_)
      · cases l with
        | string x => exact .builtin (show DataType.primitive? .string = _ from rfl) false
        | integer x => exact .builtin (show DataType.primitive? .integer = _ from rfl) false
        | float x => exact .builtin (show DataType.primitive? .float = _ from rfl) false
        | boolean x => exact .builtin (show DataType.primitive? .boolean = _ from rfl) false
      · cases l <;> rfl
  | loadValue => exact keeps_loadValue next
  | resolveType ref isArray isOptional => cases hi
  | makeField n => exact keeps_makeField n
  | makeShape count => exact keeps_makeShape count
  | bindType => cases hi
  | store hasValue => exact keeps_store hasValue
  | newObject => exact keeps_newObject
  | setField => exact keeps_setField
  | sealObject => exact keeps_sealObject
  | openScope => exact keeps_openScope span
  | closeScope => exact keeps_closeScope
  | loadMember => exact keeps_loadMember next
  | call count => exact keeps_call count

/-! ## Code -/

/-- Whether every type is resolved right behind its own name, and bound right behind one of the
given names. -/
inductive Code.Says (names : String → Prop) : Code → Prop
  | nil : Says names []
  | resolve {code : Code} (name : String) (isArray isOptional : Bool) (span span' : Span) :
      Says names code → Says names ((.pushName name, span) ::
        (.resolveType (.ofName name) isArray isOptional, span') :: code)
  | define {code : Code} {name : String} (h : names name) (span span' : Span) :
      Says names code → Says names ((.pushName name, span) :: (.bindType, span') :: code)
  | cons {i : Instr} {span : Span} {code : Code} (h : i.takesTypeName = false) :
      Says names code → Says names ((i, span) :: code)

namespace Code.Says

variable {names : String → Prop} {code : Code}

lemma append {first rest : Code} (hfirst : Says names first) (hrest : Says names rest) :
    Says names (first ++ rest) := by
  induction hfirst with
  | nil => exact hrest
  | resolve name isArray isOptional span span' _ ih =>
      exact .resolve name isArray isOptional span span' ih
  | define h span span' _ ih => exact .define h span span' ih
  | cons h _ ih => exact .cons h ih

lemma take (h : Says names code) (k : Nat) : Says names (code.take k) := by
  induction h generalizing k with
  | nil =>
      rw [List.take_nil]
      exact .nil
  | resolve name isArray isOptional span span' _ ih =>
      match k with
      | 0 => exact .nil
      | 1 => exact .cons rfl .nil
      | k + 2 => exact .resolve name isArray isOptional span span' (ih k)
  | define h span span' _ ih =>
      match k with
      | 0 => exact .nil
      | 1 => exact .cons rfl .nil
      | k + 2 => exact .define h span span' (ih k)
  | cons h _ ih =>
      match k with
      | 0 => exact .nil
      | k + 1 => exact .cons h (ih k)

/-- The code of values neither resolves nor binds types. -/
lemma of_value (h : ∀ p ∈ code, p.1.isOfValue = true) : Says names code := by
  induction code with
  | nil => exact .nil
  | cons p code ih =>
      have hp : p.1.isOfValue = true := h p List.mem_cons_self
      refine .cons ?_ (ih fun q hq => h q (List.mem_cons_of_mem _ hq))
      cases hi : p.1 with
      | resolveType | bindType =>
          rw [hi] at hp
          cases hp
      | _ => rfl

end Code.Says

namespace Vocabulary

variable {V : Vocabulary} {s : RunState}

/-- A run of an instruction and of what follows it. -/
lemma EndsRun.cons {i : Instr} {span : Span} {rest : Code} {next : Option Instr}
    (hi : V.Ends (fun _ => True) (i.execute (firstOf rest next) span s))
    (hrest : ∀ t, i.execute (firstOf rest next) span s = .ok ((), t) → V.Holds t →
      V.EndsRun (runCode next rest t)) :
    V.EndsRun (runCode next ((i, span) :: rest) s) := by
  rw [runCode]
  cases hexec : i.execute (firstOf rest next) span s with
  | error fault =>
      rw [hexec] at hi
      exact hi
  | ok r =>
      rw [hexec] at hi
      exact hrest r.2 hexec hi.2

/-- A run of code keeps to the vocabulary, or fails with a fault that tells why. -/
theorem endsRun_runCode {code : Code} (hcode : code.Says V.names) (hs : V.Holds s)
    (next : Option Instr) : V.EndsRun (runCode next code s) := by
  have hname (name : String) {t : RunState} (ht : V.Holds t) :
      V.Ends (fun _ => True) (Step.push (.name name) t) :=
    keeps_push (c := .name name) trivial t ht
  induction hcode generalizing s with
  | nil => exact hs
  | resolve name isArray isOptional span span' _ ih =>
      refine .cons (hname name hs) fun t hpush ht => ?_
      exact .cons (ht.resolveType (Step.cells_of_push hpush) isArray isOptional) fun _ _ => ih
  | define h span span' _ ih =>
      refine .cons (hname _ hs) fun t hpush ht => ?_
      exact .cons (ht.bindNamed (Step.cells_of_push hpush) h) fun _ _ => ih
  | cons h _ ih => exact .cons (keeps_execute h _ _ s hs) fun _ _ => ih

end Vocabulary

/-! ## Compiled code -/

section

variable {names : String → Prop}

lemma TypeExpr.saysCode {t : TypeExpr} {code : Code} (h : t.compile = .ok code) :
    code.Says names := by
  obtain rfl := TypeExpr.compile_ok h
  exact .resolve t.name t.isArray t.isOptional t.span t.span .nil

lemma FieldDecl.saysCode {fs : List FieldDecl} {code : Code} (h : compileAll fs = .ok code) :
    code.Says names := by
  induction fs generalizing code with
  | nil =>
      cases h
      exact .nil
  | cons f fs ih =>
      obtain ⟨type, rest, htype, hrest, rfl⟩ := compileAll_cons_ok h
      exact (f.type.saysCode htype).append (.cons rfl (ih hrest))

lemma TypeExpr.says_definition {t : TypeExpr} {code : Code}
    (h : t.compileDefinition = .ok code) : code.Says names := by
  rcases TypeExpr.compileDefinition_ok h with ⟨-, htype⟩ | ⟨-, fields, hfields, rfl⟩
  · exact t.saysCode htype
  · exact (FieldDecl.saysCode hfields).append (.cons rfl .nil)

mutual

/-- Compiled code binds types to the names that the program defines as types. -/
lemma Stmt.saysCode (st : Stmt) (hst : ∀ n ∈ st.definedTypes, names n) {code : Code}
    (h : st.compile = .ok code) : code.Says names := by
  match st, hst, h with
  | .scope name body bodySpan span, hst, h =>
      obtain ⟨inner, hinner, rfl⟩ := Stmt.compile_scope_ok h
      have hinner := Stmt.saysAll body hst hinner
      exact .cons rfl (.cons rfl (hinner.append (.cons rfl .nil)))
  | .typedef name type span, hst, h =>
      obtain ⟨definition, hdefinition, rfl⟩ := Stmt.compile_typedef_ok h
      exact (type.says_definition hdefinition).append
        (.define (hst name List.mem_cons_self) span span .nil)
  | .binding name type value span, _, h =>
      obtain ⟨declared, bound, hdeclared, hbound, rfl⟩ := Stmt.compile_binding_ok h
      have hvalue : Code.Says names bound := .of_value (Expr.isOfValue_of_compileBound hbound)
      exact ((type.saysCode hdeclared).append hvalue).append (.cons rfl (.cons rfl .nil))
  | .effect e span, _, h =>
      obtain ⟨callee, arguments, callSpan, operands, target, rfl, hoperands, htarget, rfl⟩ :=
        Stmt.compile_effect_ok h
      have hoperands : Code.Says names operands :=
        .of_value (Expr.isOfValue_of_compileArguments hoperands)
      exact (hoperands.append (.of_value (callee.isOfValue_of_compile htarget))).append
        (.cons rfl .nil)

lemma Stmt.saysAll (ss : List Stmt) (hss : ∀ n ∈ Stmt.definedTypesAll ss, names n) {code : Code}
    (h : Stmt.compileAll ss = .ok code) : code.Says names := by
  match ss, hss, h with
  | [], _, h =>
      cases h
      exact .nil
  | st :: ss, hss, h =>
      obtain ⟨first, rest, hfirst, hrest, rfl⟩ := Stmt.compileAll_cons_ok h
      exact (Stmt.saysCode st (fun n hn => hss n (List.mem_append_left _ hn)) hfirst).append
        (Stmt.saysAll ss (fun n hn => hss n (List.mem_append_right _ hn)) hrest)

end

end

end TypedConfig
