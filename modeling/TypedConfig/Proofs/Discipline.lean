import TypedConfig.Proofs.Layout
import TypedConfig.Proofs.Values

/-!
# What holds of everything that a run handles

A `Discipline` is a family of conditions: on types, on values on the stack, on values that are
bound, and on objects under construction.  Its laws say that whatever an instruction makes meets the
conditions if what it takes does.  They speak of single computations and know of no stack and no
run.

**States.** With a layout, a discipline is a condition on states: the cells are what the slots say,
and everything in them, in the frames and in the record of calls meets the conditions
(`Discipline.Holds`).

**Faults.** Whatever a program does wrong, its fault is not an internal one.  Of all computations
only that of a member can bring about an internal fault, so a discipline has a law about it.
-/

namespace TypedConfig

/-- Conditions on what a run handles, and the laws by which they carry over to what comes of it. -/
structure Discipline where
  /-- The shapes that a name may be given to. -/
  shape : String → Shape → Prop
  type : DataType → Prop
  value : Value → Prop
  /-- The values that may be bound. -/
  bound : Value → Prop
  /-- The objects of a type that may be under construction. -/
  building : DataType → Bindings Value → Prop
  type_primitive {ref : TypeRef} {t : DataType} : DataType.primitive? ref = some t → type t
  type_arrayOf {t : DataType} : type t → type (.arrayOf t)
  type_withOptional {t : DataType} (b : Bool) : type t → type (t.withOptional b)
  type_object {n : String} {fields : Shape} :
    shape n fields → (∀ f ∈ fields, type f.2) → type (.object n fields)
  type_field {t u : DataType} {n : String} : type t → Step.fieldType t n = .ok u → type u
  building_nil {t : DataType} : type t → t.isObject = true → building t []
  building_add {t : DataType} {given given' : Bindings Value} {n : String} {v : Value} :
    type t → building t given → value v → Step.addField t given n v = .ok given' →
      building t given'
  value_built {t : DataType} {given : Bindings Value} :
    type t → building t given → Step.checkSealed t given = .ok () → value (.object t given)
  value_literal (l : Literal) : value (.ofLiteral l)
  value_bound {v : Value} : bound v → value v
  value_member {v w : Value} {n : String} : value v → Step.member v n = .ok w → value w
  not_internal_member {v : Value} {n : String} {fault : RuntimeFault} :
    value v → Step.member v n = .error fault → fault.isInternal = false
  bound_assign {t : DataType} {v w : Value} {n : String} :
    type t → value v → Step.assign n t v = .ok w → bound w.mutable
  bound_default {t : DataType} {v : Value} {n : String} :
    type t → Step.defaultFor n t = .ok v → bound v.mutable

/-! ## States that meet the conditions -/

namespace Discipline

variable (P : Discipline)

/-- Whether cells are what the slots say and meet the conditions. -/
inductive Matches : List Slot → List Cell → Prop
  | nil : Matches [] []
  | name (n : String) {ss : List Slot} {cs : List Cell} (h : Matches ss cs) :
      Matches (.name n :: ss) (.name n :: cs)
  | type {t : DataType} (ht : P.type t) {ss : List Slot} {cs : List Cell} (h : Matches ss cs) :
      Matches (.type :: ss) (.type t :: cs)
  | value {v : Value} (hv : P.value v) {ss : List Slot} {cs : List Cell} (h : Matches ss cs) :
      Matches (.value :: ss) (.value v :: cs)
  | building {t : DataType} {given : Bindings Value} (ht : P.type t) (hg : P.building t given)
      {ss : List Slot} {cs : List Cell} (h : Matches ss cs) :
      Matches (.building :: ss) (.object given :: .type t :: cs)
  | built {t : DataType} {given : Bindings Value} (hv : P.value (.object t given))
      {ss : List Slot} {cs : List Cell} (h : Matches ss cs) :
      Matches (.built :: ss) (.object given :: .type t :: cs)
  | field {n : String} {t : DataType} (ht : P.type t) {ss : List Slot} {cs : List Cell}
      (h : Matches ss cs) : Matches (.field :: ss) (.field n t :: cs)
  | shape {fields : Shape} (hf : ∀ f ∈ fields, P.type f.2) {ss : List Slot} {cs : List Cell}
      (h : Matches ss cs) : Matches (.shape :: ss) (.shape fields :: cs)
  | method {n : String} {v : Value} (hv : P.value v) {ss : List Slot} {cs : List Cell}
      (h : Matches ss cs) : Matches (.method :: ss) (.method n v :: cs)

namespace Matches

variable {P} {ss : List Slot} {cells : List Cell}

lemma of_name {n : String} (h : P.Matches (.name n :: ss) cells) :
    ∃ cs, cells = .name n :: cs ∧ P.Matches ss cs := by
  cases h with
  | @name n _ cs h => exact ⟨cs, rfl, h⟩

lemma of_type (h : P.Matches (.type :: ss) cells) :
    ∃ t cs, cells = .type t :: cs ∧ P.type t ∧ P.Matches ss cs := by
  cases h with
  | @type t ht _ cs h => exact ⟨t, cs, rfl, ht, h⟩

lemma of_value (h : P.Matches (.value :: ss) cells) :
    ∃ v cs, cells = .value v :: cs ∧ P.value v ∧ P.Matches ss cs := by
  cases h with
  | @value v hv _ cs h => exact ⟨v, cs, rfl, hv, h⟩

lemma of_building (h : P.Matches (.building :: ss) cells) :
    ∃ given t cs, cells = .object given :: .type t :: cs ∧ P.type t ∧ P.building t given ∧
      P.Matches ss cs := by
  cases h with
  | @building t given ht hg _ cs h => exact ⟨given, t, cs, rfl, ht, hg, h⟩

lemma of_shape (h : P.Matches (.shape :: ss) cells) :
    ∃ fields cs, cells = .shape fields :: cs ∧ (∀ f ∈ fields, P.type f.2) ∧ P.Matches ss cs := by
  cases h with
  | @shape fields hf _ cs h => exact ⟨fields, cs, rfl, hf, h⟩

lemma of_method (h : P.Matches (.method :: ss) cells) :
    ∃ n v cs, cells = .method n v :: cs ∧ P.value v ∧ P.Matches ss cs := by
  cases h with
  | @method n v hv _ cs h => exact ⟨n, v, cs, rfl, hv, h⟩

lemma of_operand {o : Slot} (ho : o.Operand) (h : P.Matches (o :: ss) cells) :
    ∃ top v cs, IsOperand top v ∧ P.value v ∧ cells = top ++ cs ∧ P.Matches ss cs := by
  cases ho with
  | value =>
      cases h with
      | @value v hv _ cs h => exact ⟨[.value v], v, cs, .value v, hv, rfl, h⟩
  | built =>
      cases h with
      | @built t given hv _ cs h => exact ⟨_, _, cs, .object t given, hv, rfl, h⟩

/-- Cells of one kind lie on the stack with the last one on top. -/
lemma of_replicate {α : Type} {o : Slot} {cell : α → Cell} {p : α → Prop}
    (hone : ∀ {ss : List Slot} {cells : List Cell}, P.Matches (o :: ss) cells →
      ∃ a cs, cells = cell a :: cs ∧ p a ∧ P.Matches ss cs)
    {k : Nat} (h : P.Matches (List.replicate k o ++ ss) cells) :
    ∃ (xs : List α) (cs : List Cell), xs.length = k ∧ (∀ x ∈ xs, p x) ∧
      cells = xs.reverse.map cell ++ cs ∧ P.Matches ss cs := by
  induction k generalizing cells with
  | zero =>
      refine ⟨[], cells, rfl, ?_, rfl, h⟩
      intro x hx
      cases hx
  | succ k ih =>
      rw [List.replicate_succ, List.cons_append] at h
      obtain ⟨a, cs, rfl, ha, hrest⟩ := hone h
      obtain ⟨xs, cs, rfl, hxs, rfl, hss⟩ := ih hrest
      refine ⟨xs ++ [a], cs, by simp, ?_, by simp, hss⟩
      intro x hx
      rcases List.mem_append.mp hx with hx | hx
      · exact hxs x hx
      · rw [List.mem_singleton.mp hx]
        exact ha

/-- The fields of a shape. -/
lemma of_fields {k : Nat} (h : P.Matches (List.replicate k .field ++ ss) cells) :
    ∃ (fields : Shape) (cs : List Cell), fields.length = k ∧ (∀ f ∈ fields, P.type f.2) ∧
      cells = (fields.reverse.map fun f => Cell.field f.1 f.2) ++ cs ∧ P.Matches ss cs := by
  refine of_replicate ?_ h
  intro ss cells h
  cases h with
  | @field n t ht _ cs h => exact ⟨(n, t), cs, rfl, ht, h⟩

/-- The arguments of a call. -/
lemma of_values {k : Nat} (h : P.Matches (List.replicate k .value ++ ss) cells) :
    ∃ (values : List Value) (cs : List Cell), values.length = k ∧ (∀ v ∈ values, P.value v) ∧
      cells = values.reverse.map .value ++ cs ∧ P.Matches ss cs :=
  of_replicate of_value h

end Matches

/-- Whether a state is as the layout says and everything in it meets the conditions. -/
structure Holds (l : Layout) (s : RunState) : Prop where
  cells : P.Matches l.slots s.stack.cells
  depth : s.frames.inner.length = l.depth
  linked : s.frames.Linked
  values : ∀ f ∈ s.frames.frames, ∀ e ∈ f.values, P.bound e.2
  types : ∀ f ∈ s.frames.frames, ∀ e ∈ f.types, P.type e.2
  arguments : ∀ c ∈ s.calls, ∀ v ∈ c.arguments, P.value v

/-- Whether a step ends in such a state, or fails and the program is to blame. -/
def Keeps (l : Layout) : Except RuntimeFault (Unit × RunState) → Prop
  | .ok r => P.Holds l r.2
  | .error fault => fault.isInternal = false

section

variable {P} {l l' : Layout} {s : RunState} {ss : List Slot} {cs : List Cell} {d : Nat}
  {ns ns' : List String}

lemma Holds.withCells (hs : P.Holds ⟨ss, d, ns⟩ s) {ss' : List Slot} (h : P.Matches ss' cs) :
    P.Holds ⟨ss', d, ns'⟩ (s.withCells cs) :=
  ⟨h, hs.depth, hs.linked, hs.values, hs.types, hs.arguments⟩

lemma Keeps.push {c : Cell} (h : P.Holds l (s.withCells (c :: cs))) :
    P.Keeps l (Step.push c (s.withCells cs)) := by
  rw [Step.push_eq]
  split
  · exact h
  · rfl

lemma Keeps.bind {α : Type} {x : Except RuntimeFault α}
    {f : α → Except RuntimeFault (Unit × RunState)}
    (hx : ∀ fault, x = .error fault → fault.isInternal = false)
    (h : ∀ a, x = .ok a → P.Keeps l (f a)) : P.Keeps l (x.bind f) := by
  cases x with
  | error fault => exact hx fault rfl
  | ok a => exact h a rfl

lemma Keeps.map {α : Type} {x : Except RuntimeFault α} {f : α → Unit × RunState}
    (hx : ∀ fault, x = .error fault → fault.isInternal = false)
    (h : ∀ a, x = .ok a → P.Holds l (f a).2) : P.Keeps l (x.map f) := by
  cases x with
  | error fault => exact hx fault rfl
  | ok a => exact h a rfl

/-- Changing the innermost frame changes one of the open frames and nothing else. -/
lemma mem_updateCurrent {frames : CallStack} {f : Frame → Frame} {x : Frame}
    (h : x ∈ (frames.updateCurrent f).frames) :
    x ∈ frames.frames ∨ ∃ y ∈ frames.frames, x = f y := by
  obtain ⟨inner, root⟩ := frames
  cases inner with
  | nil =>
      rw [List.mem_singleton.mp h]
      exact Or.inr ⟨root, List.mem_singleton_self root, rfl⟩
  | cons g gs =>
      rcases List.mem_cons.mp h with rfl | h
      · exact Or.inr ⟨g, List.mem_cons_self, rfl⟩
      · exact Or.inl (List.mem_cons_of_mem _ h)

/-- A change of the innermost frame has to see to nothing but the frame. -/
lemma Holds.updateFrame (hs : P.Holds l s) {f : Frame → Frame}
    (hparent : ∀ x, (f x).parent = x.parent)
    (hvalues : ∀ x : Frame, (∀ e ∈ x.values, P.bound e.2) → ∀ e ∈ (f x).values, P.bound e.2)
    (htypes : ∀ x : Frame, (∀ e ∈ x.types, P.type e.2) → ∀ e ∈ (f x).types, P.type e.2) :
    P.Holds l (s.updateFrame f) := by
  refine ⟨hs.cells, ?_, CallStack.linked_updateCurrent hparent hs.linked, ?_, ?_, hs.arguments⟩
  · have hdepth := CallStack.depth_updateCurrent s.frames f
    exact (Nat.succ.inj hdepth).trans hs.depth
  · intro x hx
    rcases mem_updateCurrent hx with hx | ⟨y, hy, rfl⟩
    · exact hs.values x hx
    · exact hvalues y (hs.values y hy)
  · intro x hx
    rcases mem_updateCurrent hx with hx | ⟨y, hy, rfl⟩
    · exact hs.types x hx
    · exact htypes y (hs.types y hy)

lemma Holds.bind (hs : P.Holds l s) {n : String} {v : Value} (hv : P.bound v) :
    P.Holds l (s.updateFrame (.bind n v)) := by
  refine hs.updateFrame (fun _ => rfl) ?_ fun _ htypes => htypes
  intro x hx e he
  rcases Bindings.mem_set he with rfl | he
  · exact hv
  · exact hx e he

lemma Holds.bindType (hs : P.Holds l s) {n : String} {t : DataType} (ht : P.type t) :
    P.Holds l (s.updateFrame (.bindType n t)) := by
  refine hs.updateFrame (fun _ => rfl) (fun _ hvalues => hvalues) ?_
  intro x hx e he
  rcases Bindings.mem_set he with rfl | he
  · exact ht
  · exact hx e he

/-- A binding that is found was made in one of the open frames. -/
lemma mem_of_findSome? {α : Type} {frames : CallStack} {bindings : Frame → Bindings α} {n : String}
    {a : α} (h : frames.chain.findSome? (fun f => (bindings f).get? n) = some a) :
    ∃ f ∈ frames.frames, (n, a) ∈ bindings f := by
  obtain ⟨f, hf, hget⟩ := List.exists_of_findSome?_eq_some h
  exact ⟨f, CallStack.mem_of_mem_walk hf, Bindings.mem_of_get? hget⟩

lemma Holds.value_of_get? (hs : P.Holds l s) {n : String} {v : Value}
    (h : s.frames.get? n = some v) : P.value v := by
  obtain ⟨f, hf, he⟩ := mem_of_findSome? h
  exact P.value_bound (hs.values f hf _ he)

lemma Holds.type_of_getType? (hs : P.Holds l s) {n : String} {t : DataType}
    (h : s.frames.getType? n = some t) : P.type t := by
  obtain ⟨f, hf, he⟩ := mem_of_findSome? h
  exact hs.types f hf _ he

lemma Holds.type_resolved (hs : P.Holds l s) {ref : TypeRef} {n : String}
    {isArray isOptional : Bool} {t : DataType}
    (h : Step.resolvedType s.frames.getType? ref n isArray isOptional = .ok t) : P.type t := by
  rw [Step.resolvedType] at h
  split at h
  · cases h
  · rename_i base hbase
    have htype : P.type base := by
      rcases Option.or_eq_some_iff.mp hbase with hbase | ⟨-, hbase⟩
      · exact P.type_primitive hbase
      · exact hs.type_of_getType? hbase
    cases h
    refine P.type_withOptional _ ?_
    split
    · exact P.type_arrayOf htype
    · exact htype

end

end Discipline

end TypedConfig
