import TypedConfig.Proofs.Preservation
import TypedConfig.Proofs.Refinement

/-!
# Accepted programs bring about no internal fault

An internal fault says that the instructions did not fit together: a cell of the wrong kind, an
empty stack, a scope that is not there, or an object type whose value is no object.

**What the host must see to.** Only the host can bind a value of an object type that is no object.
`Value.Backed` says that there is none, at any depth; then no run of an accepted program ends with
an internal fault, whatever the limits are (`Block.no_internal_fault`).

**What this says of the stack.** Every instruction finds the cells it takes (`Instr.Finds`), a scope
that is closed is never the root, and a statement leaves the stack and the frames as it found them.
-/

namespace TypedConfig

/-! ## Values that are what their type says about objects -/

/-- Whether a value and all values inside it are backed. -/
def Value.Backed (v : Value) : Prop := v.Everywhere IsBacked

namespace Value

lemma backed_of_other {v : Value} (ht : v.type.isObject = false) (hinner : v.payload.inner = []) :
    v.Backed := by
  refine .leaf ?_ hinner
  intro hobject
  rw [ht] at hobject
  cases hobject

lemma backed_default {t : DataType} {v : Value} (h : Step.default? t = some v) : v.Backed := by
  rcases Step.default?_eq_some.mp h with ⟨harray, rfl⟩ | ⟨-, -, rfl⟩
  · exact backed_of_other (DataType.isObject_of_isArray harray) rfl
  · exact .leaf (fun _ => Or.inl rfl) rfl

lemma backed_assign {t : DataType} {n : String} {v w : Value} (hv : v.Backed)
    (h : Step.assign n t v = .ok w) : w.mutable.Backed := by
  obtain ⟨hequals, -, rfl⟩ := Step.assign_ok h
  refine hv.replace rfl ?_
  intro hobject
  exact hv.here ((DataType.isObject_of_equals hequals).trans hobject)

end Value

/-- Values are backed everywhere. -/
def backing : Discipline where
  shape _ _ := True
  type _ := True
  value := Value.Backed
  bound := Value.Backed
  building _ given := ∀ f ∈ given, f.2.Backed
  type_primitive _ := trivial
  type_arrayOf _ := trivial
  type_withOptional _ _ := trivial
  type_object _ _ := trivial
  type_field _ _ := trivial
  building_nil _ _ f hf := by cases hf
  building_add _ hgiven hv h f hf := by
    obtain ⟨u, w, -, hassign, rfl⟩ := Step.addField_ok h
    rcases Bindings.mem_set hf with rfl | hf
    · exact Value.backed_assign hv hassign
    · exact hgiven f hf
  value_built _ hgiven _ := .object (fun _ => Or.inr ⟨_, rfl⟩) hgiven
  value_literal l := by cases l <;> exact Value.backed_of_other rfl rfl
  value_bound hv := hv
  value_member hv h := by
    obtain ⟨-, fields, hfields, hget | ⟨-, u, -, hdefault⟩⟩ := Step.member_ok h
    · exact hv.field hfields (Bindings.mem_of_get? hget)
    · exact Value.backed_default hdefault
  not_internal_member hv h := Step.not_internal_member hv.here h
  bound_assign _ hv h := Value.backed_assign hv h
  bound_default _ h := by
    have hv := Value.backed_default (Step.defaultFor_ok h)
    exact hv.replace rfl hv.here

/-! ## What instructions find -/

/-- Whether the topmost cells are of the kinds that an instruction takes or looks at. -/
inductive Instr.Finds : Instr → List Cell → Prop
  | pushName (n : String) (cs : List Cell) : Finds (.pushName n) cs
  | pushLiteral (l : Literal) (cs : List Cell) : Finds (.pushLiteral l) cs
  | loadValue (n : String) (cs : List Cell) : Finds .loadValue (.name n :: cs)
  | resolveType (ref : TypeRef) (isArray isOptional : Bool) (n : String) (cs : List Cell) :
      Finds (.resolveType ref isArray isOptional) (.name n :: cs)
  | makeField (n : String) (t : DataType) (cs : List Cell) : Finds (.makeField n) (.type t :: cs)
  | makeShape (fields : Shape) (cs : List Cell) :
      Finds (.makeShape fields.length) ((fields.reverse.map fun f => .field f.1 f.2) ++ cs)
  | bindShape (n : String) (fields : Shape) (cs : List Cell) :
      Finds .bindType (.name n :: .shape fields :: cs)
  | bindType (n : String) (t : DataType) (cs : List Cell) :
      Finds .bindType (.name n :: .type t :: cs)
  | storeValue {top : List Cell} {v : Value} (hv : IsOperand top v) (n : String) (t : DataType)
      (cs : List Cell) : Finds (.store true) (.name n :: (top ++ .type t :: cs))
  | storeDefault (n : String) (t : DataType) (cs : List Cell) :
      Finds (.store false) (.name n :: .type t :: cs)
  | newObject (t : DataType) (cs : List Cell) : Finds .newObject (.type t :: cs)
  | newField (n : String) (given : Bindings Value) (t : DataType) (cs : List Cell) :
      Finds .newObject (.name n :: .object given :: .type t :: cs)
  | setField {top : List Cell} {v : Value} (hv : IsOperand top v) (n : String)
      (given : Bindings Value) (t : DataType) (cs : List Cell) :
      Finds .setField (top ++ .name n :: .object given :: .type t :: cs)
  | sealObject (given : Bindings Value) (t : DataType) (cs : List Cell) :
      Finds .sealObject (.object given :: .type t :: cs)
  | loadMember (n : String) (v : Value) (cs : List Cell) :
      Finds .loadMember (.name n :: .value v :: cs)
  | callValue (v : Value) (values : List Value) (cs : List Cell) :
      Finds (.call values.length) (.value v :: (values.reverse.map .value ++ cs))
  | callMethod (n : String) (v : Value) (values : List Value) (cs : List Cell) :
      Finds (.call values.length) (.method n v :: (values.reverse.map .value ++ cs))
  | openScope (n : String) (cs : List Cell) : Finds .openScope (.name n :: cs)
  | closeScope (cs : List Cell) : Finds .closeScope cs

/-- An instruction with a rule for the layout finds what it takes. -/
lemma Discipline.Matches.finds {P : Discipline} {i : Instr} {next : Option Instr} {l r : Layout}
    {cells : List Cell} (hm : i.Moves next l r) (h : P.Matches l.slots cells) : i.Finds cells := by
  cases hm with
  | pushName n => exact .pushName n _
  | pushLiteral l => exact .pushLiteral l _
  | loadValue n =>
      obtain ⟨cs, rfl, -⟩ := h.of_name
      exact .loadValue n cs
  | resolveType ref isArray isOptional n =>
      obtain ⟨cs, rfl, -⟩ := h.of_name
      exact .resolveType ref isArray isOptional n cs
  | makeField n =>
      obtain ⟨t, cs, rfl, -, -⟩ := h.of_type
      exact .makeField n t cs
  | makeShape =>
      obtain ⟨fields, cs, rfl, -, rfl, -⟩ := Matches.of_fields h
      exact .makeShape fields cs
  | bindShape n =>
      obtain ⟨_, rfl, hname⟩ := h.of_name
      obtain ⟨fields, cs, rfl, -, -⟩ := hname.of_shape
      exact .bindShape n fields cs
  | bindType n =>
      obtain ⟨_, rfl, hname⟩ := h.of_name
      obtain ⟨t, cs, rfl, -, -⟩ := hname.of_type
      exact .bindType n t cs
  | storeValue n ho =>
      obtain ⟨_, rfl, hname⟩ := h.of_name
      obtain ⟨top, v, _, htop, -, rfl, hvalue⟩ := hname.of_operand ho
      obtain ⟨t, cs, rfl, -, -⟩ := hvalue.of_type
      exact .storeValue htop n t cs
  | storeDefault n =>
      obtain ⟨_, rfl, hname⟩ := h.of_name
      obtain ⟨t, cs, rfl, -, -⟩ := hname.of_type
      exact .storeDefault n t cs
  | newObject =>
      obtain ⟨t, cs, rfl, -, -⟩ := h.of_type
      exact .newObject t cs
  | newField n =>
      obtain ⟨_, rfl, hname⟩ := h.of_name
      obtain ⟨given, t, cs, rfl, -, -, -⟩ := hname.of_building
      exact .newField n given t cs
  | setField n ho =>
      obtain ⟨top, v, _, htop, -, rfl, hvalue⟩ := h.of_operand ho
      obtain ⟨_, rfl, hname⟩ := hvalue.of_name
      obtain ⟨given, t, cs, rfl, -, -, -⟩ := hname.of_building
      exact .setField htop n given t cs
  | sealObject =>
      obtain ⟨given, t, cs, rfl, -, -, -⟩ := h.of_building
      exact .sealObject given t cs
  | loadMember hnext n | loadMethod hnext n =>
      obtain ⟨_, rfl, hname⟩ := h.of_name
      obtain ⟨v, cs, rfl, -, -⟩ := hname.of_value
      exact .loadMember n v cs
  | callValue =>
      obtain ⟨v, _, rfl, -, hvalue⟩ := h.of_value
      obtain ⟨values, cs, rfl, -, rfl, -⟩ := hvalue.of_values
      exact .callValue v values cs
  | callMethod =>
      obtain ⟨n, v, _, rfl, -, hmethod⟩ := h.of_method
      obtain ⟨values, cs, rfl, -, rfl, -⟩ := hmethod.of_values
      exact .callMethod n v values cs
  | openScope n =>
      obtain ⟨cs, rfl, -⟩ := h.of_name
      exact .openScope n cs
  | closeScope => exact .closeScope _

/-! ## Statements -/

/-- Wherever the code of a statement stands, the cells and the number of frames behind it are as
they were ahead of it. -/
lemma Machine.Reaches.statement {m : Machine} {st : Stmt} {before code after : Code}
    {s t : RunState} (hst : st.compile = .ok code) (hs : m.Reaches before (code ++ after) s)
    (ht : m.Reaches (before ++ code) after t) (hlinked : s.frames.Linked) :
    t.stack.cells = s.stack.cells ∧ t.frames.depth = s.frames.depth := by
  have hperforms : Performs (firstOf after none) code s s.stack.cells _ :=
    st.performs_eval hst hlinked
  rw [Performs] at hperforms
  rw [hs.between ht] at hperforms
  exact ⟨hperforms.2.1, hperforms.2.2.1⟩

/-- If the host has bound no value of an object type that is no object, then an accepted program
brings about no internal fault, whatever the limits are.  At every point of its run the instruction
that comes next finds the cells it takes, and a scope when it closes one; and a statement, whatever
scope its code stands in, leaves the cells and the number of frames as they were before it. -/
theorem Block.no_internal_fault {b : Block} {c : Chunk} (h : b.compile = .ok c) (limits : Limits)
    {host : List HostBinding} (hhost : ∀ x ∈ host, x.entry.2.Backed) :
    (∀ e, (c.machine limits host).run.failure = some e → e.cause.isInternal = false) ∧
    (∀ done i span rest s, (c.machine limits host).Reaches done ((i, span) :: rest) s →
      i.Finds s.stack.cells ∧ (i = .closeScope → s.frames.inner ≠ [])) ∧
    (∀ (st : Stmt) before code after s t, st.compile = .ok code →
      (c.machine limits host).Reaches before (code ++ after) s →
      (c.machine limits host).Reaches (before ++ code) after t →
      t.stack.cells = s.stack.cells ∧ t.frames.depth = s.frames.depth) := by
  refine ⟨?_, ?_, ?_⟩
  · intro e he
    exact backing.failure_not_internal h hhost (fun _ _ => trivial) he
  · intro done i span rest s hreach
    obtain ⟨l, hl, hrest, -⟩ := backing.holds_of_reaches h hhost hreach fun _ _ => trivial
    cases hrest with
    | cons hi hrest =>
        refine ⟨hl.cells.finds hi, ?_⟩
        rintro rfl
        cases hi with
        | closeScope =>
            obtain ⟨f, fs, hinner⟩ := hl.inner_eq
            rw [hinner]
            exact List.cons_ne_nil f fs
  · intro st before code after s t hst hs ht
    obtain ⟨l, hl, -, -⟩ := backing.holds_of_reaches h hhost hs fun _ _ => trivial
    exact hs.statement hst ht hl.linked

/-- With room for two cells the sample fails, but not with an internal fault. -/
theorem Block.no_internal_fault_sample : ∃ c e, sample.compile = .ok c ∧
    (c.machine ⟨2, 256⟩ sampleHost).run.failure = some e ∧ e.cause.isInternal = false := by
  obtain ⟨c, hc⟩ := compile_sample
  have hfails : (c.machine ⟨2, 256⟩ sampleHost).run.failure.isSome = true := by
    cases hc
    decide +kernel
  have hhost : ∀ x ∈ sampleHost, x.entry.2.Backed := by
    intro x hx
    rw [List.mem_singleton.mp hx]
    exact Value.backed_of_other rfl rfl
  obtain ⟨e, he⟩ := Option.isSome_iff_exists.mp hfails
  exact ⟨c, e, hc, he, (no_internal_fault hc ⟨2, 256⟩ hhost).1 e he⟩

end TypedConfig
