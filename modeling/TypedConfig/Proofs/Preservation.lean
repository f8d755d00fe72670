import TypedConfig.Proofs.Discipline

/-!
# A run keeps to a discipline

If a discipline holds of what the host has bound, it holds of everything that a run of accepted code
comes upon, and no internal fault occurs.

**Steps.** Each instruction has one lemma, for the slots that it is meant to find.
`Discipline.step` puts them together: a step takes the layout from one place in the code to the
next.

**Runs** are one step after the other (`Discipline.run`), and a program is a piece of code that
begins with nothing on the stack (`Discipline.holds_of_reaches`).

**Shapes.** Which shapes the names of types are given to is up to the program, so a discipline may
speak of them: `boundShapes` lists those that a run gives names to.
-/

namespace TypedConfig

namespace Discipline

section

variable {P : Discipline} {s : RunState} {ss : List Slot} {d : Nat} {ns ns' : List String}

/-! ## One lemma for each instruction -/

lemma Holds.pushed (hs : P.Holds ⟨ss, d, ns⟩ s) {o : Slot} {c : Cell}
    (hc : ∀ {cs : List Cell}, P.Matches ss cs → P.Matches (o :: ss) (c :: cs)) :
    P.Keeps ⟨o :: ss, d, ns⟩ (Step.push c s) := by
  have hpush : P.Keeps ⟨o :: ss, d, ns⟩ (Step.push c (s.withCells s.stack.cells)) :=
    Keeps.push (hs.withCells (hc hs.cells))
  exact hpush

lemma Holds.loadValue {n : String} (hs : P.Holds ⟨.name n :: ss, d, ns⟩ s)
    (next : Option Instr) : P.Keeps ⟨.value :: ss, d, ns⟩ (Step.loadValue next s) := by
  obtain ⟨cs, hcells, hcs⟩ := hs.cells.of_name
  rw [Step.loadValue_eq next hcells]
  cases hget : s.frames.get? n with
  | none =>
      dsimp only
      split <;> rfl
  | some v =>
      have hv : P.value v := hs.value_of_get? hget
      exact Keeps.push (hs.withCells (.value hv hcs))

lemma Holds.resolveType {n : String} (hs : P.Holds ⟨.name n :: ss, d, ns⟩ s) (ref : TypeRef)
    (isArray isOptional : Bool) :
    P.Keeps ⟨.type :: ss, d, ns⟩ (Step.resolveType ref isArray isOptional s) := by
  obtain ⟨cs, hcells, hcs⟩ := hs.cells.of_name
  rw [Step.resolveType_eq ref isArray isOptional hcells]
  refine Keeps.bind (fun fault h => Step.not_internal_resolvedType h) ?_
  intro t ht
  have htype : P.type t := hs.type_resolved ht
  exact Keeps.push (hs.withCells (.type htype hcs))

lemma Holds.makeField (hs : P.Holds ⟨.type :: ss, d, ns⟩ s) (n : String) :
    P.Keeps ⟨.field :: ss, d, ns⟩ (Step.makeField n s) := by
  obtain ⟨t, cs, hcells, ht, hcs⟩ := hs.cells.of_type
  rw [Step.makeField_eq n hcells]
  exact Keeps.push (hs.withCells (.field ht hcs))

lemma Holds.makeShape {k : Nat} (hs : P.Holds ⟨List.replicate k .field ++ ss, d, ns⟩ s) :
    P.Keeps ⟨.shape :: ss, d, ns⟩ (Step.makeShape k s) := by
  obtain ⟨fields, cs, rfl, hfields, hcells, hcs⟩ := Matches.of_fields hs.cells
  rw [Step.makeShape_eq hcells]
  split
  · rfl
  · exact Keeps.push (hs.withCells (.shape hfields hcs))

lemma Holds.bindShape {n : String} (hs : P.Holds ⟨.name n :: .shape :: ss, d, ns⟩ s)
    (hshape : ∀ {fields : Shape} {cs : List Cell},
      s.stack.cells = .name n :: .shape fields :: cs → P.shape n fields) :
    P.Keeps ⟨ss, d, ns'⟩ (Step.bindType s) := by
  obtain ⟨_, hcells, hname⟩ := hs.cells.of_name
  obtain ⟨fields, cs, rfl, hfields, hcs⟩ := hname.of_shape
  have htype : P.type (.object n fields) := P.type_object (hshape hcells) hfields
  rw [Step.bindType_shape hcells]
  exact (hs.withCells hcs).bindType htype

lemma Holds.bindNamed {n : String} (hs : P.Holds ⟨.name n :: .type :: ss, d, ns⟩ s) :
    P.Keeps ⟨ss, d, ns⟩ (Step.bindType s) := by
  obtain ⟨_, hcells, hname⟩ := hs.cells.of_name
  obtain ⟨t, cs, rfl, ht, hcs⟩ := hname.of_type
  rw [Step.bindType_type hcells]
  exact (hs.withCells hcs).bindType ht

lemma Holds.storeValue {n : String} {o : Slot} (ho : o.Operand)
    (hs : P.Holds ⟨.name n :: o :: .type :: ss, d, ns⟩ s) :
    P.Keeps ⟨ss, d, ns⟩ (Step.store true s) := by
  obtain ⟨_, hcells, hname⟩ := hs.cells.of_name
  obtain ⟨top, v, _, htop, hv, rfl, hvalue⟩ := hname.of_operand ho
  obtain ⟨t, cs, rfl, ht, hcs⟩ := hvalue.of_type
  rw [Step.store_value htop hcells]
  refine Keeps.map (fun fault h => Step.not_internal_assign h) ?_
  intro w hw
  have hbound : P.bound w.mutable := P.bound_assign ht hv hw
  exact (hs.withCells hcs).bind hbound

lemma Holds.storeDefault {n : String} (hs : P.Holds ⟨.name n :: .type :: ss, d, ns⟩ s) :
    P.Keeps ⟨ss, d, ns⟩ (Step.store false s) := by
  obtain ⟨_, hcells, hname⟩ := hs.cells.of_name
  obtain ⟨t, cs, rfl, ht, hcs⟩ := hname.of_type
  rw [Step.store_default hcells]
  refine Keeps.map (fun fault h => Step.not_internal_defaultFor h) ?_
  intro v hv
  have hbound : P.bound v.mutable := P.bound_default ht hv
  exact (hs.withCells hcs).bind hbound

lemma Holds.beginObject (hs : P.Holds ⟨ss, d, ns⟩ s) {t : DataType} (ht : P.type t) :
    P.Keeps ⟨.building :: ss, d, ns⟩ (Step.beginObject t s) := by
  cases hobject : t.isObject with
  | false =>
      rw [Step.beginObject_other hobject]
      rfl
  | true =>
      have hnil : P.building t [] := P.building_nil ht hobject
      rw [Step.beginObject_object hobject, Step.push_eq]
      split
      · exact Keeps.push (hs.withCells (.building ht hnil hs.cells))
      · rfl

lemma Holds.newObject (hs : P.Holds ⟨.type :: ss, d, ns⟩ s) :
    P.Keeps ⟨.building :: .type :: ss, d, ns⟩ (Step.newObject s) := by
  obtain ⟨t, cs, hcells, ht, -⟩ := hs.cells.of_type
  rw [Step.newObject_type hcells]
  exact hs.beginObject ht

lemma Holds.newField {n : String} (hs : P.Holds ⟨.name n :: .building :: ss, d, ns⟩ s) :
    P.Keeps ⟨.building :: .name n :: .building :: ss, d, ns⟩ (Step.newObject s) := by
  obtain ⟨_, hcells, hname⟩ := hs.cells.of_name
  obtain ⟨given, t, cs, rfl, ht, -, -⟩ := hname.of_building
  rw [Step.newObject_field hcells]
  refine Keeps.bind (fun fault h => Step.not_internal_fieldType h) ?_
  intro u hu
  have htype : P.type u := P.type_field ht hu
  exact hs.beginObject htype

lemma Holds.setField {n : String} {o : Slot} (ho : o.Operand)
    (hs : P.Holds ⟨o :: .name n :: .building :: ss, d, ns⟩ s) :
    P.Keeps ⟨.building :: ss, d, ns⟩ (Step.setField s) := by
  obtain ⟨top, v, _, htop, hv, hcells, hvalue⟩ := hs.cells.of_operand ho
  obtain ⟨_, rfl, hname⟩ := hvalue.of_name
  obtain ⟨given, t, cs, rfl, ht, hg, hcs⟩ := hname.of_building
  rw [Step.setField_eq htop hcells]
  refine Keeps.bind (fun fault h => Step.not_internal_addField h) ?_
  intro given' hgiven'
  have hadded : P.building t given' := P.building_add ht hg hv hgiven'
  exact Keeps.push (hs.withCells (.building ht hadded hcs))

lemma Holds.sealObject (hs : P.Holds ⟨.building :: ss, d, ns⟩ s) :
    P.Keeps ⟨.built :: ss, d, ns⟩ (Step.sealObject s) := by
  obtain ⟨given, t, cs, hcells, ht, hg, hcs⟩ := hs.cells.of_building
  rw [Step.sealObject_eq hcells]
  refine Keeps.map (fun fault h => Step.not_internal_checkSealed h) ?_
  intro _ hsealed
  have hbuilt : P.Matches (.built :: ss) (.object given :: .type t :: cs) :=
    .built (P.value_built ht hg hsealed) hcs
  rw [← hcells] at hbuilt
  exact hs.withCells hbuilt

lemma Holds.loadMember {n : String} {next : Option Instr} (hnext : Step.isCall next = false)
    (hs : P.Holds ⟨.name n :: .value :: ss, d, ns⟩ s) :
    P.Keeps ⟨.value :: ss, d, ns⟩ (Step.loadMember next s) := by
  obtain ⟨_, hcells, hname⟩ := hs.cells.of_name
  obtain ⟨v, cs, rfl, hv, hcs⟩ := hname.of_value
  rw [Step.loadMember_value hnext (.value v) hcells]
  refine Keeps.bind (fun fault h => P.not_internal_member hv h) ?_
  intro w hw
  have hmember : P.value w := P.value_member hv hw
  exact Keeps.push (hs.withCells (.value hmember hcs))

lemma Holds.loadMethod {n : String} {next : Option Instr} (hnext : Step.isCall next = true)
    (hs : P.Holds ⟨.name n :: .value :: ss, d, ns⟩ s) :
    P.Keeps ⟨.method :: ss, d, ns⟩ (Step.loadMember next s) := by
  obtain ⟨_, hcells, hname⟩ := hs.cells.of_name
  obtain ⟨v, cs, rfl, hv, hcs⟩ := hname.of_value
  rw [Step.loadMember_method hnext (.value v) hcells]
  exact Keeps.push (hs.withCells (.method hv hcs))

lemma Holds.invoke (hs : P.Holds ⟨ss, d, ns⟩ s) (callee : Value) {arguments : List Value}
    (hargs : ∀ v ∈ arguments, P.value v) :
    P.Keeps ⟨ss, d, ns⟩ (Step.invoke callee arguments s) := by
  rw [Step.invoke]
  split
  · split
    · rfl
    · refine ⟨hs.cells, hs.depth, hs.linked, hs.values, hs.types, ?_⟩
      intro c hc v hv
      rcases List.mem_append.mp hc with hc | hc
      · exact hs.arguments c hc v hv
      · rw [List.mem_singleton.mp hc] at hv
        exact hargs v hv
  · rfl

lemma Holds.callValue {k : Nat}
    (hs : P.Holds ⟨.value :: (List.replicate k .value ++ ss), d, ns⟩ s) :
    P.Keeps ⟨ss, d, ns⟩ (Step.call k s) := by
  obtain ⟨callee, _, hcells, -, hcallee⟩ := hs.cells.of_value
  obtain ⟨arguments, cs, rfl, hargs, rfl, hcs⟩ := hcallee.of_values
  rw [Step.call_value hcells]
  exact (hs.withCells hcs).invoke callee hargs

lemma Holds.callMethod {k : Nat}
    (hs : P.Holds ⟨.method :: (List.replicate k .value ++ ss), d, ns⟩ s) :
    P.Keeps ⟨ss, d, ns⟩ (Step.call k s) := by
  obtain ⟨n, receiver, _, hcells, hreceiver, hmethod⟩ := hs.cells.of_method
  obtain ⟨arguments, cs, rfl, hargs, rfl, hcs⟩ := hmethod.of_values
  rw [Step.call_method hcells]
  split
  · refine (hs.withCells hcs).invoke _ ?_
    intro v hv
    rcases List.mem_cons.mp hv with rfl | hv
    · exact hreceiver
    · exact hargs v hv
  · rfl

lemma Holds.openScope {n : String} (hs : P.Holds ⟨.name n :: ss, d, ns⟩ s) (span : Span) :
    P.Keeps ⟨ss, d + 1, ns⟩ (Step.openScope span s) := by
  obtain ⟨cs, hcells, hcs⟩ := hs.cells.of_name
  rw [Step.openScope_eq span hcells]
  split
  · rfl
  · refine ⟨hcs, congrArg (· + 1) hs.depth, CallStack.linked_push hs.linked _ _ _, ?_, ?_,
      hs.arguments⟩
    · intro f hf e he
      rcases List.mem_cons.mp hf with rfl | hf
      · cases he
      · exact hs.values f hf e he
    · intro f hf e he
      rcases List.mem_cons.mp hf with rfl | hf
      · cases he
      · exact hs.types f hf e he

lemma Holds.inner_eq (hs : P.Holds ⟨ss, d + 1, ns⟩ s) : ∃ f fs, s.frames.inner = f :: fs := by
  refine List.exists_cons_of_length_pos ?_
  have hlength : s.frames.inner.length = d + 1 := hs.depth
  omega

/-- The innermost scope is not the root, so it can be closed. -/
lemma Holds.closeScope (hs : P.Holds ⟨ss, d + 1, ns⟩ s) :
    P.Keeps ⟨ss, d, ns⟩ (Step.closeScope s) := by
  obtain ⟨f, fs, hinner⟩ := hs.inner_eq
  rw [Step.closeScope_eq hinner]
  obtain ⟨stack, ⟨inner, root⟩, maxFrames, calls⟩ := s
  cases hinner
  refine ⟨hs.cells, Nat.succ.inj hs.depth, CallStack.linked_of_cons hs.linked, ?_, ?_,
    hs.arguments⟩
  · intro g hg e he
    exact hs.values g (List.mem_cons_of_mem _ hg) e he
  · intro g hg e he
    exact hs.types g (List.mem_cons_of_mem _ hg) e he

end

end Discipline

/-! ## Steps and runs -/

/-- The shape that an instruction gives a name to, with the name. -/
def Instr.boundShape (i : Instr) (cells : List Cell) : List (String × Shape) :=
  match i, cells with
  | .bindType, .name n :: .shape fields :: _ => [(n, fields)]
  | _, _ => []

/-- The shapes that the run of a piece of code gives names to, with the names, in order. -/
def boundShapes (next : Option Instr) : Code → RunState → List (String × Shape)
  | [], _ => []
  | (i, span) :: rest, s =>
    i.boundShape s.stack.cells ++
      match i.execute (firstOf rest next) span s with
      | .ok ((), s) => boundShapes next rest s
      | .error _ => []

namespace Discipline

variable {P : Discipline} {next : Option Instr} {l r : Layout} {s : RunState}

/-- A step takes the layout to the next place, and keeps to the conditions or fails through the
program's fault. -/
theorem step {i : Instr} (hm : i.Moves next l r) (hs : P.Holds l s)
    (hshapes : ∀ e ∈ i.boundShape s.stack.cells, P.shape e.1 e.2) (span : Span) :
    P.Keeps r (i.execute next span s) := by
  cases hm with
  | pushName n => exact hs.pushed (.name n)
  | pushLiteral l => exact hs.pushed (.value (P.value_literal l))
  | loadValue => exact hs.loadValue next
  | resolveType ref isArray isOptional => exact hs.resolveType ref isArray isOptional
  | makeField n => exact hs.makeField n
  | makeShape => exact hs.makeShape
  | bindShape n =>
      refine hs.bindShape ?_
      intro fields cs hcells
      have hmem : (n, fields) ∈ Instr.bindType.boundShape s.stack.cells := by
        rw [hcells]
        exact List.mem_singleton_self _
      exact hshapes (n, fields) hmem
  | bindType => exact hs.bindNamed
  | storeValue n ho => exact hs.storeValue ho
  | storeDefault => exact hs.storeDefault
  | newObject => exact hs.newObject
  | newField => exact hs.newField
  | setField n ho => exact hs.setField ho
  | sealObject => exact hs.sealObject
  | loadMember hnext => exact hs.loadMember hnext
  | loadMethod hnext => exact hs.loadMethod hnext
  | callValue => exact hs.callValue
  | callMethod => exact hs.callMethod
  | openScope => exact hs.openScope span
  | closeScope => exact hs.closeScope

/-- The names that the layout says are given to shapes are those that are. -/
lemma defined_step {i : Instr} (hm : i.Moves next l r) (hs : P.Holds l s) :
    r.defined = l.defined ++ (i.boundShape s.stack.cells).map (·.1) := by
  cases hm with
  | bindShape n =>
      obtain ⟨_, hcells, hname⟩ := hs.cells.of_name
      obtain ⟨fields, cs, rfl, -, -⟩ := hname.of_shape
      rw [hcells]
      rfl
  | bindType n =>
      obtain ⟨_, hcells, hname⟩ := hs.cells.of_name
      obtain ⟨t, cs, rfl, -, -⟩ := hname.of_type
      rw [hcells]
      exact (List.append_nil _).symm
  | _ => exact (List.append_nil _).symm

/-- A run keeps to the conditions up to its end, or fails through the program's fault. -/
theorem run {code : Code} (hm : Code.Moves next code l r) (hs : P.Holds l s)
    (hshapes : ∀ e ∈ boundShapes next code s, P.shape e.1 e.2) :
    match runCode next code s with
    | (t, none) =>
      P.Holds r t ∧ r.defined = l.defined ++ (boundShapes next code s).map (·.1)
    | (_, some e) => e.cause.isInternal = false := by
  induction hm generalizing s with
  | nil l => exact ⟨hs, (List.append_nil _).symm⟩
  | @cons i span rest l m r hi hrest ih =>
      rw [boundShapes] at hshapes
      have hfirst : ∀ e ∈ i.boundShape s.stack.cells, P.shape e.1 e.2 := by
        intro e he
        exact hshapes e (List.mem_append_left _ he)
      have hstep := step hi hs hfirst span
      have hdefined := defined_step hi hs
      rw [runCode, boundShapes]
      cases hexec : i.execute (firstOf rest next) span s with
      | error fault =>
          rw [hexec] at hstep
          exact hstep
      | ok x =>
          rw [hexec] at hstep hshapes
          -- the shapes behind a step are those that the rest binds in the state after it
          have hlater : ∀ e ∈ TypedConfig.boundShapes next rest x.2, P.shape e.1 e.2 := by
            intro e he
            exact hshapes e (List.mem_append_right _ he)
          have hrun := ih hstep hlater
          dsimp only at hrun ⊢
          rw [List.map_append, ← List.append_assoc, ← hdefined]
          exact hrun

/-- A run begins with what the host has bound and nothing else. -/
lemma holds_hosted (P : Discipline) (limits : Limits) {host : List HostBinding}
    (hhost : ∀ b ∈ host, P.bound b.entry.2) : P.Holds {} (.hosted limits host) := by
  refine ⟨.nil, rfl, rfl, ?_, ?_, ?_⟩
  · intro f hf e he
    rw [List.mem_singleton.mp hf] at he
    obtain ⟨b, hb, rfl⟩ := mem_hostRoot he
    exact hhost b hb
  · intro f hf e he
    rw [List.mem_singleton.mp hf] at he
    cases he
  · intro c hc
    cases hc

end Discipline

/-! ## Programs -/

/-- The shapes that the run of a machine has given names to when it has executed `done`. -/
def Machine.boundShapes (m : Machine) (done rest : Code) : List (String × Shape) :=
  TypedConfig.boundShapes (firstOf rest none) done m.state

namespace Discipline

variable (P : Discipline) {b : Block} {c : Chunk} {limits : Limits} {host : List HostBinding}

/-- Every state that a program reaches meets the conditions. -/
theorem holds_of_reaches (h : b.compile = .ok c) (hhost : ∀ x ∈ host, P.bound x.entry.2)
    {done rest : Code} {s : RunState} (hreach : (c.machine limits host).Reaches done rest s)
    (hshapes : ∀ e ∈ (c.machine limits host).boundShapes done rest, P.shape e.1 e.2) :
    ∃ l : Layout, P.Holds l s ∧ Code.Moves none rest l { defined := b.objectNames } ∧
      l.defined = ((c.machine limits host).boundShapes done rest).map (·.1) := by
  obtain ⟨hcode, hrun⟩ := hreach
  have hmoves := Block.moves_of_compile h
  rw [← c.pending_machine limits host, hcode] at hmoves
  obtain ⟨l, hdone, hrest⟩ := hmoves.split
  rw [Machine.boundShapes, Chunk.state_machine] at hshapes ⊢
  rw [Chunk.state_machine] at hrun
  have hl := run hdone (P.holds_hosted limits hhost) hshapes
  rw [hrun] at hl
  exact ⟨l, hl.1, hrest, hl.2⟩

lemma Holds.isSettled {P : Discipline} {s : RunState} {ns : List String}
    (hs : P.Holds { defined := ns } s) : s.isSettled = true := by
  obtain ⟨⟨cells, limit⟩, ⟨inner, root⟩, maxFrames, calls⟩ := s
  cases hs.cells
  cases List.eq_nil_of_length_eq_zero hs.depth
  rfl

/-- A program that fails is to blame itself. -/
theorem failure_not_internal (h : b.compile = .ok c) (hhost : ∀ x ∈ host, P.bound x.entry.2)
    (hshapes : ∀ n fields, P.shape n fields) {e : RuntimeError}
    (he : (c.machine limits host).run.failure = some e) : e.cause.isInternal = false := by
  rw [Machine.failure_run (c.failure_machine limits host), Chunk.pending_machine,
    Chunk.state_machine] at he
  have hend := run (Block.moves_of_compile h) (P.holds_hosted limits hhost)
    fun e _ => hshapes e.1 e.2
  rw [runToEnd] at he
  rcases hrun : runCode none c.located (.hosted limits host) with ⟨t, _ | fault⟩
  · rw [hrun] at he hend
    dsimp only at he
    rw [if_pos hend.1.isSettled] at he
    cases he
  · rw [hrun] at he hend
    cases he
    exact hend

end Discipline

end TypedConfig
