import TypedConfig.Proofs.Evaluator

/-!
# The code of values

The code of a type or a value changes nothing but the cells.  It leaves what the evaluator gives on
top of them, or fails with the evaluator's error (`Yields`).  The proofs follow the tree, and one
rule for each kind of instruction does the stepping.

**New objects.** What a new object is checked against is on the stack as well: the declared type of
the binding it is for, or the object around it and the name of the field it is for.  `SchemaOn` says
where the machine finds it, and that this is the schema the evaluator is given.

**Limits.** A run that outgrows a limit is excused from everything, so an overflow is always
allowed.
-/

namespace TypedConfig

/-- What the evaluator sees of a state. -/
def RunState.world (s : RunState) : World := ⟨s.frames.scopes, s.calls⟩

/-! ## Code of values -/

section

variable {α β : Type} {next : Option Instr} {span : Span} {i : Instr} {code first rest : Code}
  {s : RunState} {cs : List Cell}

/-- From the state `s` the code gives what is wanted: it leaves the cells that `left` asks for, or
fails with the error that is wanted.  Nothing but the cells changes. -/
def Yields (next : Option Instr) (code : Code) (s : RunState) (want : Except RuntimeError α)
    (left : α → List Cell → Prop) : Prop :=
  match runCode next code s with
  | (t, none) => ∃ a cells, want = .ok a ∧ left a cells ∧ t = s.withCells cells
  | (t, some e) => t.world = s.world ∧ (e.cause.isOverflow = true ∨ want = .error e)

variable {want : Except RuntimeError α} {left : α → List Cell → Prop}

lemma Yields.nil {a : α} (h : left a s.stack.cells) : Yields next [] s (.ok a) left :=
  ⟨a, s.stack.cells, rfl, h, rfl⟩

/-- An instruction that succeeds is followed by the rest of the code. -/
lemma Yields.step
    (hexec : i.execute (firstOf rest next) span s = .ok ((), s.withCells cs))
    (k : Yields next rest (s.withCells cs) want left) :
    Yields next ((i, span) :: rest) s want left := by
  rw [Yields] at k ⊢
  rw [runCode, hexec]
  exact k

lemma Yields.fault {fault : RuntimeFault}
    (hexec : i.execute (firstOf rest next) span s = .error fault)
    (h : fault.isOverflow = true ∨ want = .error ⟨fault, span⟩) :
    Yields next ((i, span) :: rest) s want left := by
  rw [Yields]
  rw [runCode, hexec]
  exact ⟨rfl, h⟩

/-- An instruction that puts a cell on the stack. -/
lemma Yields.place {c : Cell}
    (hexec : i.execute (firstOf rest next) span s = Step.push c (s.withCells cs))
    (k : Yields next rest (s.withCells (c :: cs)) want left) :
    Yields next ((i, span) :: rest) s want left := by
  rw [Step.push_eq] at hexec
  split at hexec
  · exact Yields.step hexec k
  · exact Yields.fault hexec (Or.inl rfl)

/-- An instruction that only adds a cell. -/
lemma Yields.put {c : Cell} (hexec : i.execute (firstOf rest next) span s = Step.push c s)
    (k : Yields next rest (s.withCells (c :: s.stack.cells)) want left) :
    Yields next ((i, span) :: rest) s want left := by
  rw [← s.withCells_self] at hexec
  exact Yields.place hexec k

/-- An instruction that computes something and puts it on the stack as a cell. -/
lemma Yields.push {x : Except RuntimeFault β} {cell : β → Cell} {f : β → Except RuntimeError α}
    (hexec : i.execute (firstOf rest next) span s =
      x.bind fun b => Step.push (cell b) (s.withCells cs))
    (k : ∀ b, x = .ok b → Yields next rest (s.withCells (cell b :: cs)) (f b) left) :
    Yields next ((i, span) :: rest) s (located span x >>= f) left := by
  cases x with
  | error fault => exact Yields.fault hexec (Or.inr rfl)
  | ok b => exact Yields.place hexec (k b rfl)

/-- An instruction that only checks something. -/
lemma Yields.check {x : Except RuntimeFault β} {f : β → Except RuntimeError α}
    (hexec : i.execute (firstOf rest next) span s = x.map fun _ => ((), s))
    (k : ∀ b, x = .ok b → Yields next rest s (f b) left) :
    Yields next ((i, span) :: rest) s (located span x >>= f) left := by
  cases x with
  | error fault => exact Yields.fault hexec (Or.inr rfl)
  | ok b =>
      rw [← s.withCells_self] at hexec
      exact Yields.step hexec (k b rfl)

/-- Code in two pieces gives what the first piece gives and then what the second one makes of it. -/
lemma Yields.append {want : Except RuntimeError β} {mid : β → List Cell → Prop}
    {f : β → Except RuntimeError α} (h : Yields (firstOf rest next) first s want mid)
    (k : ∀ b cells, mid b cells → Yields next rest (s.withCells cells) (f b) left) :
    Yields next (first ++ rest) s (want >>= f) left := by
  rw [Yields] at h ⊢
  rw [runCode_append]
  rcases hrun : runCode (firstOf rest next) first s with ⟨t, _ | e⟩
  · rw [hrun] at h
    obtain ⟨b, cells, rfl, hmid, rfl⟩ := h
    exact k b cells hmid
  · rw [hrun] at h
    obtain ⟨hworld, hover | rfl⟩ := h
    -- an overflow excuses the whole code, and another error is the one that `want` has
    · exact ⟨hworld, Or.inl hover⟩
    · exact ⟨hworld, Or.inr rfl⟩

/-- What is left over may be described in another way. -/
lemma Yields.map {mid : β → List Cell → Prop} {want : Except RuntimeError β} {f : β → α}
    (h : Yields next code s want mid) (k : ∀ b cells, mid b cells → left (f b) cells) :
    Yields next code s (want >>= fun b => pure (f b)) left := by
  rw [← List.append_nil code]
  refine Yields.append h ?_
  intro b cells hmid
  exact Yields.nil (k b cells hmid)

end

/-! ## Types -/

lemma TypeExpr.yields_eval {t : TypeExpr} {code : Code} (h : t.compile = .ok code)
    {next : Option Instr} {s : RunState} (hs : s.frames.Linked) :
    Yields next code s (t.eval s.frames.scopes)
      fun u cells => cells = .type u :: s.stack.cells := by
  obtain rfl := compile_ok h
  refine Yields.put rfl ?_
  have hresolve := Step.resolveType_eq (s := s.withCells (.name t.name :: s.stack.cells))
    (.ofName t.name) t.isArray t.isOptional rfl
  rw [TypeExpr.eval, ← bind_pure (located _ _),
    ← funext (CallStack.getType?_eq_type? hs)]
  refine Yields.push hresolve ?_
  intro u _
  exact Yields.nil rfl

/-- The fields of a shape come to lie on the stack with the last one on top. -/
lemma FieldDecl.yields_evalAll {fs : List FieldDecl} {code : Code}
    (h : compileAll fs = .ok code) {next : Option Instr} {s : RunState} (hs : s.frames.Linked) :
    Yields next code s (evalAll s.frames.scopes fs) fun shape cells =>
      shape.length = fs.length ∧
        cells = (shape.reverse.map fun f => Cell.field f.1 f.2) ++ s.stack.cells := by
  induction fs generalizing code s with
  | nil =>
      cases h
      exact Yields.nil ⟨rfl, rfl⟩
  | cons f fs ih =>
      obtain ⟨type, rest, htype, hrest, rfl⟩ := compileAll_cons_ok h
      refine Yields.append (f.type.yields_eval htype hs) ?_
      rintro t cells rfl
      refine Yields.place (Step.makeField_eq f.name rfl) ?_
      refine Yields.map (ih hrest hs) ?_
      rintro shape cells ⟨hlength, rfl⟩
      refine ⟨?_, ?_⟩
      · rw [List.length_cons, hlength, List.length_cons]
      · simp

/-- A type definition leaves the shape of the new type, or the type itself. -/
lemma TypeExpr.yields_evalDefinition {t : TypeExpr} {code : Code}
    (h : t.compileDefinition = .ok code) {next : Option Instr} {s : RunState}
    (hs : s.frames.Linked) (name : String) :
    Yields next code s (t.evalDefinition s.frames.scopes name) fun u cells =>
      cells = .type u :: s.stack.cells ∨
        ∃ shape, u = .object name shape ∧ cells = .shape shape :: s.stack.cells := by
  rcases compileDefinition_ok h with ⟨hobject, htype⟩ | ⟨hobject, fields, hfields, rfl⟩
  · rw [evalDefinition, hobject, ← bind_pure (t.eval _)]
    refine Yields.map (f := id) (t.yields_eval htype hs) ?_
    intro u cells hcells
    exact Or.inl hcells
  · rw [evalDefinition, hobject]
    refine Yields.append (FieldDecl.yields_evalAll hfields hs) ?_
    rintro shape cells ⟨hlength, rfl⟩
    have hmake : Step.makeShape shape.length
      (s.withCells ((shape.reverse.map fun f => Cell.field f.1 f.2) ++ s.stack.cells)) = _ :=
        Step.makeShape_eq rfl
    rw [hlength] at hmake
    cases hrepeated : Step.firstRepeated [] (shape.map (·.1)) with
    | some n =>
        rw [hrepeated] at hmake
        exact Yields.fault hmake (Or.inr rfl)
    | none =>
        rw [hrepeated] at hmake
        exact Yields.place hmake (Yields.nil (Or.inr ⟨shape, rfl, rfl⟩))

/-! ## Values -/

/-- A name, a literal or a member leaves one cell. -/
lemma Expr.yields_evalPath {e : Expr} {code : Code} (h : e.compile false = .ok code)
    {next : Option Instr} (hnext : Step.isCall next = false) {s : RunState}
    (hs : s.frames.Linked) :
    Yields next code s (e.evalPath s.frames.scopes)
      fun v cells => cells = .value v :: s.stack.cells := by
  match e, h with
  | .name n span, h =>
      cases h
      refine Yields.put rfl ?_
      have hload := Step.loadValue_eq (s := s.withCells (.name n :: s.stack.cells)) next rfl
      rw [hnext, RunState.frames_withCells, CallStack.get?_eq_value? hs] at hload
      rw [evalPath]
      cases hget : s.frames.scopes.value? n with
      | none =>
          rw [hget] at hload
          exact Yields.fault hload (Or.inr rfl)
      | some v =>
          rw [hget] at hload
          exact Yields.place hload (Yields.nil rfl)
  | .literal l span, h =>
      cases h
      exact Yields.put rfl (Yields.nil rfl)
  | .member value n span, h =>
      obtain ⟨receiver, hreceiver, rfl⟩ := compile_member_ok h
      rw [evalPath]
      refine Yields.append (yields_evalPath hreceiver rfl hs) ?_
      rintro v cells rfl
      refine Yields.put rfl ?_
      rw [← bind_pure (located _ _)]
      refine Yields.push (Step.loadMember_value hnext (.value v) rfl) ?_
      intro w _
      exact Yields.nil rfl

/-- Where the machine finds the type of a new object: on top, or, for a field, as the type that the
field has in the object below its name. -/
inductive SchemaOn : List Cell → Except RuntimeFault DataType → Prop
  | declared (t : DataType) (cs : List Cell) : SchemaOn (.type t :: cs) (.ok t)
  | field (n : String) (fields : Bindings Value) (t : DataType) (cs : List Cell) :
      SchemaOn (.name n :: .object fields :: .type t :: cs) (Step.fieldType t n)

lemma SchemaOn.newObject_eq {s : RunState} {schema : Except RuntimeFault DataType}
    (h : SchemaOn s.stack.cells schema) :
    Step.newObject s = schema.bind fun t => Step.beginObject t s := by
  generalize hcells : s.stack.cells = cells at h
  cases h with
  | declared t cs => exact Step.newObject_type hcells
  | field n fields t cs => exact Step.newObject_field hcells

/-- A new object is begun if the type is one of objects. -/
lemma Yields.begin {α : Type} {next : Option Instr} {span : Span} {rest : Code} {s : RunState}
    {schema : Except RuntimeFault DataType} {f : DataType → Except RuntimeError α}
    {left : α → List Cell → Prop} (hs : SchemaOn s.stack.cells schema)
    (k : ∀ t, Yields next rest (s.withCells (.object [] :: .type t :: s.stack.cells)) (f t) left) :
    Yields next ((.newObject, span) :: rest) s
      (located span schema >>= fun t =>
        if !t.isObject then .error ⟨.typeMismatch t.fullName "object", span⟩ else f t) left := by
  have hexec : Instr.newObject.execute (firstOf rest next) span s =
      schema.bind fun t => Step.beginObject t s := hs.newObject_eq
  cases schema with
  | error fault => exact Yields.fault hexec (Or.inr rfl)
  | ok t =>
      replace hexec : Instr.newObject.execute (firstOf rest next) span s =
        Step.beginObject t s := hexec
      show Yields next _ s
        (if !t.isObject then .error ⟨.typeMismatch t.fullName "object", span⟩ else f t) left
      cases hobject : t.isObject with
      | false =>
          rw [Step.beginObject_other hobject] at hexec
          exact Yields.fault hexec (Or.inr rfl)
      | true =>
          rw [Step.beginObject_object hobject, Step.push_eq] at hexec
          split at hexec
          · exact Yields.place hexec (k t)
          · exact Yields.fault hexec (Or.inl rfl)

/-- A value that is not a new object is compiled and evaluated like a path. -/
lemma Expr.yields_of_path {e : Expr} {s : RunState} {schema : Except RuntimeFault DataType}
    (hcompile : e.compile true = e.compile false)
    (heval : e.evalAs s.frames.scopes schema = e.evalPath s.frames.scopes) {code : Code}
    (h : e.compile true = .ok code) {next : Option Instr} (hnext : Step.isCall next = false)
    (hs : s.frames.Linked) :
    Yields next code s (e.evalAs s.frames.scopes schema)
      fun v cells => ∃ top, IsOperand top v ∧ cells = top ++ s.stack.cells := by
  rw [heval, ← bind_pure (e.evalPath _)]
  refine Yields.map (f := id) (e.yields_evalPath (hcompile ▸ h) hnext hs) ?_
  rintro v cells rfl
  exact ⟨[.value v], .value v, rfl⟩

mutual

/-- Where a type is waiting for it, a value leaves one cell, or an object on top of its type. -/
lemma Expr.yields_evalAs (e : Expr) {code : Code} (h : e.compile true = .ok code)
    {next : Option Instr} (hnext : Step.isCall next = false) {s : RunState}
    {schema : Except RuntimeFault DataType} (hs : s.frames.Linked)
    (hschema : SchemaOn s.stack.cells schema) :
    Yields next code s (e.evalAs s.frames.scopes schema)
      fun v cells => ∃ top, IsOperand top v ∧ cells = top ++ s.stack.cells := by
  match e, h with
  | .object fields span, h =>
      obtain ⟨-, inits, hinits, rfl⟩ := Expr.compile_object_ok h
      rw [Expr.evalAs]
      refine Yields.begin hschema ?_
      intro t
      refine Yields.append (FieldInit.yields_evalAll fields hinits rfl hs rfl) ?_
      rintro given cells rfl
      refine Yields.check (Step.sealObject_eq rfl) ?_
      intro _ _
      exact Yields.nil ⟨_, .object t given, rfl⟩
  | .name _ _, h => exact Expr.yields_of_path rfl rfl h hnext hs
  | .literal _ _, h => exact Expr.yields_of_path rfl rfl h hnext hs
  | .member _ _ _, h =>
      exact Expr.yields_of_path (by rw [Expr.compile, Expr.compile]) (by simp [Expr.evalAs]) h
        hnext hs
  | .call _ _ _, h => cases h

/-- The fields of a new object are added to the object on top. -/
lemma FieldInit.yields_evalAll (fs : List FieldInit) {code : Code}
    (h : FieldInit.compileAll fs = .ok code) {next : Option Instr}
    (hnext : Step.isCall next = false) {s : RunState} {t : DataType} {given : Bindings Value}
    {cs : List Cell} (hs : s.frames.Linked)
    (hcells : s.stack.cells = .object given :: .type t :: cs) :
    Yields next code s (FieldInit.evalAll s.frames.scopes t given fs)
      fun given cells => cells = .object given :: .type t :: cs := by
  match fs, h with
  | [], h =>
      cases h
      exact Yields.nil hcells
  | ⟨name, value, span⟩ :: fs, h =>
      obtain ⟨init, rest, hinit, hrest, rfl⟩ := FieldInit.compileAll_cons_ok h
      rw [FieldInit.evalAll, List.append_assoc, List.cons_append]
      refine Yields.put rfl ?_
      have hschema : SchemaOn (.name name :: s.stack.cells) (Step.fieldType t name) := by
        rw [hcells]
        exact .field name given t cs
      refine Yields.append (value.yields_evalAs hinit rfl hs hschema) ?_
      rintro v cells ⟨top, hv, rfl⟩
      have htop : (s.withCells (top ++ .name name :: s.stack.cells)).stack.cells =
          top ++ .name name :: .object given :: .type t :: cs := by
        rw [RunState.cells_withCells, hcells]
      refine Yields.push (Step.setField_eq hv htop) ?_
      intro given' _
      exact FieldInit.yields_evalAll fs hrest hnext hs rfl

end

/-! ## Calls -/

/-- The arguments come to lie on the stack with the last one on top. -/
lemma Expr.yields_evalArguments {es : List Expr} {code : Code}
    (h : compileArguments es = .ok code) {next : Option Instr}
    (hnext : Step.isCall next = false) {s : RunState} (hs : s.frames.Linked) :
    Yields next code s (evalArguments s.frames.scopes es) fun values cells =>
      values.length = es.length ∧ cells = values.reverse.map .value ++ s.stack.cells := by
  induction es generalizing code s with
  | nil =>
      cases h
      exact Yields.nil ⟨rfl, rfl⟩
  | cons e es ih =>
      obtain ⟨argument, rest, hargument, hrest, rfl⟩ := compileArguments_cons_ok h
      have hfirst := firstOf_compileArguments hrest hnext
      refine Yields.append (e.yields_evalPath hargument hfirst hs) ?_
      rintro v cells rfl
      refine Yields.map (ih hrest hs) ?_
      rintro values cells ⟨hlength, rfl⟩
      refine ⟨?_, ?_⟩
      · rw [List.length_cons, hlength, List.length_cons]
      · simp

end TypedConfig
