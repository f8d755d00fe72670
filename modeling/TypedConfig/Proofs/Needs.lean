import TypedConfig.Proofs.FailedRuns
import TypedConfig.Proofs.Limits

/-!
# The space that a program needs

How many cells and how many frames a run takes can be read off the tree of the program
(`Block.cells`, `Block.frames`).  Under limits that allow so many the run of a program that makes no
mistake succeeds, and under all others it overflows (`Block.succeeds_iff_room`).

**Counting.** The code of a type or a value begins on top of some cells.  The functions below count
what comes on top of these, and only the arguments of a call, which pile up, are counted with those
below them.  A statement begins with an empty stack.

**Exact.** What is counted is what the run takes (`Takes`), and not only a bound for it: the proofs
go through the code in the order in which the machine does and take the maximum of what there is
behind each instruction.  What there is between two pieces of code is known from the evaluator.
-/

namespace TypedConfig

/-! ## Counting on the tree -/

/-- The most cells for a type definition: the fields of a shape lie side by side. -/
def TypeExpr.cells (t : TypeExpr) : Nat := if t.isObject then max t.fields.length 2 else 2

mutual

/-- The most cells for a value. -/
def Expr.cells : Expr → Nat
  | .name _ _ | .literal _ _ => 1
  | .member value _ _ => max 2 value.cells
  -- a field lies on top of its name, the object and the type of the object
  | .object fields _ => if fields.isEmpty then 2 else 3 + FieldInit.cells fields
  | .call _ _ _ => 0

/-- The most cells for the values of fields. -/
def FieldInit.cells : List FieldInit → Nat
  | [] => 0
  | ⟨_, value, _⟩ :: fs => max value.cells (FieldInit.cells fs)

end

/-- The most cells for the arguments of a call, given how many there are before them. -/
def Expr.argumentCells (before : Nat) : List Expr → Nat
  | [] => 0
  | e :: es => max (before + e.cells) (argumentCells (before + 1) es)

/-- The most cells for a binding: the type, the value, and at the end the name. -/
def Expr.boundCells : Option Expr → Nat
  | none => 2
  | some (.object fields s) => max 4 (1 + (Expr.object fields s).cells)
  | some _ => 3

mutual

/-- The most cells for a statement. -/
def Stmt.cells : Stmt → Nat
  | .scope _ body _ _ => max 1 (cellsAll body)
  | .typedef _ type _ => type.cells
  | .binding _ _ value _ => Expr.boundCells value
  | .effect (.call callee arguments _) _ =>
    max (arguments.length + callee.cells) (Expr.argumentCells 0 arguments)
  | .effect _ _ => 0

/-- The most cells for statements. -/
def Stmt.cellsAll : List Stmt → Nat
  | [] => 0
  | s :: ss => max s.cells (cellsAll ss)

end

mutual

/-- The most frames for a statement, given how many there are where it stands. -/
def Stmt.frames (depth : Nat) : Stmt → Nat
  | .scope _ body _ _ => max (depth + 1) (framesAll (depth + 1) body)
  | .effect (.call ..) _ => depth + 1
  | .typedef .. | .binding .. | .effect .. => 0

/-- The most frames for statements. -/
def Stmt.framesAll (depth : Nat) : List Stmt → Nat
  | [] => 0
  | s :: ss => max (s.frames depth) (framesAll depth ss)

end

/-- The cells that a program needs. -/
def Block.cells (b : Block) : Nat := Stmt.cellsAll b.statements

/-- The frames that a program needs, given how many there are before it. -/
def Block.frames (b : Block) (depth : Nat) : Nat := Stmt.framesAll depth b.statements

/-! ## Counting on the code -/

/-- Whether a piece of code takes what is said if it is executed to the end: with `cells` and
`frames` as the most cells and frames before it, `cells'` and `frames'` are the most behind it. -/
def Needs (next : Option Instr) (code : Code) (s : RunState) (cells frames cells' frames' : Nat) :
    Prop :=
  ∀ t, runCode next code s = (t, none) → Takes next code s t cells frames cells' frames'

namespace Needs

variable {α β : Type} {next : Option Instr} {i : Instr} {span : Span} {first rest : Code}
  {s t : RunState} {cs : List Cell} {cells frames cells' frames' cells'' frames'' : Nat}

lemma of_eq (h : Needs next rest s cells frames cells' frames') (hcells : cells' = cells'')
    (hframes : frames' = frames'') : Needs next rest s cells frames cells'' frames'' := by
  subst hcells hframes
  exact h

lemma nil (hcells : cells = cells') (hframes : frames = frames') :
    Needs next [] s cells frames cells' frames' := by
  subst hcells hframes
  intro t h
  cases h
  exact .nil s cells frames

/-- An instruction that fails keeps its code from being executed to the end. -/
lemma fault {fault : RuntimeFault}
    (hexec : i.execute (firstOf rest next) span s = .error fault) :
    Needs next ((i, span) :: rest) s cells frames cells' frames' := by
  intro t h
  rw [runCode, hexec] at h
  cases h

/-- Behind an instruction there are as many cells as it leaves. -/
lemma step (hexec : i.execute (firstOf rest next) span s = .ok ((), t))
    (k : Needs next rest t (max cells t.stack.size) (max frames (i.demand s.frames))
      cells' frames') :
    Needs next ((i, span) :: rest) s cells frames cells' frames' := by
  intro u h
  rw [runCode, hexec] at h
  exact .cons hexec (k u h)

/-- Most instructions ask for no frame. -/
lemma frameless (hi : i.demand s.frames = 0)
    (hexec : i.execute (firstOf rest next) span s = .ok ((), t))
    (k : Needs next rest t (max cells t.stack.size) frames cells' frames') :
    Needs next ((i, span) :: rest) s cells frames cells' frames' := by
  refine step hexec ?_
  rw [hi, Nat.max_zero]
  exact k

/-- An instruction that puts a cell on the stack. -/
lemma place {c : Cell} (hi : i.demand s.frames = 0)
    (hexec : i.execute (firstOf rest next) span s = Step.push c (s.withCells cs))
    (k : Needs next rest (s.withCells (c :: cs)) (max cells (cs.length + 1)) frames
      cells' frames') :
    Needs next ((i, span) :: rest) s cells frames cells' frames' := by
  rw [Step.push_eq] at hexec
  split at hexec
  · exact frameless hi hexec k
  · exact fault hexec

/-- An instruction that only adds a cell. -/
lemma put {c : Cell} (hi : i.demand s.frames = 0)
    (hexec : i.execute (firstOf rest next) span s = Step.push c s)
    (k : Needs next rest (s.withCells (c :: s.stack.cells)) (max cells (s.stack.size + 1)) frames
      cells' frames') :
    Needs next ((i, span) :: rest) s cells frames cells' frames' := by
  rw [← s.withCells_self] at hexec
  exact place hi hexec k

/-- An instruction that computes something and puts it on the stack as a cell. -/
lemma push {x : Except RuntimeFault α} {cell : α → Cell} (hi : i.demand s.frames = 0)
    (hexec : i.execute (firstOf rest next) span s =
      x.bind fun a => Step.push (cell a) (s.withCells cs))
    (k : ∀ a, Needs next rest (s.withCells (cell a :: cs)) (max cells (cs.length + 1)) frames
      cells' frames') :
    Needs next ((i, span) :: rest) s cells frames cells' frames' := by
  cases x with
  | error fault => exact Needs.fault hexec
  | ok a => exact place hi hexec (k a)

/-- An instruction that computes something and changes the state. -/
lemma change {x : Except RuntimeFault α} {t : α → RunState} (hi : i.demand s.frames = 0)
    (hexec : i.execute (firstOf rest next) span s = x.map fun a => ((), t a))
    (k : ∀ a, Needs next rest (t a) (max cells (t a).stack.size) frames cells' frames') :
    Needs next ((i, span) :: rest) s cells frames cells' frames' := by
  cases x with
  | error fault => exact Needs.fault hexec
  | ok a => exact frameless hi hexec (k a)

/-- A call asks for a frame. -/
lemma invoke {count : Nat} {v : Value} {arguments : List Value}
    (hexec : (Instr.call count).execute (firstOf [] next) span s =
      Step.invoke v arguments (s.withCells cs))
    (hcells : max cells cs.length = cells') (hframes : max frames (s.frames.depth + 1) = frames') :
    Needs next [(.call count, span)] s cells frames cells' frames' := by
  rw [Step.invoke] at hexec
  cases hpayload : v.payload with
  | function f =>
      rw [hpayload] at hexec
      dsimp only at hexec
      split at hexec
      · exact fault hexec
      · exact step hexec (nil hcells hframes)
  | _ =>
      rw [hpayload] at hexec
      exact fault hexec

/-- A new object takes two cells. -/
lemma begin {schema : Except RuntimeFault DataType} (hs : SchemaOn s.stack.cells schema)
    (k : ∀ t, Needs next rest (s.withCells (.object [] :: .type t :: s.stack.cells))
      (max cells (s.stack.size + 2)) frames cells' frames') :
    Needs next ((.newObject, span) :: rest) s cells frames cells' frames' := by
  have hexec : Instr.newObject.execute (firstOf rest next) span s =
      schema.bind fun t => Step.beginObject t s := hs.newObject_eq
  cases schema with
  | error fault => exact Needs.fault hexec
  | ok t =>
      replace hexec : Instr.newObject.execute (firstOf rest next) span s =
        Step.beginObject t s := hexec
      cases hobject : t.isObject with
      | false =>
          rw [Step.beginObject_other hobject] at hexec
          exact fault hexec
      | true =>
          rw [Step.beginObject_object hobject, Step.push_eq] at hexec
          split at hexec
          · exact place rfl hexec (k t)
          · exact fault hexec

/-- The second piece of code goes on counting where the first one ends. -/
lemma append (h : Needs (firstOf rest next) first s cells frames cells' frames')
    (k : ∀ t, runCode (firstOf rest next) first s = (t, none) →
      Needs next rest t cells' frames' cells'' frames'') :
    Needs next (first ++ rest) s cells frames cells'' frames'' := by
  intro u hrun
  rw [runCode_append] at hrun
  rcases hfirst : runCode (firstOf rest next) first s with ⟨t, _ | e⟩
  · rw [hfirst] at hrun
    exact (h t hfirst).append (k t hfirst u hrun)
  · rw [hfirst] at hrun
    cases hrun

/-- The code of a value leaves the cells that the evaluator says. -/
lemma after {want : Except RuntimeError α} {left : α → List Cell → Prop}
    (h : Needs (firstOf rest next) first s cells frames cells' frames')
    (hyields : Yields (firstOf rest next) first s want left)
    (k : ∀ a cs, left a cs → Needs next rest (s.withCells cs) cells' frames' cells'' frames'') :
    Needs next (first ++ rest) s cells frames cells'' frames'' := by
  refine append h fun t hrun => ?_
  rw [Yields, hrun] at hyields
  obtain ⟨a, cs, -, hleft, rfl⟩ := hyields
  exact k a cs hleft

end Needs

/-! ## Types -/

section

variable {next : Option Instr} {code : Code} {s : RunState} {cells frames : Nat}

/-- The number of cells as the rules have it. -/
@[simp] lemma RunState.length_cells (s : RunState) : s.stack.cells.length = s.stack.size := rfl

@[simp] lemma RunState.size_withCells (s : RunState) (cs : List Cell) :
    (s.withCells cs).stack.size = cs.length := rfl

@[simp] lemma RunState.size_updateFrame (s : RunState) (f : Frame → Frame) :
    (s.updateFrame f).stack.size = s.stack.size := rfl

lemma TypeExpr.needs_of_compile {t : TypeExpr} (h : t.compile = .ok code) :
    Needs next code s cells frames (max cells (s.stack.size + 1)) frames := by
  obtain rfl := compile_ok h
  refine Needs.put rfl rfl ?_
  have hresolve := Step.resolveType_eq (s := s.withCells (.name t.name :: s.stack.cells))
    (.ofName t.name) t.isArray t.isOptional rfl
  refine Needs.push rfl hresolve fun u => Needs.nil ?_ rfl
  simp

/-- The fields of a shape come to lie on the stack one by one. -/
lemma FieldDecl.needs_of_compileAll {fs : List FieldDecl} (h : compileAll fs = .ok code)
    (hs : s.frames.Linked) (hsize : s.stack.size ≤ cells) :
    Needs next code s cells frames (max cells (s.stack.size + fs.length)) frames := by
  induction fs generalizing code s cells with
  | nil =>
      cases h
      exact Needs.nil (Nat.max_eq_left hsize).symm rfl
  | cons f fs ih =>
      obtain ⟨type, rest, htype, hrest, rfl⟩ := compileAll_cons_ok h
      refine Needs.after (f.type.needs_of_compile htype) (f.type.yields_eval htype hs) ?_
      rintro t cs rfl
      refine Needs.place rfl (Step.makeField_eq f.name rfl) ?_
      refine Needs.of_eq (ih hrest hs (Nat.le_max_right _ _)) ?_ rfl
      · simp only [RunState.size_withCells, RunState.length_cells, List.length_cons]
        omega

/-- A statement begins with an empty stack, and so it ends. -/
lemma RunState.size_of_nil (h : s.stack.cells = []) : s.stack.size = 0 :=
  congrArg List.length h

/-- A type definition, with the instructions behind it. -/
lemma TypeExpr.needs_of_compileDefinition {t : TypeExpr} (h : t.compileDefinition = .ok code)
    (name : String) (span : Span) (hs : s.frames.Linked) (hcells : s.stack.cells = []) :
    Needs next (code ++ [(.pushName name, span), (.bindType, span)]) s cells frames
      (max cells t.cells) frames := by
  have hsize := RunState.size_of_nil hcells
  rw [TypeExpr.cells]
  rcases compileDefinition_ok h with ⟨hobject, htype⟩ | ⟨hobject, fields, hfields, rfl⟩
  · rw [hobject]
    refine Needs.after (t.needs_of_compile htype) (t.yields_eval htype hs) ?_
    rintro u cs rfl
    refine Needs.put rfl rfl ?_
    refine Needs.frameless rfl (Step.bindType_type rfl) (Needs.nil ?_ rfl)
    simp [hsize]
  · rw [hobject, List.append_assoc]
    refine Needs.after (FieldDecl.needs_of_compileAll hfields hs (hsize ▸ Nat.zero_le _))
      (FieldDecl.yields_evalAll hfields hs) ?_
    rintro shape cs ⟨hlength, rfl⟩
    have hmake : Step.makeShape shape.length
      (s.withCells ((shape.reverse.map fun f => Cell.field f.1 f.2) ++ s.stack.cells)) = _ :=
        Step.makeShape_eq rfl
    rw [hlength] at hmake
    cases hrepeated : Step.firstRepeated [] (shape.map (·.1)) with
    | some n =>
        rw [hrepeated] at hmake
        exact Needs.fault hmake
    | none =>
        rw [hrepeated] at hmake
        refine Needs.place rfl hmake (Needs.put rfl rfl ?_)
        refine Needs.frameless rfl (Step.bindType_shape rfl) (Needs.nil ?_ rfl)
        simp [hsize]

end

/-! ## Values -/

/-- A name, a literal or a member. -/
lemma Expr.needs_of_path {e : Expr} {code : Code} (h : e.compile false = .ok code)
    {next : Option Instr} (hnext : Step.isCall next = false) {s : RunState}
    (hs : s.frames.Linked) {cells frames : Nat} :
    Needs next code s cells frames (max cells (s.stack.size + e.cells)) frames := by
  match e, h with
  | .name n span, h =>
      cases h
      refine Needs.put rfl rfl ?_
      have hload := Step.loadValue_eq (s := s.withCells (.name n :: s.stack.cells)) next rfl
      rw [RunState.frames_withCells] at hload
      cases hget : s.frames.get? n with
      | none =>
          rw [hget] at hload
          exact Needs.fault hload
      | some v =>
          rw [hget] at hload
          refine Needs.place rfl hload (Needs.nil ?_ rfl)
          simp [Expr.cells]
  | .literal l span, h =>
      cases h
      exact Needs.put rfl rfl (Needs.nil rfl rfl)
  | .member value n span, h =>
      obtain ⟨receiver, hreceiver, rfl⟩ := compile_member_ok h
      refine Needs.after (needs_of_path hreceiver rfl hs)
        (Expr.yields_evalPath hreceiver rfl hs) ?_
      rintro v cs rfl
      refine Needs.put rfl rfl ?_
      refine Needs.push rfl (Step.loadMember_value hnext (.value v) rfl) fun w => Needs.nil ?_ rfl
      simp [Expr.cells]
      omega

mutual

/-- A value, where a type is waiting for it. -/
lemma Expr.needs_of_compile (e : Expr) {code : Code} (h : e.compile true = .ok code)
    {next : Option Instr} (hnext : Step.isCall next = false) {s : RunState}
    {schema : Except RuntimeFault DataType} (hs : s.frames.Linked)
    (hschema : SchemaOn s.stack.cells schema) {cells frames : Nat} :
    Needs next code s cells frames (max cells (s.stack.size + e.cells)) frames := by
  match e, h with
  | .object fields span, h =>
      obtain ⟨-, inits, hinits, rfl⟩ := Expr.compile_object_ok h
      rw [Expr.cells]
      refine Needs.begin hschema ?_
      intro t
      have hstart : (s.withCells (.object [] :: .type t :: s.stack.cells)).frames.Linked := hs
      refine Needs.after (FieldInit.needs_of_compileAll fields hinits rfl hstart rfl)
        (FieldInit.yields_evalAll fields hinits rfl hstart rfl) ?_
      rintro given cs rfl
      refine Needs.change rfl (Step.sealObject_eq rfl) fun _ => Needs.nil ?_ rfl
      cases fields <;> simp
      omega
  | .name n span, h => exact Expr.needs_of_path (e := .name n span) h hnext hs
  | .literal l span, h => exact Expr.needs_of_path (e := .literal l span) h hnext hs
  | .member value n span, h =>
      refine Expr.needs_of_path (e := .member value n span) ?_ hnext hs
      rwa [Expr.compile] at h ⊢
  | .call _ _ _, h => cases h

/-- The fields of a new object.  Between two of them there are as many cells as before the first. -/
lemma FieldInit.needs_of_compileAll (fs : List FieldInit) {code : Code}
    (h : FieldInit.compileAll fs = .ok code) {next : Option Instr}
    (hnext : Step.isCall next = false) {s : RunState} {t : DataType} {given : Bindings Value}
    {cs : List Cell} (hs : s.frames.Linked)
    (hcells : s.stack.cells = .object given :: .type t :: cs) {cells frames : Nat} :
    Needs next code s cells frames
      (max cells (if fs.isEmpty then 0 else s.stack.size + 1 + FieldInit.cells fs)) frames := by
  match fs, h with
  | [], h =>
      cases h
      exact Needs.nil (Nat.max_zero cells).symm rfl
  | ⟨name, value, span⟩ :: fs, h =>
      obtain ⟨init, rest, hinit, hrest, rfl⟩ := FieldInit.compileAll_cons_ok h
      rw [List.append_assoc, List.cons_append]
      refine Needs.put rfl rfl ?_
      have hstart : (s.withCells (.name name :: s.stack.cells)).frames.Linked := hs
      have hschema : SchemaOn (s.withCells (.name name :: s.stack.cells)).stack.cells
          (Step.fieldType t name) := by
        rw [RunState.cells_withCells, hcells]
        exact .field name given t cs
      refine Needs.after (value.needs_of_compile hinit rfl hstart hschema)
        (value.yields_evalAs hinit rfl hstart hschema) ?_
      rintro v _ ⟨top, hv, rfl⟩
      have htop : (s.withCells (top ++ .name name :: s.stack.cells)).stack.cells =
          top ++ .name name :: .object given :: .type t :: cs := by
        rw [RunState.cells_withCells, hcells]
      refine Needs.push rfl (Step.setField_eq hv htop) ?_
      intro given'
      have hend : (s.withCells (.object given' :: .type t :: cs)).frames.Linked := hs
      refine Needs.of_eq (FieldInit.needs_of_compileAll fs hrest hnext hend rfl) ?_ rfl
      have hsize : s.stack.size = cs.length + 2 := congrArg List.length hcells
      rw [FieldInit.cells]
      cases fs <;> simp [FieldInit.cells, hsize]
      all_goals omega

end

/-! ## Calls -/

/-- The arguments pile up. -/
lemma Expr.needs_of_compileArguments {es : List Expr} {code : Code}
    (h : compileArguments es = .ok code) {next : Option Instr}
    (hnext : Step.isCall next = false) {s : RunState} (hs : s.frames.Linked)
    {cells frames : Nat} :
    Needs next code s cells frames (max cells (argumentCells s.stack.size es)) frames := by
  induction es generalizing code s cells with
  | nil =>
      cases h
      exact Needs.nil (Nat.max_zero cells).symm rfl
  | cons e es ih =>
      obtain ⟨argument, rest, hargument, hrest, rfl⟩ := compileArguments_cons_ok h
      have hfirst := firstOf_compileArguments hrest hnext
      refine Needs.after (needs_of_path hargument hfirst hs)
        (e.yields_evalPath hargument hfirst hs) ?_
      rintro v cs rfl
      have hstart : (s.withCells (.value v :: s.stack.cells)).frames.Linked := hs
      refine Needs.of_eq (ih hrest hstart) ?_ rfl
      simp [argumentCells, Nat.max_assoc]

/-- What is called lies on top of the arguments until the call takes it and them. -/
lemma Expr.needs_of_callee {callee : Expr} {code : Code} (h : callee.compile false = .ok code)
    {next : Option Instr} {span : Span} {s : RunState} {values : List Value}
    (hcells : s.stack.cells = values.reverse.map .value) (hs : s.frames.Linked)
    {cells frames : Nat} :
    Needs next (code ++ [(.call values.length, span)]) s cells frames
      (max cells (values.length + callee.cells)) (max frames (s.frames.depth + 1)) := by
  have hsize : s.stack.size = values.length := by simp [DataStack.size, hcells]
  have htop (v : Value) : (s.withCells (.value v :: s.stack.cells)).stack.cells =
      .value v :: (values.reverse.map .value ++ []) := by
    rw [RunState.cells_withCells, hcells, List.append_nil]
  match callee, h with
  | .name n nameSpan, h =>
      cases h
      refine Needs.put rfl rfl ?_
      have hload := Step.loadValue_eq (s := s.withCells (.name n :: s.stack.cells))
        (some (.call values.length)) rfl
      rw [RunState.frames_withCells] at hload
      cases hget : s.frames.get? n with
      | none =>
          rw [hget] at hload
          exact Needs.fault hload
      | some v =>
          rw [hget] at hload
          refine Needs.place rfl hload (Needs.invoke (Step.call_value (htop v)) ?_ rfl)
          simp [Expr.cells, hsize]
  | .literal l literalSpan, h =>
      cases h
      refine Needs.put rfl rfl (Needs.invoke (Step.call_value (htop _)) ?_ rfl)
      simp [Expr.cells, hsize]
  | .member value n memberSpan, h =>
      obtain ⟨receiver, hreceiver, rfl⟩ := compile_member_ok h
      rw [List.append_assoc]
      refine Needs.after (needs_of_path hreceiver rfl hs)
        (value.yields_evalPath hreceiver rfl hs) ?_
      rintro v cs rfl
      refine Needs.put rfl rfl ?_
      refine Needs.place rfl (Step.loadMember_method rfl (.value v) rfl) ?_
      have hmethod : (s.withCells (.method n v :: s.stack.cells)).stack.cells =
          .method n v :: (values.reverse.map .value ++ []) := by
        rw [RunState.cells_withCells, hcells, List.append_nil]
      have hcall := Step.call_method hmethod
      rw [RunState.frames_withCells] at hcall
      cases hget : s.frames.get? (v.type.name ++ "_" ++ n) with
      | none =>
          rw [hget] at hcall
          exact Needs.fault hcall
      | some f =>
          rw [hget] at hcall
          refine Needs.invoke hcall ?_ rfl
          simp [Expr.cells, hsize]
          omega

/-! ## Statements -/

/-- What code of statements leaves as it is when it is executed to the end. -/
lemma Performs.kept {next : Option Instr} {code : Code} {s t : RunState} {cs : List Cell}
    {want : World × Option RuntimeError} (h : Performs next code s cs want)
    (hrun : runCode next code s = (t, none)) :
    t.stack.cells = cs ∧ t.frames.depth = s.frames.depth ∧ t.frames.Linked := by
  rw [Performs, hrun] at h
  exact h.2

/-- A path never takes more than two cells. -/
lemma Expr.cells_of_path {e : Expr} {code : Code} (h : e.compile false = .ok code) :
    e.cells ≤ 2 := by
  match e, h with
  | .name _ _, _ | .literal _ _, _ => exact Nat.le_succ 1
  | .member value n span, h =>
      obtain ⟨receiver, hreceiver, -⟩ := compile_member_ok h
      rw [Expr.cells]
      exact Nat.max_le.mpr ⟨Nat.le_refl 2, cells_of_path hreceiver⟩

/-- A value is a new object or a path. -/
lemma Expr.path_or_object {e : Expr} {code : Code} (h : e.compile true = .ok code) :
    (e.compile false = .ok code ∧ boundCells (some e) = 3) ∨
      ∃ fields span, e = .object fields span := by
  cases e with
  | name | literal => exact .inl ⟨h, rfl⟩
  | member value n span =>
      rw [compile] at h ⊢
      exact .inl ⟨h, rfl⟩
  | object fields span => exact .inr ⟨fields, span, rfl⟩
  | call => cases h

lemma Expr.two_le_boundCells (value : Option Expr) : 2 ≤ boundCells value := by
  rw [boundCells.eq_def]
  split <;> omega

/-- The value of a binding, with the instructions behind it. -/
lemma Expr.needs_of_compileBound {value : Option Expr} {code : Code}
    (h : compileBound value = .ok code) (name : String) (span : Span) {next : Option Instr}
    {s : RunState} {t : DataType} (hs : s.frames.Linked) (hcells : s.stack.cells = [.type t])
    {cells frames : Nat} :
    Needs next (code ++ [(.pushName name, span), (.store value.isSome, span)]) s cells frames
      (max cells (boundCells value)) frames := by
  have hsize : s.stack.size = 1 := congrArg List.length hcells
  have hschema : SchemaOn s.stack.cells (.ok t) := by
    rw [hcells]
    exact .declared t []
  cases value with
  | none =>
      cases h
      have hstore : Step.store false (s.withCells (.name name :: s.stack.cells)) = _ :=
        Step.store_default (congrArg (Cell.name name :: ·) hcells)
      refine Needs.put rfl rfl (Needs.change rfl hstore fun _ => Needs.nil ?_ rfl)
      simp [boundCells, hsize]
  | some e =>
      rcases path_or_object h with ⟨hpath, hbound⟩ | ⟨fields, objectSpan, rfl⟩
      · rw [hbound]
        refine Needs.after (needs_of_path hpath rfl hs) (Expr.yields_evalPath hpath rfl hs) ?_
        rintro v _ rfl
        have hstore : Step.store true
            (s.withCells (.name name :: .value v :: s.stack.cells)) = _ :=
          Step.store_value (.value v) (congrArg (Cell.name name :: .value v :: ·) hcells)
        refine Needs.put rfl rfl (Needs.change rfl hstore fun _ => Needs.nil ?_ rfl)
        have hcells := cells_of_path hpath
        simp [hsize]
        omega
      · obtain ⟨-, inits, hinits, rfl⟩ := compile_object_ok h
        rw [List.append_assoc, List.cons_append]
        refine Needs.begin hschema ?_
        intro u
        have hstart : (s.withCells (.object [] :: .type u :: s.stack.cells)).frames.Linked := hs
        refine Needs.after (FieldInit.needs_of_compileAll fields hinits rfl hstart rfl)
          (FieldInit.yields_evalAll fields hinits rfl hstart rfl) ?_
        rintro given _ rfl
        have hstore : Step.store true (s.withCells
            (.name name :: .object given :: .type u :: s.stack.cells)) = _ :=
          Step.store_value (.object u given)
            (congrArg (Cell.name name :: .object given :: .type u :: ·) hcells)
        refine Needs.change rfl (Step.sealObject_eq rfl) fun _ => ?_
        refine Needs.put rfl rfl (Needs.change rfl hstore fun _ => Needs.nil ?_ rfl)
        cases fields <;> simp [boundCells, Expr.cells, hsize]
        all_goals omega

/-- Opening a scope asks for a frame. -/
lemma Needs.opening {name : String} {next : Option Instr} {span : Span} {rest : Code}
    {s : RunState} {cs : List Cell} {cells frames cells' frames' : Nat}
    (hcells : s.stack.cells = .name name :: cs)
    (k : ∀ t : RunState, t.stack.cells = cs → t.frames = s.frames.push .block name span →
      Needs next rest t (max cells cs.length) (max frames (s.frames.depth + 1)) cells' frames') :
    Needs next ((.openScope, span) :: rest) s cells frames cells' frames' := by
  have hopen : Instr.openScope.execute (firstOf rest next) span s = _ :=
    Step.openScope_eq span hcells
  split at hopen
  · exact Needs.fault hopen
  · exact Needs.step hopen (k _ rfl rfl)

/-- Closing a scope takes no room. -/
lemma Needs.closing {next : Option Instr} {span : Span} {s : RunState} {cells frames : Nat}
    (hsize : s.stack.size ≤ cells) :
    Needs next [(.closeScope, span)] s cells frames cells frames := by
  obtain ⟨stack, ⟨inner, root⟩, maxFrames, calls⟩ := s
  cases inner with
  | nil =>
      have hclose : Step.closeScope ⟨stack, ⟨[], root⟩, maxFrames, calls⟩ =
        .error (.internal "cannot pop the root frame") := rfl
      exact Needs.fault hclose
  | cons f fs =>
      refine Needs.frameless rfl (Step.closeScope_eq rfl) (Needs.nil ?_ rfl)
      exact Nat.max_eq_left hsize

mutual

lemma Stmt.needs_of_compile (st : Stmt) {code : Code} (h : st.compile = .ok code)
    {next : Option Instr} {s : RunState} (hs : s.frames.Linked) (hcells : s.stack.cells = [])
    {cells frames : Nat} :
    Needs next code s cells frames (max cells st.cells) (max frames (st.frames s.frames.depth)) := by
  have hsize := RunState.size_of_nil hcells
  match st, h with
  | .scope name body bodySpan span, h =>
      obtain ⟨inner, hinner, rfl⟩ := Stmt.compile_scope_ok h
      refine Needs.put rfl rfl ?_
      refine Needs.opening rfl fun t ht hframes => ?_
      have hlinked : t.frames.Linked := hframes ▸ CallStack.linked_push hs .block name span
      refine Needs.append (Stmt.needs_of_compileAll body hinner hlinked (ht.trans hcells))
        fun u hrun => ?_
      have hkept := Performs.kept (Stmt.performs_evalAll body hinner hlinked) hrun
      have hsize' := RunState.size_of_nil ((hkept.1.trans ht).trans hcells)
      refine Needs.of_eq (Needs.closing (hsize' ▸ Nat.zero_le _)) ?_ ?_
      · rw [RunState.length_cells, hsize, Stmt.cells]
        omega
      · rw [hframes, CallStack.depth_push, Stmt.frames, Nat.max_assoc]
        rfl
  | .typedef name type span, h =>
      obtain ⟨definition, hdefinition, rfl⟩ := Stmt.compile_typedef_ok h
      rw [Stmt.frames, Nat.max_zero]
      exact type.needs_of_compileDefinition hdefinition name span hs hcells
  | .binding name type value span, h =>
      obtain ⟨declared, bound, hdeclared, hbound, rfl⟩ := Stmt.compile_binding_ok h
      rw [Stmt.cells, Stmt.frames, Nat.max_zero, List.append_assoc]
      refine Needs.after (type.needs_of_compile hdeclared) (type.yields_eval hdeclared hs) ?_
      rintro t cs rfl
      have hstart : (s.withCells (.type t :: s.stack.cells)).frames.Linked := hs
      refine Needs.of_eq (Expr.needs_of_compileBound hbound name span hstart
        (congrArg (Cell.type t :: ·) hcells)) ?_ rfl
      have hbound := Expr.two_le_boundCells value
      simp only [hsize]
      omega
  | .effect e span, h =>
      obtain ⟨callee, arguments, callSpan, operands, target, rfl, hoperands, htarget, rfl⟩ :=
        Stmt.compile_effect_ok h
      rw [Stmt.cells, Stmt.frames, List.append_assoc]
      have hfirst := Expr.firstOf_compile htarget [(.call arguments.length, callSpan)] next
      refine Needs.after (Expr.needs_of_compileArguments hoperands hfirst hs)
        (Expr.yields_evalArguments hoperands hfirst hs) ?_
      rintro values _ ⟨hlength, rfl⟩
      rw [hcells, List.append_nil, ← hlength]
      have hstart : (s.withCells (values.reverse.map .value)).frames.Linked := hs
      refine Needs.of_eq (Expr.needs_of_callee htarget rfl hstart) ?_ rfl
      rw [hsize, Nat.max_assoc, Nat.max_comm (Expr.argumentCells 0 arguments)]

lemma Stmt.needs_of_compileAll (ss : List Stmt) {code : Code} (h : Stmt.compileAll ss = .ok code)
    {next : Option Instr} {s : RunState} (hs : s.frames.Linked) (hcells : s.stack.cells = [])
    {cells frames : Nat} :
    Needs next code s cells frames (max cells (Stmt.cellsAll ss))
      (max frames (Stmt.framesAll s.frames.depth ss)) := by
  match ss, h with
  | [], h =>
      cases h
      exact Needs.nil (Nat.max_zero cells).symm (Nat.max_zero frames).symm
  | st :: ss, h =>
      obtain ⟨first, rest, hfirst, hrest, rfl⟩ := Stmt.compileAll_cons_ok h
      refine Needs.append (st.needs_of_compile hfirst hs hcells) fun t hrun => ?_
      obtain ⟨hcells', hdepth, ht⟩ := Performs.kept (st.performs_eval hfirst hs) hrun
      refine Needs.of_eq (Stmt.needs_of_compileAll ss hrest ht (hcells'.trans hcells)) ?_ ?_
      · rw [Stmt.cellsAll, Nat.max_assoc]
      · rw [Stmt.framesAll, hdepth, Nat.max_assoc]

end

/-! ## Programs -/

/-- Exactly the space that can be read off the tree is needed.  If the run of an accepted program
succeeds under some limits, then under any others, with the same bindings of the host, it succeeds
if these allow the cells and the frames that the program needs, and otherwise it overflows. -/
theorem Block.succeeds_iff_room {b : Block} {c : Chunk} (h : b.compile = .ok c)
    {host : List HostBinding} {large : Limits}
    (hlarge : (c.machine large host).run.failure = none) (l : Limits) :
    ((c.machine l host).run.failure = none ↔ b.cells ≤ l.maxCells ∧ b.frames 1 ≤ l.maxFrames) ∧
      ∀ e, (c.machine l host).run.failure = some e → e.cause.isOverflow = true := by
  obtain ⟨code, hcode, hlocated⟩ := compile_ok h
  have hfailure (l : Limits) :
      (c.machine l host).run.failure = (runCode none code (.hosted l host)).2 := by
    rw [Machine.failure_run (c.failure_machine l host), Chunk.pending_machine,
      Chunk.state_machine, hlocated, Stmt.runToEnd_eq_runCode hcode]
  rw [hfailure] at hlarge ⊢
  have hneeds : Needs none code (.hosted large host) 0 0 _ _ :=
    Stmt.needs_of_compileAll b.statements hcode (RunState.linked_hosted large host) rfl
  have htakes := hneeds _ (Prod.ext rfl hlarge)
  have hunder := htakes.under (RunState.inRoom_hosted large host) (l := l) (Nat.zero_le _)
    (Nat.zero_le _) (Nat.zero_le _)
  rw [Nat.zero_max, Nat.zero_max, RunState.under_hosted] at hunder
  change if b.cells ≤ l.maxCells ∧ b.frames 1 ≤ l.maxFrames then _ else _ at hunder
  split at hunder <;> rename_i hroom
  · rw [hunder]
    refine ⟨iff_of_true rfl hroom, ?_⟩
    intro e he
    cases he
  · obtain ⟨t, e, hrun, hover⟩ := hunder
    rw [hrun]
    refine ⟨iff_of_false (fun h => Option.some_ne_none e h) hroom, ?_⟩
    intro e' he
    cases he
    exact hover

/-- The new object takes five cells, and the call in the scope a third frame. -/
theorem Block.succeeds_iff_room_sample : ∃ c, sample.compile = .ok c ∧
    (c.machine {} sampleHost).run.failure = none ∧
    (c.machine ⟨5, 3⟩ sampleHost).run.failure = none ∧
    (∃ e, (c.machine ⟨4, 3⟩ sampleHost).run.failure = some e ∧ e.cause.isOverflow = true) ∧
    ∃ e, (c.machine ⟨5, 2⟩ sampleHost).run.failure = some e ∧ e.cause.isOverflow = true := by
  obtain ⟨c, hc⟩ := compile_sample
  have hlarge : (c.machine {} sampleHost).run.failure = none := by
    cases hc
    decide +kernel
  have hneeds : sample.cells = 5 ∧ sample.frames 1 = 3 := by decide +kernel
  have hroom (l : Limits) := succeeds_iff_room hc hlarge l
  rw [hneeds.1, hneeds.2] at hroom
  refine ⟨c, hc, hlarge, (hroom _).1.mpr ⟨Nat.le_refl 5, Nat.le_refl 3⟩, ?_, ?_⟩
  · obtain ⟨e, he⟩ := Option.ne_none_iff_exists'.mp (mt (hroom ⟨4, 3⟩).1.mp (by decide))
    exact ⟨e, he, (hroom _).2 e he⟩
  · obtain ⟨e, he⟩ := Option.ne_none_iff_exists'.mp (mt (hroom ⟨5, 2⟩).1.mp (by decide))
    exact ⟨e, he, (hroom _).2 e he⟩

end TypedConfig
