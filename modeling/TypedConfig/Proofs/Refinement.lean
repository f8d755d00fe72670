import TypedConfig.Proofs.ValueCode

/-!
# A run does what the evaluator says

The machine and the evaluator agree on every accepted program (`Block.outcome_run_eq_evaluate`),
unless a limit of the machine is too small.

**Statements.** The code of a statement leaves the cells as they were and does to the scopes and the
calls what the evaluator does, also when it stops half-way (`Performs`).  Most statements compute a
value and then do one thing with it; a scope is its body between opening and closing a frame.
-/

namespace TypedConfig

/-! ## Code of statements -/

/-- From the state `s` the code does to the scopes and the calls what is wanted, and stops where it
is wanted to stop.  If it does not stop, it leaves the cells `cs` and as many frames as before. -/
def Performs (next : Option Instr) (code : Code) (s : RunState) (cs : List Cell)
    (want : World × Option RuntimeError) : Prop :=
  match runCode next code s with
  | (t, none) => want = (t.world, none) ∧ t.stack.cells = cs ∧
      t.frames.depth = s.frames.depth ∧ t.frames.Linked
  | (t, some e) => e.cause.isOverflow = true ∨ want = (t.world, some e)

section

variable {α β : Type} {next : Option Instr} {span : Span} {i : Instr} {first rest inner : Code}
  {s t : RunState} {cs ds : List Cell} {want : World × Option RuntimeError}

lemma Performs.nil (hs : s.frames.Linked) (hcells : s.stack.cells = cs) :
    Performs next [] s cs (s.world, none) :=
  ⟨rfl, hcells, rfl, hs⟩

lemma Performs.step (hexec : i.execute (firstOf rest next) span s = .ok ((), t))
    (hdepth : t.frames.depth = s.frames.depth) (k : Performs next rest t cs want) :
    Performs next ((i, span) :: rest) s cs want := by
  rw [Performs] at k ⊢
  rw [runCode, hexec]
  rwa [hdepth] at k

lemma Performs.fault {fault : RuntimeFault}
    (hexec : i.execute (firstOf rest next) span s = .error fault)
    (h : fault.isOverflow = true ∨ want = (s.world, some ⟨fault, span⟩)) :
    Performs next ((i, span) :: rest) s cs want := by
  rw [Performs]
  rw [runCode, hexec]
  exact h

lemma Performs.place {c : Cell}
    (hexec : i.execute (firstOf rest next) span s = Step.push c (s.withCells ds))
    (k : Performs next rest (s.withCells (c :: ds)) cs want) :
    Performs next ((i, span) :: rest) s cs want := by
  rw [Step.push_eq] at hexec
  split at hexec
  · exact Performs.step hexec rfl k
  · exact Performs.fault hexec (Or.inl rfl)

lemma Performs.put {c : Cell} (hexec : i.execute (firstOf rest next) span s = Step.push c s)
    (k : Performs next rest (s.withCells (c :: s.stack.cells)) cs want) :
    Performs next ((i, span) :: rest) s cs want := by
  rw [← s.withCells_self] at hexec
  exact Performs.place hexec k

/-- The code of a value is followed by code that does something with it. -/
lemma Performs.after {x : Except RuntimeError β} {left : β → List Cell → Prop}
    {f : β → Except RuntimeError α} {g : α → World}
    (h : Yields (firstOf rest next) first s x left)
    (k : ∀ b cells, left b cells →
      Performs next rest (s.withCells cells) cs (s.world.andThen (f b) g)) :
    Performs next (first ++ rest) s cs (s.world.andThen (x >>= f) g) := by
  rw [Performs]
  rw [Yields] at h
  rw [runCode_append]
  rcases hrun : runCode (firstOf rest next) first s with ⟨t, _ | e⟩
  · rw [hrun] at h
    obtain ⟨b, cells, rfl, hleft, rfl⟩ := h
    exact k b cells hleft
  · rw [hrun] at h
    obtain ⟨hworld, hover | rfl⟩ := h
    · exact Or.inl hover
    · exact Or.inr (by rw [hworld]; rfl)

/-- The last instruction computes something and changes the state. -/
lemma Performs.last {x : Except RuntimeFault α} {t : α → RunState} {g : α → World}
    (hexec : i.execute next span s = x.map fun a => ((), t a))
    (ht : ∀ a, (t a).world = g a ∧ (t a).stack.cells = cs ∧
      (t a).frames.depth = s.frames.depth ∧ (t a).frames.Linked) :
    Performs next [(i, span)] s cs (s.world.andThen (located span x) g) := by
  cases x with
  | error fault => exact Performs.fault hexec (Or.inr rfl)
  | ok a =>
      obtain ⟨hworld, hcells, hdepth, hlinked⟩ := ht a
      refine Performs.step hexec hdepth ?_
      rw [located_ok, World.andThen, ← hworld]
      exact Performs.nil hlinked hcells

/-- Statements are executed one after the other. -/
lemma Performs.append {f : World → World × Option RuntimeError}
    (h : Performs (firstOf rest next) first s cs want)
    (k : ∀ t : RunState, t.stack.cells = cs → t.frames.Linked →
      Performs next rest t cs (f t.world)) :
    Performs next (first ++ rest) s cs (World.resume want f) := by
  rw [Performs] at h ⊢
  rw [runCode_append]
  rcases hrun : runCode (firstOf rest next) first s with ⟨t, _ | e⟩
  · rw [hrun] at h
    obtain ⟨rfl, hcells, hdepth, hlinked⟩ := h
    rw [← hdepth]
    exact k t hcells hlinked
  · rw [hrun] at h
    rcases h with hover | rfl
    · exact Or.inl hover
    · exact Or.inr rfl

/-- Closing a frame that is not the root closes the scope and nothing else. -/
lemma Step.closeScope_inner {depth : Nat} (hdepth : t.frames.depth = depth + 1)
    (hpos : 0 < depth) (hlinked : t.frames.Linked) :
    ∃ t', Step.closeScope t = .ok ((), t') ∧
      t'.world = { t.world with scopes := t.world.scopes.closed } ∧ t'.stack = t.stack ∧
      t'.frames.depth = depth ∧ t'.frames.Linked := by
  obtain ⟨stack, ⟨inner, root⟩, maxFrames, calls⟩ := t
  have hlength : inner.length + 1 = depth + 1 := hdepth
  cases inner with
  | nil =>
      rw [List.length_nil] at hlength
      omega
  | cons f fs =>
      rw [List.length_cons] at hlength
      have hlength' : fs.length + 1 = depth := by omega
      exact ⟨_, Step.closeScope_eq rfl, rfl, rfl, hlength', CallStack.linked_of_cons hlinked⟩

/-- The code of a scope does what its body does, in a scope of its own. -/
lemma Performs.scope {n : String} {bodySpan : Span} (hcells : s.stack.cells = .name n :: cs)
    (k : Performs (some .closeScope) inner
      { s.withCells cs with frames := s.frames.push .block n span } cs want) :
    Performs next ((.openScope, span) :: (inner ++ [(.closeScope, bodySpan)])) s cs
      (World.resume want fun w => ({ w with scopes := w.scopes.closed }, none)) := by
  have hopen : Instr.openScope.execute (firstOf (inner ++ [(.closeScope, bodySpan)]) next) span s =
    _ := Step.openScope_eq span hcells
  split at hopen
  · exact Performs.fault hopen (Or.inl rfl)
  · rw [Performs] at k ⊢
    rw [runCode, hopen]
    dsimp only
    rw [runCode_append]
    have hnext : firstOf [(Instr.closeScope, bodySpan)] next = some .closeScope := rfl
    rw [hnext]
    rcases hrun : runCode (some .closeScope) inner
      { s.withCells cs with frames := s.frames.push .block n span } with ⟨t, _ | e⟩
    · rw [hrun] at k
      obtain ⟨rfl, hstack, hdepth, hlinked⟩ := k
      -- the body ends in the frame that was opened for it, so it is this one that is closed
      rw [CallStack.depth_push] at hdepth
      have hpos : 0 < s.frames.depth := Nat.succ_pos _
      obtain ⟨t', hclose, hworld, hstack', hdepth', hlinked'⟩ :=
        Step.closeScope_inner hdepth hpos hlinked
      have hexec : Instr.closeScope.execute (firstOf [] next) bodySpan t = .ok ((), t') := hclose
      dsimp only
      rw [runCode, hexec]
      refine ⟨?_, ?_, hdepth', hlinked'⟩
      · rw [World.resume, hworld]
      · rw [hstack']
        exact hstack
    · rw [hrun] at k
      rcases k with hover | rfl
      · exact Or.inl hover
      · exact Or.inr rfl

end

/-! ## Statements -/

section

variable {next : Option Instr} {span : Span} {s : RunState} {cs : List Cell}

/-- A change of the innermost frame is a change of the innermost scope, made after whatever it takes
to get what is bound. -/
lemma Performs.update {α : Type} {i : Instr} {x : Except RuntimeFault α} {f : α → Frame → Frame}
    {g : α → Scope → Scope}
    (hexec : i.execute next span s = x.map fun a => ((), (s.withCells cs).updateFrame (f a)))
    (hscope : ∀ a y, (f a y).scope = g a y.scope) (hparent : ∀ a y, (f a y).parent = y.parent)
    (hs : s.frames.Linked) :
    Performs next [(i, span)] s cs (s.world.andThen (located span x) fun a =>
      { s.world with scopes := s.world.scopes.update (g a) }) := by
  refine Performs.last hexec ?_
  intro a
  refine ⟨?_, rfl, ?_, ?_⟩
  · have hscopes := CallStack.scopes_updateCurrent (s := s.frames) (hscope a)
    rw [RunState.world, RunState.frames_updateFrame, RunState.frames_withCells, hscopes]
    rfl
  · exact CallStack.depth_updateCurrent s.frames (f a)
  · exact CallStack.linked_updateCurrent (hparent a) hs

lemma Performs.bind {x : Except RuntimeFault Value} {i : Instr} {n : String}
    (hexec : i.execute next span s = x.map fun v =>
      ((), (s.withCells cs).updateFrame (.bind n v.mutable))) (hs : s.frames.Linked) :
    Performs next [(i, span)] s cs (s.world.andThen (located span x) fun v =>
      { s.world with scopes := s.world.scopes.bind n v.mutable }) :=
  Performs.update hexec (fun _ _ => rfl) (fun _ _ => rfl) hs

lemma Performs.bindType {n : String} {t : DataType}
    (hexec : Instr.bindType.execute next span s =
      .ok ((), (s.withCells cs).updateFrame (.bindType n t))) (hs : s.frames.Linked) :
    Performs next [(.bindType, span)] s cs
      ({ s.world with scopes := s.world.scopes.bindType n t }, none) := by
  have hupdate := Performs.update (x := .ok t) (f := fun t => .bindType n t)
    (g := fun t c => { c with types := c.types.set n t }) hexec (fun _ _ => rfl) (fun _ _ => rfl) hs
  exact hupdate

/-- A call is added to the record, if it is a function that is called. -/
lemma Performs.invoke {count : Nat} {v : Value} {arguments : List Value}
    (hexec : (Instr.call count).execute next span s =
      Step.invoke v arguments (s.withCells cs)) (hs : s.frames.Linked) :
    Performs next [(.call count, span)] s cs
      (s.world.andThen (v.toCall span arguments) fun c =>
        { s.world with calls := s.world.calls ++ [c] }) := by
  rw [Step.invoke] at hexec
  rw [Value.toCall]
  cases hpayload : v.payload with
  | function f =>
      rw [hpayload] at hexec
      dsimp only at hexec
      split at hexec
      · exact Performs.fault hexec (Or.inl rfl)
      · exact Performs.step hexec rfl (Performs.nil hs rfl)
  | _ =>
      rw [hpayload] at hexec
      exact Performs.fault hexec (Or.inr rfl)

end

/-- What is called is evaluated after the arguments, which lie on the stack, and a method is looked
up last. -/
lemma Expr.performs_evalCallee {callee : Expr} {code : Code} (h : callee.compile false = .ok code)
    {next : Option Instr} {span : Span} {s : RunState} {cs : List Cell} {values : List Value}
    (hcells : s.stack.cells = values.reverse.map .value ++ cs) (hs : s.frames.Linked) :
    Performs next (code ++ [(.call values.length, span)]) s cs
      (s.world.andThen
        (do
          let (v, receiver) ← callee.evalCallee s.frames.scopes span
          v.toCall span (receiver ++ values))
        fun c => { s.world with calls := s.world.calls ++ [c] }) := by
  match callee, h with
  | .name n nameSpan, h =>
      cases h
      refine Performs.put rfl ?_
      have hload := Step.loadValue_eq (s := s.withCells (.name n :: s.stack.cells))
        (some (.call values.length)) rfl
      rw [RunState.frames_withCells, CallStack.get?_eq_value? hs] at hload
      rw [evalCallee]
      cases hget : s.frames.scopes.value? n with
      | none =>
          rw [hget] at hload
          exact Performs.fault hload (Or.inr rfl)
      | some v =>
          rw [hget] at hload
          refine Performs.place hload (Performs.invoke (Step.call_value ?_) hs)
          rw [RunState.cells_withCells, hcells]
  | .literal l literalSpan, h =>
      cases h
      refine Performs.put rfl (Performs.invoke (Step.call_value ?_) hs)
      rw [RunState.cells_withCells, hcells]
  | .member value n memberSpan, h =>
      obtain ⟨receiver, hreceiver, rfl⟩ := compile_member_ok h
      rw [evalCallee, bind_assoc, List.append_assoc]
      refine Performs.after (value.yields_evalPath hreceiver rfl hs) ?_
      rintro v cells rfl
      refine Performs.put rfl ?_
      refine Performs.place (Step.loadMember_method rfl (.value v) rfl) ?_
      have htop : (s.withCells (.method n v :: s.stack.cells)).stack.cells =
          .method n v :: (values.reverse.map .value ++ cs) := by
        rw [RunState.cells_withCells, hcells]
      have hcall := Step.call_method htop
      rw [RunState.frames_withCells, CallStack.get?_eq_value? hs] at hcall
      cases hget : s.frames.scopes.value? (v.type.name ++ "_" ++ n) with
      | none =>
          rw [hget] at hcall
          exact Performs.fault hcall (Or.inr rfl)
      | some f =>
          rw [hget] at hcall
          exact Performs.invoke hcall hs

mutual

/-- The code of a statement does what the evaluator does. -/
lemma Stmt.performs_eval (st : Stmt) {code : Code} (h : st.compile = .ok code)
    {next : Option Instr} {s : RunState} (hs : s.frames.Linked) :
    Performs next code s s.stack.cells (st.eval s.world) := by
  match st, h with
  | .scope name body bodySpan span, h =>
      obtain ⟨inner, hinner, rfl⟩ := Stmt.compile_scope_ok h
      rw [Stmt.eval]
      refine Performs.put rfl (Performs.scope rfl ?_)
      exact Stmt.performs_evalAll body hinner (CallStack.linked_push hs .block name span)
  | .typedef name type span, h =>
      obtain ⟨definition, hdefinition, rfl⟩ := Stmt.compile_typedef_ok h
      rw [Stmt.eval, ← bind_pure (type.evalDefinition _ _)]
      refine Performs.after (type.yields_evalDefinition hdefinition hs name) ?_
      rintro t cells (rfl | ⟨shape, rfl, rfl⟩)
      · exact Performs.place rfl (Performs.bindType (Step.bindType_type rfl) hs)
      · exact Performs.place rfl (Performs.bindType (Step.bindType_shape rfl) hs)
  | .binding name type value span, h =>
      obtain ⟨declared, bound, hdeclared, hbound, rfl⟩ := Stmt.compile_binding_ok h
      rw [Stmt.eval, List.append_assoc]
      refine Performs.after (type.yields_eval hdeclared hs) ?_
      rintro t cells rfl
      cases value with
      | none =>
          cases hbound
          refine Performs.put rfl ?_
          exact Performs.bind (Step.store_default rfl) hs
      | some e =>
          refine Performs.after (e.yields_evalAs hbound rfl hs (.declared t _)) ?_
          rintro v cells ⟨top, hv, rfl⟩
          refine Performs.place rfl (Performs.bind (Step.store_value hv rfl) hs)
  | .effect e span, h =>
      obtain ⟨callee, arguments, callSpan, operands, target, rfl, hoperands, htarget, rfl⟩ :=
        Stmt.compile_effect_ok h
      rw [Stmt.eval, Expr.evalCall, List.append_assoc]
      have hfirst := Expr.firstOf_compile htarget [(.call arguments.length, callSpan)] next
      refine Performs.after (Expr.yields_evalArguments hoperands hfirst hs) ?_
      rintro values cells ⟨hlength, rfl⟩
      rw [← hlength]
      exact Expr.performs_evalCallee htarget rfl hs

/-- The code of statements does what the evaluator does. -/
lemma Stmt.performs_evalAll (ss : List Stmt) {code : Code} (h : Stmt.compileAll ss = .ok code)
    {next : Option Instr} {s : RunState} (hs : s.frames.Linked) :
    Performs next code s s.stack.cells (Stmt.evalAll ss s.world) := by
  match ss, h with
  | [], h =>
      cases h
      exact Performs.nil hs rfl
  | st :: ss, h =>
      obtain ⟨first, rest, hfirst, hrest, rfl⟩ := Stmt.compileAll_cons_ok h
      rw [Stmt.evalAll]
      refine Performs.append (Stmt.performs_eval st hfirst hs) ?_
      intro t hcells ht
      rw [← hcells]
      exact Stmt.performs_evalAll ss hrest ht

end

/-- Code that does not outgrow a limit does what is wanted of it. -/
lemma Performs.of_room {next : Option Instr} {code : Code} {s : RunState} {cs : List Cell}
    {want : World × Option RuntimeError} (h : Performs next code s cs want)
    (hroom : ∀ e, (runCode next code s).2 = some e → e.cause.isOverflow = false) :
    want = ((runCode next code s).1.world, (runCode next code s).2) := by
  rw [Performs] at h
  rcases hrun : runCode next code s with ⟨t, _ | e⟩
  · rw [hrun] at h
    exact h.1
  · rw [hrun] at h hroom
    rcases h with hover | hwant
    · rw [hroom e rfl] at hover
      cases hover
    · exact hwant

/-- Code that does not fail leaves the cells that it should. -/
lemma Performs.cells_eq {next : Option Instr} {code : Code} {s : RunState} {cs : List Cell}
    {want : World × Option RuntimeError} (h : Performs next code s cs want)
    (hok : (runCode next code s).2 = none) : (runCode next code s).1.stack.cells = cs := by
  rw [Performs] at h
  rcases hrun : runCode next code s with ⟨t, _ | e⟩
  · rw [hrun] at h
    exact h.2.1
  · rw [hrun] at hok
    cases hok

/-! ## Programs -/

/-- A run that is not cut off by a limit ends as its code is wanted to end: nothing is left over
that could still make it fail. -/
lemma Performs.runToEnd {code : Code} {s : RunState} {want : World × Option RuntimeError}
    (h : Performs none code s [] want) (hs : s.frames.depth = 1) :
    (∃ e, (runToEnd code s).2 = some e ∧ e.cause.isOverflow = true) ∨
      want = ((runToEnd code s).1.world, (runToEnd code s).2) := by
  rw [Performs] at h
  rw [TypedConfig.runToEnd]
  rcases hrun : runCode none code s with ⟨t, _ | e⟩
  · rw [hrun] at h
    obtain ⟨rfl, hcells, hdepth, -⟩ := h
    -- with no cell and only the root frame left, the check at the end has nothing to find
    have hsettled : t.isSettled = true := by
      simp only [RunState.isSettled, DataStack.isEmpty, hcells, hdepth, hs]
      rfl
    refine Or.inr ?_
    dsimp only
    rw [if_pos hsettled]
  · rw [hrun] at h
    rcases h with hover | rfl
    · exact Or.inl ⟨e, rfl, hover⟩
    · exact Or.inr rfl

/-- Whatever the host has bound and whatever the limits are, if the run of an accepted program does
not outgrow a limit, then it has the outcome that the evaluator gives: the same error at the same
place in the text, or none, the same values and types in the root scope, and the same calls. -/
theorem Block.outcome_run_eq_evaluate {b : Block} {c : Chunk} (h : b.compile = .ok c)
    (limits : Limits) (host : List HostBinding)
    (hroom : ∀ e, (c.machine limits host).run.failure = some e → e.cause.isOverflow = false) :
    (c.machine limits host).run.outcome = b.evaluate host := by
  obtain ⟨code, hcode, hlocated⟩ := compile_ok h
  have hstart := c.failure_machine limits host
  rw [Machine.failure_run hstart] at hroom
  rw [Machine.outcome_run hstart]
  rw [Chunk.pending_machine, hlocated, Chunk.state_machine] at hroom ⊢
  have hperforms : Performs none code (.hosted limits host) [] _ :=
    Stmt.performs_evalAll b.statements hcode rfl
  rcases hperforms.runToEnd rfl with ⟨e, hfailure, hover⟩ | heval
  · rw [hroom e hfailure] at hover
    cases hover
  · rw [evaluate, show World.initial host = (RunState.hosted limits host).world from rfl, heval]
    rfl

/-- With the limits that there are by default the sample ends well. -/
theorem Block.outcome_run_sample : ∃ c, sample.compile = .ok c ∧
    (c.machine {} sampleHost).run.failure = none ∧
    (c.machine {} sampleHost).run.outcome = sample.evaluate sampleHost := by
  obtain ⟨c, hc⟩ := compile_sample
  have hrun : (c.machine {} sampleHost).run.failure = none := by
    cases hc
    decide +kernel
  refine ⟨c, hc, hrun, outcome_run_eq_evaluate hc {} sampleHost fun e he => ?_⟩
  rw [hrun] at he
  cases he

end TypedConfig
