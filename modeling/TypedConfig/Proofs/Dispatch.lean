import TypedConfig.Proofs.Boundaries

/-!
# A method call is a direct call

The method `m` of a value of type `T` is the function that is bound to `T_m`, called with the value
first.  A program may write that out instead, and nothing changes (`Stmt.method_call_eq_direct`).

**Two orders.** The machine evaluates the receiver of a method behind the arguments, and as the
first argument ahead of them.  Evaluating a value changes nothing.  So as long as the receiver has a
value, what fails is the same either way: an argument, the lookup of the function, or the call of
something that is none.

**Causes.** The two statements stand at different places in the text, so their errors do as well,
and what they have in common is the cause (`causeOf`).
-/

namespace TypedConfig

/-! ## What the two calls have in common -/

/-- A computation whose errors do not say where in the text they belong. -/
def causeOf {α : Type} (x : Except RuntimeError α) : Except RuntimeFault α := x.mapError (·.cause)

/-- The call of the function that is bound to a name. -/
def Scopes.callOf (s : Scopes) (name : String) (arguments : List Value) :
    Except RuntimeFault Call :=
  match s.value? name with
  | some v => causeOf (v.toCall {} arguments)
  | none => .error (.functionNotFound name)

/-- The call of the method `m` of the value `v`: the arguments are evaluated, and the function of
the method is called with the value first. -/
def Expr.methodCall (s : Scopes) (v : Value) (m : String) (arguments : List Expr) :
    Except RuntimeFault Call := do
  let values ← causeOf (evalArguments s arguments)
  s.callOf (v.type.name ++ "_" ++ m) (v :: values)

/-- How a statement that only makes a call ends: the frames are as before, and either nothing
fails, the call is added to the record and the cells are as before, or no call is added. -/
structure EndsWith (s : RunState) (x : Except RuntimeFault Call)
    (r : RunState × Option RuntimeError) : Prop where
  frames : r.1.frames = s.frames
  cells : r.2 = none → r.1.stack.cells = s.stack.cells
  calls : r.1.calls = s.calls ++ x.toOption.toList
  failure : r.2.map (·.cause) = match x with
    | .ok _ => none
    | .error fault => some fault

/-! ## The evaluator on the two calls -/

/-- Where a call stands does not matter to it. -/
lemma Value.causeOf_toCall (span span' : Span) (v : Value) (arguments : List Value) :
    causeOf (v.toCall span arguments) = causeOf (v.toCall span' arguments) := by
  rw [toCall, toCall]
  cases v.payload <;> rfl

section

variable {s : Scopes} {e : Expr} {v : Value} (hv : e.evalPath s = .ok v) (m : String)
  (arguments : List Expr) (innerSpan span : Span)
include hv

lemma Expr.causeOf_evalCall_method :
    causeOf (evalCall s (.member e m innerSpan) arguments span) = methodCall s v m arguments := by
  rw [evalCall, methodCall]
  cases evalArguments s arguments with
  | error e => rfl
  | ok values =>
      show causeOf ((Expr.member e m innerSpan).evalCallee s span >>= _) = s.callOf _ _
      rw [evalCallee, hv, Scopes.callOf]
      dsimp only [bind, Except.bind]
      cases s.value? (v.type.name ++ "_" ++ m) with
      | none => rfl
      | some f => exact f.causeOf_toCall span {} (v :: values)

lemma Expr.causeOf_evalCall_direct :
    causeOf (evalCall s (.name (v.type.name ++ "_" ++ m) innerSpan) (e :: arguments) span) =
      methodCall s v m arguments := by
  rw [evalCall, evalArguments, hv, methodCall]
  cases evalArguments s arguments with
  | error e => rfl
  | ok values =>
      show causeOf ((Expr.name _ innerSpan).evalCallee s span >>= _) = s.callOf _ _
      rw [evalCallee, Scopes.callOf]
      cases s.value? (v.type.name ++ "_" ++ m) with
      | none => rfl
      | some f => exact f.causeOf_toCall span {} (v :: values)

end

/-! ## Statements that make a call -/

/-- Code that is made of the instructions for values and of calls leaves the frames as they are. -/
lemma frames_runCode_of_calls {code : Code}
    (h : ∀ p ∈ code, p.1.isOfValue = true ∨ ∃ count, p.1 = .call count) (next : Option Instr)
    (s : RunState) : (runCode next code s).1.frames = s.frames := by
  induction code generalizing s with
  | nil => rfl
  | cons p code ih =>
      obtain ⟨i, span⟩ := p
      rw [runCode]
      cases hexec : i.execute (firstOf code next) span s with
      | error fault => rfl
      | ok r =>
          obtain ⟨stack, effect, hallows, -, ht⟩ := Instr.execute_ok hexec
          have hstep : r.2.frames = s.frames := by
            rcases h _ List.mem_cons_self with hvalue | ⟨count, rfl⟩
            · rw [ht, Instr.isQuiet_of_value hvalue effect hallows]
              rfl
            · obtain ⟨c, rfl⟩ := hallows
              rw [ht]
              rfl
          rw [← hstep]
          exact ih (fun q hq => h q (List.mem_cons_of_mem _ hq)) r.2

lemma Stmt.frames_effect {e : Expr} {span : Span} {code : Code}
    (h : (Stmt.effect e span).compile = .ok code) (next : Option Instr) (s : RunState) :
    (runCode next code s).1.frames = s.frames := by
  obtain ⟨callee, arguments, callSpan, operands, target, rfl, hoperands, htarget, rfl⟩ :=
    Stmt.compile_effect_ok h
  refine frames_runCode_of_calls ?_ next s
  intro p hp
  rcases List.mem_append.mp hp with hp | hp
  · rcases List.mem_append.mp hp with hp | hp
    · exact Or.inl (Expr.isOfValue_of_compileArguments hoperands p hp)
    · exact Or.inl (callee.isOfValue_of_compile htarget p hp)
  · rw [List.mem_singleton.mp hp]
    exact Or.inr ⟨_, rfl⟩

/-- Unless it outgrows a limit, a statement that makes a call ends with the call that the evaluator
gives. -/
lemma Stmt.endsWith_effect {callee : Expr} {arguments : List Expr} {callSpan span : Span}
    {code : Code} (h : (Stmt.effect (.call callee arguments callSpan) span).compile = .ok code)
    {next : Option Instr} {s : RunState} (hs : s.frames.Linked)
    (hroom : ∀ e, (runCode next code s).2 = some e → e.cause.isOverflow = false) :
    EndsWith s (causeOf (Expr.evalCall s.frames.scopes callee arguments callSpan))
      (runCode next code s) := by
  have hperforms : Performs next code s s.stack.cells _ := Stmt.performs_eval _ h hs
  have heval := hperforms.of_room hroom
  have hcells := hperforms.cells_eq
  have hframes := Stmt.frames_effect h next s
  rw [Stmt.eval] at heval
  generalize runCode next code s = r at heval hcells hframes
  obtain ⟨t, failure⟩ := r
  cases hcall : Expr.evalCall s.frames.scopes callee arguments callSpan with
  | error e =>
      rw [show s.world.scopes = s.frames.scopes from rfl, hcall] at heval
      obtain ⟨hworld, rfl⟩ := Prod.ext_iff.mp heval
      have hcalls : s.calls = t.calls := congrArg World.calls hworld
      refine ⟨hframes, hcells, ?_, rfl⟩
      rw [← hcalls]
      exact (List.append_nil s.calls).symm
  | ok c =>
      rw [show s.world.scopes = s.frames.scopes from rfl, hcall] at heval
      obtain ⟨hworld, rfl⟩ := Prod.ext_iff.mp heval
      exact ⟨hframes, hcells, (congrArg World.calls hworld).symm, rfl⟩

/-- Whatever the names in scope are bound to, if `e` has the value `v` and no limit is outgrown,
then a call of the method `m` of `e` and a call of the function that is named by the type of `v`, an
underscore and `m`, with `e` in front of the arguments, end in the same way: both add the same call
to the record, or both fail for the same reason and add none, and neither changes the frames. -/
theorem Stmt.method_call_eq_direct {e : Expr} {m : String} {arguments : List Expr}
    {memberSpan nameSpan callSpan callSpan' span span' : Span} {code code' : Code} {v : Value}
    (h : (Stmt.effect (.call (.member e m memberSpan) arguments callSpan) span).compile = .ok code)
    (h' : (Stmt.effect (.call (.name (v.type.name ++ "_" ++ m) nameSpan) (e :: arguments) callSpan')
      span').compile = .ok code')
    {next next' : Option Instr} {s : RunState} (hs : s.frames.Linked)
    (hv : e.evalPath s.frames.scopes = .ok v)
    (hroom : ∀ e, (runCode next code s).2 = some e → e.cause.isOverflow = false)
    (hroom' : ∀ e, (runCode next' code' s).2 = some e → e.cause.isOverflow = false) :
    EndsWith s (Expr.methodCall s.frames.scopes v m arguments) (runCode next code s) ∧
    EndsWith s (Expr.methodCall s.frames.scopes v m arguments) (runCode next' code' s) := by
  have hmethod := Stmt.endsWith_effect h hs hroom
  have hdirect := Stmt.endsWith_effect h' hs hroom'
  rw [Expr.causeOf_evalCall_method hv] at hmethod
  rw [Expr.causeOf_evalCall_direct hv] at hdirect
  exact ⟨hmethod, hdirect⟩

/-- A state in which `p` is a point and `Point_show` a function. -/
def RunState.calling : RunState where
  stack := .empty 8
  frames := { root := { CallStack.empty.root with values := [("p", .object point fields),
    ("Point_show", .function ⟨"Point_show", .recorded⟩)] } }
  maxFrames := 2
where
  point : DataType := .object "Point" [("x", .integer)]
  fields : Bindings Value := [("x", .integer 1)]

/-- The arguments `(p.x, 2)`. -/
def Expr.callingArguments : List Expr :=
  [.member (.name "p" {}) "x" {}, .literal (.integer 2) {}]

/-- The calls `p.show(p.x, 2)` and `Point_show(p, p.x, 2)`. -/
theorem Stmt.method_call_eq_direct_calling : ∃ code code',
    (Stmt.effect (.call (.member (.name "p" {}) "show" {}) Expr.callingArguments {}) {}).compile =
      .ok code ∧
    (Stmt.effect (.call (.name "Point_show" {}) (.name "p" {} :: Expr.callingArguments) {})
      {}).compile = .ok code' ∧
    (runCode none code .calling).1.calls.length = 1 ∧
    (runCode none code .calling).1.calls = (runCode none code' .calling).1.calls := by
  obtain ⟨code, h⟩ : ∃ code, (Stmt.effect (.call (.member (.name "p" {}) "show" {})
    Expr.callingArguments {}) {}).compile = .ok code := ⟨_, rfl⟩
  obtain ⟨code', h'⟩ : ∃ code', (Stmt.effect (.call (.name "Point_show" {})
    (.name "p" {} :: Expr.callingArguments) {}) {}).compile = .ok code' := ⟨_, rfl⟩
  have hrun : (runCode none code .calling).2 = none := by
    cases h
    decide +kernel
  have hrun' : (runCode none code' .calling).2 = none := by
    cases h'
    decide +kernel
  obtain ⟨hmethod, hdirect⟩ := method_call_eq_direct (s := .calling)
    (v := .object RunState.calling.point RunState.calling.fields) h h' rfl rfl
    (fun e he => by rw [hrun] at he; cases he) (fun e he => by rw [hrun'] at he; cases he)
  refine ⟨code, code', h, h', ?_, hmethod.calls.trans hdirect.calls.symm⟩
  cases h
  decide +kernel

end TypedConfig
