import TypedConfig.Proofs.Boundaries

/-!
# What a failed run leaves

A run that fails in a statement at the top of the program leaves the root scope as the statements
before it left it, and nothing of the statement that failed but the calls it has made
(`Block.failed_run_keeps_earlier_statements`).

**Why.** Wherever the statement fails, the frames that were open when it began are still there below
those it has opened, and unchanged.  At the top of a program only the root frame was open.

**No other end.** A run that gets through its code has taken all cells and closed all scopes, so the
check at its end finds nothing.
-/

namespace TypedConfig

/-- Where all statements of a program are accepted, the program is. -/
lemma Block.compile_of_compileAll {b : Block} {code : Code}
    (h : Stmt.compileAll b.statements = .ok code) :
    ∃ c, b.compile = .ok c ∧ c.located = code := by
  refine ⟨.ofPairs code, ?_, Chunk.located_ofPairs code⟩
  rw [compile, h]
  rfl

/-- A run begins with nothing but the root frame, whose links are in order. -/
lemma RunState.linked_hosted (limits : Limits) (host : List HostBinding) :
    (RunState.hosted limits host).frames.Linked := rfl

/-- Statements that are executed from the beginning to the end leave no cell and no open scope. -/
lemma Stmt.settled_of_runCode {ss : List Stmt} {code : Code} (h : Stmt.compileAll ss = .ok code)
    {limits : Limits} {host : List HostBinding} {next : Option Instr} {t : RunState}
    (hrun : runCode next code (.hosted limits host) = (t, none)) :
    t.stack.cells = [] ∧ t.frames.inner = [] ∧ t.frames.Linked := by
  have hperforms : Performs next code (.hosted limits host) [] _ :=
    Stmt.performs_evalAll ss h (RunState.linked_hosted limits host)
  rw [Performs, hrun] at hperforms
  obtain ⟨-, hcells, hdepth, hlinked⟩ := hperforms
  have hlength : t.frames.inner.length + 1 = 1 := hdepth
  exact ⟨hcells, List.eq_nil_of_length_eq_zero (by omega), hlinked⟩

/-- A run ends as the code of its program ends. -/
lemma Stmt.runToEnd_eq_runCode {ss : List Stmt} {code : Code} (h : Stmt.compileAll ss = .ok code)
    (limits : Limits) (host : List HostBinding) :
    runToEnd code (.hosted limits host) = runCode none code (.hosted limits host) := by
  rw [runToEnd]
  rcases hrun : runCode none code (.hosted limits host) with ⟨t, _ | e⟩
  · obtain ⟨hcells, hinner, -⟩ := Stmt.settled_of_runCode h hrun
    have hsettled : t.isSettled = true := by
      simp [RunState.isSettled, DataStack.isEmpty, CallStack.depth, hcells, hinner]
    dsimp only
    rw [if_pos hsettled]
  · rfl

/-- What can be seen of a run is what can be seen where its code ends. -/
lemma Stmt.outcome_of_runCode {ss : List Stmt} {c : Chunk}
    (h : Stmt.compileAll ss = .ok c.located) {limits : Limits} {host : List HostBinding}
    {t : RunState} {r : Option RuntimeError}
    (hrun : runCode none c.located (.hosted limits host) = (t, r)) :
    (c.machine limits host).run.outcome =
      ⟨r, t.frames.root.values, t.frames.root.types, t.calls⟩ := by
  rw [Machine.outcome_run (c.failure_machine limits host), Chunk.pending_machine,
    Chunk.state_machine, Stmt.runToEnd_eq_runCode h, hrun]

/-- After a run the machine is unwound if the run has failed. -/
lemma Machine.unwound_of_failure {m : Machine} {e : RuntimeError} (h : m.failure = none)
    (he : m.run.failure = some e) :
    m.run.state.stack.cells = [] ∧ m.run.state.frames.inner = [] ∧ m.run.isHalted = true := by
  refine ⟨?_, ?_, m.isHalted_run h⟩
  all_goals
    rw [run, h] at he ⊢
    dsimp only at he ⊢
    rcases hrun : runToEnd m.pending m.state with ⟨s, _ | e'⟩
    · rw [hrun] at he
      cases he
    · rfl

/-- Frames that are still there below others have the root among them. -/
lemma CallStack.root_eq_of_suffix {s t : CallStack} (h : s.frames <:+ t.frames) :
    t.root = s.root := by
  have hlast : t.frames.getLast? = s.frames.getLast? := by
    obtain ⟨opened, hopened⟩ := h
    rw [← hopened, List.getLast?_append, frames]
    simp
  simpa [frames] using hlast

/-- Whatever the host has bound and whatever the limits are, if the run of an accepted program
fails, then there is a statement `st` at its top, with the statements `pre` before it, such that

* the program that consists of `pre` alone is accepted and its run succeeds;
* the failed run leaves the values and types in the root scope, in order, that this run leaves;
* the failed run comes to `st` in a state with the calls of this run, and its calls are these and
  then those made between there and the error, which occurs while the code of `st` is executed;
* the error shows the place of an instruction of `st`;
* no cell and no scope is left, and the machine has halted. -/
theorem Block.failed_run_keeps_earlier_statements {b : Block} {c : Chunk} (h : b.compile = .ok c)
    (limits : Limits) (host : List HostBinding) {e : RuntimeError}
    (he : (c.machine limits host).run.failure = some e) :
    ∃ pre st post c₀ code after u t values types made, b.statements = pre ++ st :: post ∧
      ({ b with statements := pre } : Block).compile = .ok c₀ ∧ st.compile = .ok code ∧
      (c₀.machine limits host).run.outcome = ⟨none, values, types, u.calls⟩ ∧
      (c.machine limits host).run.outcome = ⟨some e, values, types, u.calls ++ made⟩ ∧
      (c.machine limits host).Reaches c₀.located (code ++ after) u ∧
      runCode (firstOf after none) code u = (t, some e) ∧ t.calls = u.calls ++ made ∧
      (∃ i, (i, e.span) ∈ code) ∧
      (c.machine limits host).run.state.stack.cells = [] ∧
      (c.machine limits host).run.state.frames.inner = [] ∧
      (c.machine limits host).run.isHalted = true := by
  obtain ⟨all, hall, hlocated⟩ := compile_ok h
  rw [← hlocated] at hall
  have hstart := c.failure_machine limits host
  rcases hrun : runCode none c.located (.hosted limits host) with ⟨t, r⟩
  have houtcome := Stmt.outcome_of_runCode hall hrun
  obtain rfl : r = some e := (congrArg Outcome.failure houtcome).symm.trans he
  obtain ⟨pre, st, post, before, code, after, u, hsplit, hpre, hst, hcode, hbefore, hfails⟩ :=
    Stmt.runCode_compileAll_failed hall hrun
  obtain ⟨c₀, hc₀, hlocated₀⟩ : ∃ c₀, ({ b with statements := pre } : Block).compile = .ok c₀ ∧
      c₀.located = before := compile_of_compileAll hpre
  rw [← hlocated₀] at hpre hbefore
  have houtcome₀ := Stmt.outcome_of_runCode hpre hbefore
  have hroot : t.frames.root = u.frames.root := by
    have hacts := st.actsLast hst (firstOf after none) u
    rw [hfails] at hacts
    exact CallStack.root_eq_of_suffix hacts
  obtain ⟨made, hmade⟩ := calls_prefix_runCode (firstOf after none) code u
  rw [hfails] at hmade
  have hreaches : (c.machine limits host).Reaches c₀.located (code ++ after) u := by
    refine ⟨?_, ?_⟩
    · rw [Chunk.pending_machine, hcode, hlocated₀]
    · rw [Chunk.state_machine, Stmt.runCode_next_all hpre _ none]
      exact hbefore
  refine ⟨pre, st, post, c₀, code, after, u, t, _, _, made, hsplit, hc₀, hst, houtcome₀, ?_,
    hreaches, hfails, hmade.symm, mem_of_runCode_failed hfails,
    Machine.unwound_of_failure hstart he⟩
  rw [houtcome, hroot, hmade]

/-- A program that fails in a scope, after it has bound a name and made a call there:
`let a: int = 1` and then `s { let a: int = 2 print(a) let b: int }` and `let c: int = 3`. -/
def Block.failing : Block where
  statements := [
    Stmt.binding "a" (.named "int" {}) (some (.literal (.integer 1) {})) {},
    .scope "s" [
      .binding "a" (.named "int" {}) (some (.literal (.integer 2) {})) {},
      .effect (.call (.name "print" {}) [.name "a" {}] {}) {},
      .binding "b" (.named "int" {}) none {}] {} {},
    .binding "c" (.named "int" {}) (some (.literal (.integer 3) {})) {}]
  span := {}

/-- The declaration of `b` fails, and the statement that fails is the scope it stands in. -/
theorem Block.failed_run_failing : ∃ c e pre st post c₀ u values types made,
    failing.compile = .ok c ∧ (c.machine {} [.register ⟨"print", .print⟩]).run.failure = some e ∧
    failing.statements = pre ++ st :: post ∧
    ({ failing with statements := pre } : Block).compile = .ok c₀ ∧
    (c₀.machine {} [.register ⟨"print", .print⟩]).run.outcome =
      ⟨none, values, types, u⟩ ∧
    (c.machine {} [.register ⟨"print", .print⟩]).run.outcome =
      ⟨some e, values, types, u ++ made⟩ := by
  obtain ⟨c, hc⟩ : ∃ c, failing.compile = .ok c := ⟨_, rfl⟩
  have hfails : (c.machine {} [.register ⟨"print", .print⟩]).run.failure.isSome = true := by
    cases hc
    decide +kernel
  obtain ⟨e, he⟩ := Option.isSome_iff_exists.mp hfails
  obtain ⟨pre, st, post, c₀, -, -, u, -, values, types, made, hsplit, hc₀, -, h₀, h, -⟩ :=
    failed_run_keeps_earlier_statements hc {} [.register ⟨"print", .print⟩] he
  exact ⟨c, e, pre, st, post, c₀, u.calls, values, types, made, hc, he, hsplit, hc₀, h₀, h⟩

end TypedConfig
