import TypedConfig.Proofs.Boundaries
import TypedConfig.Proofs.Room

/-!
# Runs under other limits

Limits cut runs short and do nothing else, whatever the instructions are
(`Chunk.outcome_of_larger_limits`).  Two runs of the same code that begin with the same bindings are
in step until the one with the smaller limits overflows; if it does not, they have the same outcome.

**Where a run overflows.** What a run takes (`Takes`) can be read off the states it comes to when
nothing stops it: the most cells that there are behind an instruction, and the most frames that an
instruction asks for.  Under limits that leave this room the run is the same, and under all others
it overflows (`Takes.under`).
-/

namespace TypedConfig

/-- Limits are larger if they leave room for as many cells and for as many frames. -/
instance : LE Limits := ⟨fun l l' => l.maxCells ≤ l'.maxCells ∧ l.maxFrames ≤ l'.maxFrames⟩

namespace RunState

/-- Whether there are no more cells than there may be. -/
def InRoom (s : RunState) : Prop := s.stack.size ≤ s.stack.limit

lemma under_hosted (l l' : Limits) (host : List HostBinding) :
    (RunState.hosted l host).under l' = .hosted l' host := rfl

lemma inRoom_hosted (l : Limits) (host : List HostBinding) : (RunState.hosted l host).InRoom :=
  Nat.zero_le _

end RunState

/-! ## In step -/

section

variable {s t : RunState} {l : Limits}

/-- An instruction that succeeds keeps to the limits and has found room for the frame it opens. -/
lemma Instr.inRoom_of_execute {i : Instr} {next : Option Instr} {span : Span} (hs : s.InRoom)
    (h : i.execute next span s = .ok ((), t)) :
    t.InRoom ∧ t.limits = s.limits ∧ i.demand s.frames ≤ s.maxFrames := by
  rw [← s.under_limits] at h
  rcases i.execute_room next span s with ⟨fault, hfails⟩ | ⟨⟨⟩, t', hcomes⟩
  · rw [hfails] at h
    cases h
  · have hexec := hcomes s.limits hs
    split at hexec
    · rename_i hroom
      rw [h] at hexec
      cases hexec
      exact ⟨hroom.1, rfl, hroom.2⟩
    · obtain ⟨fault, -, hfault⟩ := hexec
      rw [h] at hfault
      cases hfault

/-- Under larger limits an instruction does the same, unless it overflows under the smaller ones. -/
lemma Instr.execute_larger (i : Instr) (next : Option Instr) (span : Span) (hs : s.InRoom)
    (hl : s.limits ≤ l) :
    match i.execute next span s with
    | .ok (_, t) => i.execute next span (s.under l) = .ok ((), t.under l)
    | .error fault =>
      fault.isOverflow = true ∨ i.execute next span (s.under l) = .error fault := by
  nth_rewrite 1 [← s.under_limits]
  rcases i.execute_room next span s with ⟨fault, hfails⟩ | ⟨⟨⟩, t, hcomes⟩
  · rw [hfails, hfails]
    exact .inr rfl
  · have hexec := hcomes s.limits hs
    split at hexec
    · rename_i hroom
      have hlarger := hcomes l (Nat.le_trans hs hl.1)
      rw [if_pos ⟨Nat.le_trans hroom.1 hl.1, Nat.le_trans hroom.2 hl.2⟩] at hlarger
      rw [hexec, hlarger]
      rfl
    · obtain ⟨fault, hover, hfault⟩ := hexec
      rw [hfault]
      exact .inl hover

/-- Two runs of the same code are in step until the one with the smaller limits overflows. -/
theorem runCode_larger (next : Option Instr) (code : Code) (hs : s.InRoom) (hl : s.limits ≤ l) :
    match runCode next code s with
    | (t, none) => runCode next code (s.under l) = (t.under l, none)
    | (t, some e) =>
      (e.cause.isOverflow = true ∧ t.calls <+: (runCode next code (s.under l)).1.calls) ∨
        runCode next code (s.under l) = (t.under l, some e) := by
  induction code generalizing s with
  | nil => rfl
  | cons p code ih =>
      obtain ⟨i, span⟩ := p
      have hstep := i.execute_larger (firstOf code next) span hs hl
      cases hexec : i.execute (firstOf code next) span s with
      | error fault =>
          rw [hexec] at hstep
          rw [runCode, hexec]
          rcases hstep with hover | hfault
          · exact .inl ⟨hover, calls_prefix_runCode next ((i, span) :: code) (s.under l)⟩
          · rw [runCode, hfault]
            exact .inr rfl
      | ok r =>
          obtain ⟨ht, hlimits, -⟩ := Instr.inRoom_of_execute hs hexec
          rw [hexec] at hstep
          rw [runCode, hexec, runCode, hstep]
          exact ih ht (hlimits ▸ hl)

/-- So are two whole runs: the check at the end looks at no limit. -/
lemma runToEnd_larger (code : Code) (hs : s.InRoom) (hl : s.limits ≤ l) :
    ((∀ e, (runToEnd code s).2 = some e → e.cause.isOverflow = false) →
      runToEnd code (s.under l) = ((runToEnd code s).1.under l, (runToEnd code s).2)) ∧
    (runToEnd code s).1.calls <+: (runToEnd code (s.under l)).1.calls := by
  have hrun := runCode_larger none code hs hl
  rw [runToEnd, runToEnd]
  rcases hsmall : runCode none code s with ⟨t, _ | e⟩
  · rw [hsmall] at hrun
    dsimp only at hrun ⊢
    rw [hrun]
    exact ⟨fun _ => rfl, List.prefix_rfl⟩
  · rw [hsmall] at hrun
    rcases hrun with ⟨hover, hcalls⟩ | hrun
    · refine ⟨fun h => ?_, ?_⟩
      · rw [h e rfl] at hover
        cases hover
      · rcases hlarge : runCode none code (s.under l) with ⟨u, _ | e'⟩ <;>
          rw [hlarge] at hcalls <;> exact hcalls
    · dsimp only at hrun ⊢
      rw [hrun]
      exact ⟨fun _ => rfl, List.prefix_rfl⟩

end

/-- Limits only cut runs short.  Whatever the chunk is and whatever the host has bound, under larger
limits a run that does not overflow has the same outcome: the same error or none, the same values
and types in the root frame, in order, and the same calls.  And in any case its calls are the first
of those that are made under the larger limits. -/
theorem Chunk.outcome_of_larger_limits (c : Chunk) (host : List HostBinding) {l l' : Limits}
    (hl : l.maxCells ≤ l'.maxCells ∧ l.maxFrames ≤ l'.maxFrames) :
    ((∀ e, (c.machine l host).run.failure = some e → e.cause.isOverflow = false) →
      (c.machine l' host).run.outcome = (c.machine l host).run.outcome) ∧
    (c.machine l host).run.outcome.calls <+: (c.machine l' host).run.outcome.calls := by
  have hlarger := runToEnd_larger c.located (RunState.inRoom_hosted l host) hl
  rw [RunState.under_hosted] at hlarger
  rw [Machine.failure_run (c.failure_machine l host),
    Machine.outcome_run (c.failure_machine l host),
    Machine.outcome_run (c.failure_machine l' host)]
  simp only [Chunk.pending_machine, Chunk.state_machine]
  refine ⟨fun h => ?_, hlarger.2⟩
  rw [hlarger.1 h]
  rfl

/-- Code that calls `f` and then opens a scope and calls `f` there. -/
def Chunk.twoCalls : Chunk where
  code := [.pushName "f", .loadValue, .call 0, .pushName "s", .openScope, .pushName "f",
    .loadValue, .call 0, .closeScope]

/-- Three frames are enough, and with two the second call is missing. -/
theorem Chunk.outcome_of_larger_limits_twoCalls :
    let run := fun cells frames =>
      (twoCalls.machine ⟨cells, frames⟩ [.register ⟨"f", .recorded⟩]).run
    (run 1 3).failure = none ∧ (run 5 9).outcome = (run 1 3).outcome ∧
      (run 1 2).failure = some ⟨.tooManyFrames 2, {}⟩ ∧
      (run 1 2).outcome.calls <+: (run 5 9).outcome.calls := by
  intro run
  have hrun : (run 1 3).failure = none := by decide +kernel
  have hfails : (run 1 2).failure = some ⟨.tooManyFrames 2, {}⟩ := by decide +kernel
  refine ⟨hrun, ?_, hfails, ?_⟩
  · refine (twoCalls.outcome_of_larger_limits _ (by decide)).1 fun e he => ?_
    rw [hrun] at he
    cases he
  · exact (twoCalls.outcome_of_larger_limits _ (by decide)).2

/-! ## What a run takes -/

/-- The run of a piece of code from `s` to `t`, and what it takes: if `cells` and `frames` are the
most cells and frames up to `s`, then `cells'` and `frames'` are the most up to `t`.  Cells are
counted behind each instruction, and frames when an instruction asks for one. -/
inductive Takes (next : Option Instr) : Code → RunState → RunState → Nat → Nat → Nat → Nat → Prop
  | nil (s : RunState) (cells frames : Nat) : Takes next [] s s cells frames cells frames
  | cons {i : Instr} {span : Span} {rest : Code} {s t u : RunState}
      {cells frames cells' frames' : Nat}
      (hexec : i.execute (firstOf rest next) span s = .ok ((), t))
      (hrest : Takes next rest t u (max cells t.stack.size) (max frames (i.demand s.frames))
        cells' frames') :
      Takes next ((i, span) :: rest) s u cells frames cells' frames'

namespace Takes

variable {next : Option Instr} {first rest code : Code} {s t u : RunState}
  {cells frames cells' frames' cells'' frames'' : Nat}

lemma append (h : Takes (firstOf rest next) first s t cells frames cells' frames')
    (hrest : Takes next rest t u cells' frames' cells'' frames'') :
    Takes next (first ++ rest) s u cells frames cells'' frames'' := by
  induction h with
  | nil => exact hrest
  | cons hexec _ ih =>
      rw [List.cons_append]
      refine cons ?_ (ih hrest)
      rw [firstOf_append]
      exact hexec

lemma le (h : Takes next code s t cells frames cells' frames') :
    cells ≤ cells' ∧ frames ≤ frames' := by
  induction h with
  | nil => exact ⟨Nat.le_refl _, Nat.le_refl _⟩
  | cons _ _ ih => exact ⟨(Nat.max_le.mp ih.1).1, (Nat.max_le.mp ih.2).1⟩

/-- Under limits that leave as much room as a run takes it is the same run, and under all others it
overflows. -/
theorem under (h : Takes next code s t cells frames cells' frames') (hs : s.InRoom) {l : Limits}
    (hsize : s.stack.size ≤ l.maxCells) (hcells : cells ≤ l.maxCells)
    (hframes : frames ≤ l.maxFrames) :
    if cells' ≤ l.maxCells ∧ frames' ≤ l.maxFrames then
      runCode next code (s.under l) = (t.under l, none)
    else ∃ u e, runCode next code (s.under l) = (u, some e) ∧ e.cause.isOverflow = true := by
  induction h with
  | nil s cells frames =>
      rw [if_pos ⟨hcells, hframes⟩]
      rfl
  | @cons i span rest s t u cells frames cells' frames' hexec hrest ih =>
      obtain ⟨ht, -, -⟩ := Instr.inRoom_of_execute hs hexec
      have hstep : if t.stack.size ≤ l.maxCells ∧ i.demand s.frames ≤ l.maxFrames
          then i.execute (firstOf rest next) span (s.under l) = .ok ((), t.under l)
          else ∃ fault, fault.isOverflow = true ∧
            i.execute (firstOf rest next) span (s.under l) = .error fault := by
        rw [← s.under_limits] at hexec
        rcases i.execute_room (firstOf rest next) span s with ⟨fault, hfails⟩ | ⟨⟨⟩, t', hcomes⟩
        · rw [hfails] at hexec
          cases hexec
        · have hown := hcomes s.limits hs
          rw [hexec] at hown
          split at hown
          · cases hown
            exact hcomes l hsize
          · obtain ⟨fault, -, hfault⟩ := hown
            cases hfault
      by_cases hroom : t.stack.size ≤ l.maxCells ∧ i.demand s.frames ≤ l.maxFrames
      · rw [if_pos hroom] at hstep
        rw [runCode, hstep]
        exact ih ht hroom.1 (Nat.max_le.mpr ⟨hcells, hroom.1⟩) (Nat.max_le.mpr ⟨hframes, hroom.2⟩)
      · rw [if_neg hroom] at hstep
        obtain ⟨fault, hover, hfault⟩ := hstep
        have hmore : ¬ (cells' ≤ l.maxCells ∧ frames' ≤ l.maxFrames) := by
          have hle := hrest.le
          omega
        rw [if_neg hmore, runCode, hfault]
        exact ⟨_, _, rfl, hover⟩

end Takes

end TypedConfig
