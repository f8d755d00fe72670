import TypedConfig.Proofs.Limits

/-!
# One run, whatever the host does

The host may bind values, run the machine and ask questions, in any order and as often as it likes.
The machine evaluates its chunk at most once all the same, whatever the chunk is
(`Chunk.evaluated_once`): when it has run, a further run does nothing and gives the same answer.

**During a run** the machine keeps to its limits, and its frames are in order: the root comes first
and every other frame lies in the one before it.  This holds between any two instructions and while
a host function is called, when one frame more is open (`Machine.Passes`).

**Between runs** nothing is on the data stack and no scope is open (`Machine.Idle`), however the
last run has ended.
-/

namespace TypedConfig

/-! ## What the host may do -/

/-- A call that the host makes on a machine. -/
inductive HostAction where
  | bind (b : HostBinding)
  | run
  /-- A question: for a binding or a type, for all bindings or their JSON, for whether the machine
  has halted or how it has failed. -/
  | ask

namespace HostAction

/-- The machine after the call.  The answer to a question is a function of the machine, so a
question changes nothing. -/
def apply (m : Machine) : HostAction → Machine
  | bind b => b.apply m
  | run => m.run
  | ask => m

/-- What the call binds. -/
def entry? : HostAction → Option (String × Value)
  | bind b => some b.entry
  | run | ask => none

end HostAction

namespace Machine

/-- The machine after the calls of the host, in order. -/
def after (m : Machine) (actions : List HostAction) : Machine := actions.foldl HostAction.apply m

/-- What a run gives: the error that an earlier run has ended with, or else how the code ends. -/
def answer (m : Machine) : Option RuntimeError := m.failure.or (runToEnd m.pending m.state).2

/-- A machine that has failed keeps the error that it gives. -/
lemma failure_run_eq_answer (m : Machine) : m.run.failure = m.answer := by
  cases hfailure : m.failure with
  | none => rw [failure_run hfailure, answer, hfailure, Option.none_or]
  | some e =>
      rw [answer, run, hfailure, Option.some_or]
      exact hfailure

end Machine

/-! ## Numbered frames -/

namespace CallStack

/-- The frame of the given number, counted from the root. -/
def frame? (s : CallStack) (number : Nat) : Option Frame := s.frames.reverse[number]?

lemma frame?_zero (s : CallStack) : s.frame? 0 = some s.root := by
  rw [frame?, frames, List.reverse_append]
  rfl

lemma parent_of_linked {fs : List Frame} (h : LinkedFrames fs) {number : Nat} {f : Frame}
    (hf : fs.reverse[number + 1]? = some f) : f.parent = some number := by
  induction fs with
  | nil => cases hf
  | cons g fs ih =>
      rw [List.reverse_cons] at hf
      by_cases hnumber : number + 1 < fs.length
      · rw [List.getElem?_append_left (by rwa [List.length_reverse])] at hf
        cases fs with
        | nil => cases hf
        | cons g' fs => exact ih h.2 hf
      · -- no other frame has so high a number, so it is that of the innermost one
        rw [List.getElem?_append_right (by rw [List.length_reverse]; omega), List.length_reverse]
          at hf
        obtain ⟨hlast, hg⟩ := List.getElem?_eq_some_iff.mp hf
        rw [List.length_singleton] at hlast
        cases fs with
        | nil =>
            rw [List.length_nil] at hlast
            omega
        | cons g' fs =>
            rw [List.length_cons] at hnumber hlast
            have hg' : g = f := by simpa using hg
            rw [← hg', h.1]
            congr 1
            omega

lemma parent_root {s : CallStack} (h : s.Linked) : s.root.parent = none := by
  obtain ⟨inner, root⟩ := s
  induction inner with
  | nil => exact h
  | cons f fs ih => exact ih (linked_of_cons h)

lemma kind_root_updateCurrent {f : Frame → Frame} (hf : ∀ x, (f x).kind = x.kind)
    (s : CallStack) : (s.updateCurrent f).root.kind = s.root.kind := by
  obtain ⟨inner, root⟩ := s
  cases inner with
  | nil => exact hf root
  | cons g gs => rfl

end CallStack

/-! ## Keeping to the limits -/

namespace RunState

/-- Whether a state keeps to the limits and its frames are in order. -/
structure Within (l : Limits) (s : RunState) : Prop where
  cells : s.stack.size ≤ l.maxCells
  depth : s.frames.depth ≤ max 1 l.maxFrames
  root : ∃ f, s.frames.frame? 0 = some f ∧ f.kind = .root ∧ f.parent = none
  parent : ∀ number f, s.frames.frame? (number + 1) = some f → f.parent = some number

/-- What every step of a run preserves. -/
structure Sound (l : Limits) (s : RunState) : Prop where
  limits : s.limits = l
  room : s.InRoom
  depth : s.frames.depth ≤ max 1 l.maxFrames
  linked : s.frames.Linked
  root : s.frames.root.kind = .root

namespace Sound

variable {l : Limits} {s t : RunState}

lemma within (h : s.Sound l) : s.Within l where
  cells := by
    rw [← h.limits]
    exact h.room
  depth := h.depth
  root := ⟨s.frames.root, s.frames.frame?_zero, h.root, CallStack.parent_root h.linked⟩
  parent _ _ hf := CallStack.parent_of_linked h.linked hf

lemma updateFrame (h : s.Sound l) {f : Frame → Frame} (hparent : ∀ x, (f x).parent = x.parent)
    (hkind : ∀ x, (f x).kind = x.kind) : (s.updateFrame f).Sound l where
  limits := h.limits
  room := h.room
  depth := (CallStack.depth_updateCurrent s.frames f).symm ▸ h.depth
  linked := CallStack.linked_updateCurrent hparent h.linked
  root := (CallStack.kind_root_updateCurrent hkind s.frames).trans h.root

/-- A frame may be opened where there is room for it. -/
lemma push (h : s.Sound l) (hdepth : s.frames.depth + 1 ≤ l.maxFrames) (kind : FrameKind)
    (name : String) (span : Span) :
    ({ s with frames := s.frames.push kind name span } : RunState).Sound l where
  limits := h.limits
  room := h.room
  depth := Nat.le_trans hdepth (Nat.le_max_right _ _)
  linked := CallStack.linked_push h.linked kind name span
  root := h.root

lemma closeScope (h : s.Sound l) : (Effect.closeScope.apply s).Sound l := by
  obtain ⟨stack, ⟨inner, root⟩, maxFrames, calls⟩ := s
  cases inner with
  | nil => exact h
  | cons f fs =>
      exact ⟨h.limits, h.room, Nat.le_of_succ_le h.depth, CallStack.linked_of_cons h.linked, h.root⟩

/-- Only the instruction that opens a scope adds a frame, and it asks for room. -/
lemma demand_of_openScope {i : Instr} {name : String} {span : Span}
    (h : i.Allows (.openScope name span)) (frames : CallStack) :
    i.demand frames = frames.depth + 1 := by
  cases i with
  | openScope => rfl
  | bindType | store | call => simp [Instr.Allows] at h
  | _ => cases h

/-- A step keeps a state sound. -/
lemma execute {i : Instr} {next : Option Instr} {span : Span} (hs : s.Sound l)
    (h : i.execute next span s = .ok ((), t)) : t.Sound l := by
  obtain ⟨hroom, hlimits, hdemand⟩ := Instr.inRoom_of_execute hs.room h
  obtain ⟨stack, effect, hallows, hlimit, rfl⟩ := Instr.execute_ok h
  have hmax : s.maxFrames = l.maxFrames := congrArg Limits.maxFrames hs.limits
  have hstack : (s.withStack stack).Sound l := by
    refine ⟨?_, ?_, hs.depth, hs.linked, hs.root⟩
    · rw [← hs.limits, ← hlimits]
      cases effect <;> rfl
    · cases effect <;> exact hroom
  cases effect with
  | none => exact hstack
  | call c => exact ⟨hstack.limits, hstack.room, hstack.depth, hstack.linked, hstack.root⟩
  | bind name v => exact hstack.updateFrame (fun _ => rfl) fun _ => rfl
  | bindType name t => exact hstack.updateFrame (fun _ => rfl) fun _ => rfl
  | openScope name span' =>
      rw [demand_of_openScope hallows, hmax] at hdemand
      exact hstack.push hdemand .block name span'
  | closeScope => exact hstack.closeScope

/-- So does the run of a piece of code, up to where it ends or fails. -/
lemma runCode (hs : s.Sound l) (next : Option Instr) (code : Code) :
    (TypedConfig.runCode next code s).1.Sound l := by
  induction code generalizing s with
  | nil => exact hs
  | cons p code ih =>
      obtain ⟨i, span⟩ := p
      rw [TypedConfig.runCode]
      cases hexec : i.execute (firstOf code next) span s with
      | error fault => exact hs
      | ok r => exact ih (hs.execute hexec)

/-- So does a whole run: the check at the end changes nothing. -/
lemma runToEnd (hs : s.Sound l) (code : Code) : (TypedConfig.runToEnd code s).1.Sound l := by
  have hend := hs.runCode none code
  rw [TypedConfig.runToEnd]
  rcases hrun : TypedConfig.runCode none code s with ⟨t, _ | e⟩ <;> rw [hrun] at hend <;> exact hend

lemma unwound (hs : s.Sound l) : s.unwound.Sound l where
  limits := hs.limits
  room := Nat.zero_le _
  depth := Nat.le_max_left _ _
  linked := by
    have hroot := CallStack.parent_root hs.linked
    exact hroot
  root := hs.root

end Sound

lemma isSettled_iff {s : RunState} :
    s.isSettled = true ↔ s.stack.cells = [] ∧ s.frames.inner = [] := by
  simp [isSettled, DataStack.isEmpty, CallStack.depth]

end RunState

/-- Where a run ends well, nothing is left. -/
lemma settled_of_runToEnd {code : Code} {s t : RunState} (h : runToEnd code s = (t, none)) :
    t.stack.cells = [] ∧ t.frames.inner = [] := by
  rw [runToEnd] at h
  rcases hrun : runCode none code s with ⟨u, _ | e⟩
  · rw [hrun] at h
    obtain ⟨rfl, hnone⟩ := Prod.mk.inj h
    cases hsettled : u.isSettled with
    | true => exact RunState.isSettled_iff.mp hsettled
    | false =>
        rw [hsettled] at hnone
        cases hnone
  · rw [hrun] at h
    cases h

/-! ## Calls -/

namespace Step

/-- Begins a call: takes what is called and the arguments, and opens a frame for the call.  In the
state that this leaves the host function is called. -/
def enterCall (count : Nat) (span : Span) : Step Call := do
  let (callee, receiver) ← popCallee
  match callee.payload with
  | .function f =>
    let arguments ← popArguments count []
    roomForFrame
    modify fun s => { s with frames := s.frames.push .function f.name span }
    return ⟨f, receiver ++ arguments⟩
  | _ => throw (.notCallable callee.type.fullName)

/-- Ends a call: closes the innermost frame and records the call. -/
def leaveCall (c : Call) : Step Unit := do
  let (_, frames) ← (← get).frames.pop
  modify fun s => { s with frames, calls := s.calls ++ [c] }

/-- A call that is made with a frame of its own is the call as a single step. -/
theorem call_eq_enter_leave (count : Nat) (span : Span) :
    call count = (enterCall count span >>= leaveCall) := by
  rw [call, enterCall, bind_assoc]
  refine congrArg _ (funext fun callee => ?_)
  dsimp only
  cases callee.1.payload with
  | function f =>
      simp only [bind_assoc, pure_bind]
      refine congrArg _ (funext fun arguments => congrArg _ (funext fun _ => ?_))
      rfl
  | _ => rfl

lemma bind_ok {α β : Type} {x : Step α} {f : α → Step β} {s : RunState} {r : β × RunState}
    (h : (x >>= f) s = .ok r) : ∃ a t, x s = .ok (a, t) ∧ f a t = .ok r := by
  rw [bind_eq] at h
  obtain ⟨⟨a, t⟩, hx, hf⟩ := bind_eq_ok.mp h
  exact ⟨a, t, hx, hf⟩

/-- What takes cells away does nothing else if it succeeds. -/
lemma Shrinks.ok {α : Type} {x : Step α} (hx : Shrinks x) {s t : RunState} {a : α}
    (h : x s = .ok (a, t)) : ∃ cs, cs.length ≤ s.stack.size ∧ t = s.withCells cs := by
  rcases hx s with ⟨fault, hfault⟩ | ⟨b, cs, hlength, hok⟩
  · have hown := hfault s.limits
    rw [RunState.under_limits, h] at hown
    cases hown
  · have hown := hok s.limits
    rw [RunState.under_limits, h] at hown
    cases hown
    exact ⟨cs, hlength, rfl⟩

/-- The frame of a call is opened where there is room for it. -/
lemma enterCall_ok {count : Nat} {span : Span} {s t : RunState} {c : Call}
    (h : enterCall count span s = .ok (c, t)) :
    ∃ cs, cs.length ≤ s.stack.size ∧ s.frames.depth + 1 ≤ s.maxFrames ∧
      t = { s.withCells cs with frames := s.frames.push .function c.function.name span } := by
  obtain ⟨callee, u, hcallee, h⟩ := bind_ok h
  obtain ⟨cs, hlength, rfl⟩ := shrinks_popCallee.ok hcallee
  obtain ⟨v, receiver⟩ := callee
  dsimp only at h
  cases hpayload : v.payload with
  | function f =>
      rw [hpayload] at h
      obtain ⟨arguments, u, harguments, h⟩ := bind_ok h
      obtain ⟨cs', hlength', rfl⟩ := (shrinks_popArguments count []).ok harguments
      obtain ⟨_, u, hroom, h⟩ := bind_ok h
      by_cases hframe : s.maxFrames ≤ s.frames.depth
      · rw [roomForFrame_full (s := (s.withCells cs).withCells cs') hframe] at hroom
        cases hroom
      · rw [roomForFrame_free (s := (s.withCells cs).withCells cs') hframe] at hroom
        cases hroom
        cases h
        exact ⟨cs', Nat.le_trans hlength' hlength, Nat.not_le.mp hframe, rfl⟩
  | _ =>
      rw [hpayload] at h
      cases h

end Step

/-! ## During a run -/

/-- The states that a run passes through: between two instructions, and when a host function is
called. -/
inductive Machine.Passes (m : Machine) : RunState → Prop
  | between {done rest : Code} {s : RunState} (h : m.Reaches done rest s) : m.Passes s
  | calling {done rest : Code} {count : Nat} {span : Span} {s t : RunState} {c : Call}
      (h : m.Reaches done ((.call count, span) :: rest) s)
      (hcall : Step.enterCall count span s = .ok (c, t)) : m.Passes t

lemma Machine.Passes.within {m : Machine} {l : Limits} (hm : m.state.Sound l) {s : RunState}
    (h : m.Passes s) : s.Within l := by
  have hreached {done rest : Code} {s : RunState} (h : m.Reaches done rest s) : s.Sound l := by
    have hs := hm.runCode (firstOf rest none) done
    rwa [h.run] at hs
  cases h with
  | between h => exact (hreached h).within
  | @calling done rest count span s t c h hcall =>
      have hs := hreached h
      obtain ⟨cs, hlength, hdepth, rfl⟩ := Step.enterCall_ok hcall
      have hcells : (s.withCells cs).Sound l :=
        ⟨hs.limits, Nat.le_trans hlength hs.room, hs.depth, hs.linked, hs.root⟩
      rw [show s.maxFrames = l.maxFrames from congrArg Limits.maxFrames hs.limits] at hdepth
      exact (hcells.push hdepth .function c.function.name span).within

/-! ## Between runs -/

namespace Machine

/-- Whether a machine is as the host finds it: nothing is on the data stack, no scope is open, and
if it has failed, no instruction is left. -/
structure Idle (l : Limits) (m : Machine) : Prop where
  sound : m.state.Sound l
  cells : m.state.stack.cells = []
  inner : m.state.frames.inner = []
  failed : m.failure.isSome = true → m.pending = []

variable {l : Limits} {m : Machine}

lemma idle_ofChunk (c : Chunk) (l : Limits) : (ofChunk c l).Idle l where
  sound := ⟨rfl, Nat.zero_le _, Nat.le_max_left _ _, rfl, rfl⟩
  cells := rfl
  inner := rfl
  failed h := by cases h

lemma apply_eq_set (m : Machine) (b : HostBinding) : b.apply m = m.set b.entry.1 b.entry.2 := by
  cases b <;> rfl

lemma Idle.set (h : m.Idle l) (name : String) (v : Value) : (m.set name v).Idle l := by
  obtain ⟨pending, ⟨stack, ⟨inner, root⟩, maxFrames, calls⟩, failure⟩ := m
  cases h.inner
  have hroot : root.parent = none := h.sound.linked
  refine ⟨⟨h.sound.limits, h.sound.room, h.sound.depth, hroot, h.sound.root⟩, h.cells, rfl,
    h.failed⟩

/-- A run leaves nothing behind, whether it ends well, with an error, or with an error because
something is left over. -/
lemma Idle.run (h : m.Idle l) : m.run.Idle l ∧ m.run.pending = [] := by
  cases hfailure : m.failure with
  | some e =>
      rw [Machine.run, hfailure]
      exact ⟨h, h.failed (hfailure ▸ rfl)⟩
  | none =>
      have hend := h.sound.runToEnd m.pending
      rw [Machine.run, hfailure]
      rcases hrun : runToEnd m.pending m.state with ⟨s, _ | e⟩ <;> rw [hrun] at hend
      · obtain ⟨hcells, hinner⟩ := settled_of_runToEnd hrun
        exact ⟨⟨hend, hcells, hinner, fun _ => rfl⟩, rfl⟩
      · exact ⟨⟨hend.unwound, rfl, rfl, fun _ => rfl⟩, rfl⟩

lemma Idle.apply (h : m.Idle l) (a : HostAction) : (a.apply m).Idle l := by
  cases a with
  | bind b =>
      rw [HostAction.apply, apply_eq_set]
      exact h.set _ _
  | run => exact h.run.1
  | ask => exact h

lemma Idle.after (h : m.Idle l) (actions : List HostAction) : (m.after actions).Idle l := by
  induction actions generalizing m with
  | nil => exact h
  | cons a actions ih => exact ih (h.apply a)

/-! ## After a run -/

/-- Without instructions a run does nothing. -/
lemma Idle.run_of_pending (h : m.Idle l) (hpending : m.pending = []) : m.run = m := by
  obtain ⟨pending, state, failure⟩ := m
  cases hpending
  cases failure with
  | some e => rfl
  | none =>
      have hsettled : state.isSettled = true := RunState.isSettled_iff.mpr ⟨h.cells, h.inner⟩
      rw [Machine.run]
      dsimp only
      rw [runToEnd, runCode]
      dsimp only
      rw [if_pos hsettled]

/-- When a machine has run, all that the host can still change are the values in the root frame. -/
lemma Idle.after_of_pending (h : m.Idle l) (hpending : m.pending = []) (later : List HostAction) :
    m.after later = { m with state := { m.state with frames := m.state.frames.updateRoot fun f =>
      { f with values := f.values.setAll (later.filterMap HostAction.entry?) } } } := by
  induction later generalizing m with
  | nil => rfl
  | cons a later ih =>
      have hafter : m.after (a :: later) = (a.apply m).after later := rfl
      rw [hafter]
      cases a with
      | bind b =>
          have hset : (HostAction.bind b).apply m = m.set b.entry.1 b.entry.2 := apply_eq_set m b
          rw [hset, ih (h.set _ _) hpending]
          rfl
      | run =>
          have hrun : HostAction.run.apply m = m := h.run_of_pending hpending
          rw [hrun]
          exact ih h hpending
      | ask => exact ih h hpending

end Machine

/-- A machine evaluates its chunk at most once, whatever the chunk and the limits are and whatever
the host has done `before` a run.  Let `m` be the machine then.

* During the run every state keeps to the limits and has its frames in order.
* The run gives the error that the machine keeps, or none if it keeps none.
* After the run and whatever the host does `later`, nothing is on the data stack, no scope is open,
  and the machine has halted; it keeps the same error or none, a further run gives the same again
  and leaves the machine exactly as it is; the values in the root frame are those of the run and
  what the host has bound since, and the types and the calls are those of the run. -/
theorem Chunk.evaluated_once (c : Chunk) (l : Limits) (before : List HostAction) :
    let m := (Machine.ofChunk c l).after before
    (∀ s, m.Passes s → s.Within l) ∧ m.run.failure = m.answer ∧
    ∀ later, let m' := m.run.after later
      m'.state.stack.cells = [] ∧ m'.state.frames.inner = [] ∧ m'.state.Within l ∧
      m'.isHalted = true ∧ m'.failure = m.answer ∧ m'.answer = m.answer ∧ m'.run = m' ∧
      m'.globals = m.run.globals.setAll (later.filterMap HostAction.entry?) ∧
      m'.state.frames.root.types = m.run.state.frames.root.types ∧
      m'.state.calls = m.run.state.calls := by
  intro m
  have hidle : m.Idle l := (Machine.idle_ofChunk c l).after before
  obtain ⟨hrun, hpending⟩ := hidle.run
  refine ⟨fun s hs => hs.within hidle.sound, m.failure_run_eq_answer, ?_⟩
  intro later m'
  have hlater : m'.Idle l := hrun.after later
  have heq : m' = _ := hrun.after_of_pending hpending later
  have hpending' : m'.pending = [] := by rw [heq]; exact hpending
  have hfailure : m'.failure = m.answer := by
    rw [heq]
    exact m.failure_run_eq_answer
  have hsame : m'.run = m' := hlater.run_of_pending hpending'
  refine ⟨hlater.cells, hlater.inner, hlater.sound.within, ?_, hfailure, ?_, hsame, ?_, ?_, ?_⟩
  · rw [Machine.isHalted, hpending', List.isEmpty_nil]
  · rw [← m'.failure_run_eq_answer, hsame, hfailure]
  · rw [heq]
    rfl
  · rw [heq]
    rfl
  · rw [heq]

end TypedConfig
