import TypedConfig.Proofs.Accepted
import TypedConfig.Proofs.Scopes

/-!
# From the host's bindings to the end of a run

**Before a run** the host binds values and functions in the root frame.  All that this changes is
which values the root frame binds (`Machine.prepare_eq`).

**During a run** the machine passes through states.  `Machine.Reaches` says that it comes to a state
after executing `done` and with `rest` still ahead; the code has no jumps, so that also says where
in the program it is.

**After a run** its outcome is the failure, if there is one, what the root frame binds and the calls
made (`Machine.outcome_run`).
-/

namespace TypedConfig

/-! ## Before a run -/

/-- A binding that the host makes in the root frame. -/
inductive HostBinding where
  | set (name : String) (v : Value)
  | register (f : Function)

namespace HostBinding

/-- The name that is bound, and its value. -/
def entry : HostBinding → String × Value
  | set name v => (name, v)
  | register f => (f.name, .function f)

/-- Makes the binding. -/
def apply (m : Machine) : HostBinding → Machine
  | set name v => m.set name v
  | register f => m.register f

end HostBinding

namespace Machine

/-- Makes the bindings of the host, in order. -/
def prepare (m : Machine) (host : List HostBinding) : Machine := host.foldl HostBinding.apply m

lemma prepare_eq (host : List HostBinding) (m : Machine) :
    m.prepare host = { m with state := { m.state with frames := m.state.frames.updateRoot fun f =>
      { f with values := f.values.setAll (host.map (·.entry)) } } } := by
  induction host generalizing m with
  | nil => rfl
  | cons b host ih =>
      have hcons : m.prepare (b :: host) = (HostBinding.apply m b).prepare host := rfl
      rw [hcons, ih]
      cases b <;> rfl

end Machine

/-- Makes a machine for a chunk, with the bindings of the host. -/
def Chunk.machine (c : Chunk) (limits : Limits) (host : List HostBinding) : Machine :=
  (Machine.ofChunk c limits).prepare host

lemma Chunk.pending_machine (c : Chunk) (limits : Limits) (host : List HostBinding) :
    (c.machine limits host).pending = c.located := by
  rw [machine, Machine.prepare_eq]
  rfl

lemma Chunk.failure_machine (c : Chunk) (limits : Limits) (host : List HostBinding) :
    (c.machine limits host).failure = none := by
  rw [machine, Machine.prepare_eq]
  rfl

/-- The root frame when a run begins. -/
def hostRoot (host : List HostBinding) : Frame :=
  { CallStack.empty.root with values := Bindings.setAll [] (host.map (·.entry)) }

/-- The state in which a run begins. -/
def RunState.hosted (limits : Limits) (host : List HostBinding) : RunState where
  stack := .empty limits.maxCells
  frames := { root := hostRoot host }
  maxFrames := limits.maxFrames

lemma Chunk.state_machine (c : Chunk) (limits : Limits) (host : List HostBinding) :
    (c.machine limits host).state = .hosted limits host := by
  rw [machine, Machine.prepare_eq]
  rfl

/-- What a name is bound to is what it was bound to before or last. -/
lemma Bindings.mem_set {α : Type} {b : Bindings α} {name : String} {x : α} {e : String × α}
    (h : e ∈ b.set name x) : e = (name, x) ∨ e ∈ b := by
  induction b with
  | nil => exact Or.inl (List.mem_singleton.mp h)
  | cons p b ih =>
      simp only [Bindings.set] at h
      split at h <;> rename_i hname
      · rcases List.mem_cons.mp h with rfl | h
        · exact Or.inl (by rw [hname])
        · exact Or.inr (List.mem_cons_of_mem _ h)
      · rcases List.mem_cons.mp h with rfl | h
        · exact Or.inr List.mem_cons_self
        · exact (ih h).imp_right (List.mem_cons_of_mem _)

lemma Bindings.mem_setAll {α : Type} {b : Bindings α} {entries : List (String × α)}
    {e : String × α} (h : e ∈ b.setAll entries) : e ∈ b ∨ e ∈ entries := by
  induction entries generalizing b with
  | nil => exact Or.inl h
  | cons x entries ih =>
      rcases ih h with h | h
      · rcases mem_set h with rfl | h
        · exact Or.inr List.mem_cons_self
        · exact Or.inl h
      · exact Or.inr (List.mem_cons_of_mem _ h)

lemma Bindings.mem_of_get? {α : Type} {b : Bindings α} {name : String} {x : α}
    (h : b.get? name = some x) : (name, x) ∈ b := by
  induction b with
  | nil => cases h
  | cons p b ih =>
      obtain ⟨n, y⟩ := p
      simp only [Bindings.get?] at h
      split at h <;> rename_i hname
      · cases h
        rw [hname]
        exact List.mem_cons_self
      · exact List.mem_cons_of_mem _ (ih h)

/-- The root frame binds nothing but what the host has bound. -/
lemma mem_hostRoot {host : List HostBinding} {e : String × Value}
    (h : e ∈ (hostRoot host).values) : ∃ b ∈ host, b.entry = e := by
  rcases Bindings.mem_setAll h with h | h
  · cases h
  · exact List.mem_map.mp h

/-! ## During a run -/

/-- The run of the machine has executed `done` and come to the state `s`, with `rest` still to
come. -/
structure Machine.Reaches (m : Machine) (done rest : Code) (s : RunState) : Prop where
  code : m.pending = done ++ rest
  run : runCode (firstOf rest none) done m.state = (s, none)

/-- A run that gets through the code `done` reaches the state in which it ends. -/
lemma Machine.reaches_of_run {m : Machine} {done rest : Code} (hcode : m.pending = done ++ rest)
    (hrun : (runCode (firstOf rest none) done m.state).2 = none) :
    m.Reaches done rest (runCode (firstOf rest none) done m.state).1 :=
  ⟨hcode, Prod.ext rfl hrun⟩

/-- Between two states that are reached, the code between them is executed. -/
lemma Machine.Reaches.between {m : Machine} {before code after : Code} {s t : RunState}
    (hs : m.Reaches before (code ++ after) s) (ht : m.Reaches (before ++ code) after t) :
    runCode (firstOf after none) code s = (t, none) := by
  have hbefore := hs.run
  have hall := ht.run
  rw [firstOf_append] at hbefore
  rw [runCode_append, hbefore] at hall
  exact hall

/-! ## After a run -/

/-- What the host can see of a run. -/
structure Outcome where
  failure : Option RuntimeError
  globals : Bindings Value
  types : Bindings DataType
  calls : List Call

/-- What the host can see of a machine. -/
def Machine.outcome (m : Machine) : Outcome :=
  ⟨m.failure, m.globals, m.state.frames.root.types, m.state.calls⟩

lemma Machine.outcome_run {m : Machine} (h : m.failure = none) :
    m.run.outcome = ⟨(runToEnd m.pending m.state).2,
      (runToEnd m.pending m.state).1.frames.root.values,
      (runToEnd m.pending m.state).1.frames.root.types,
      (runToEnd m.pending m.state).1.calls⟩ := by
  rw [run, h]
  dsimp only
  rcases hrun : runToEnd m.pending m.state with ⟨s, _ | e⟩ <;> rfl

lemma Machine.failure_run {m : Machine} (h : m.failure = none) :
    m.run.failure = (runToEnd m.pending m.state).2 :=
  congrArg Outcome.failure (outcome_run h)

/-! ## A program to look at -/

/-- A program with a shape, a new object that leaves a field out, and a method called in a scope:
`type Point: object { x: int label: string? } let p: Point = new { x = 1 }` and then
`inner { let q: Point = p q.show(q.x) }`. -/
def Block.sample : Block where
  statements := [
    Stmt.typedef "Point" (.object [⟨"x", .named "int" {}, {}⟩,
      ⟨"label", { TypeExpr.named "string" {} with isOptional := true }, {}⟩] {}) {},
    .binding "p" (.named "Point" {}) (some (.object [⟨"x", .literal (.integer 1) {}, {}⟩] {})) {},
    .scope "inner" [
      .binding "q" (.named "Point" {}) (some (.name "p" {})) {},
      .effect (.call (.member (.name "q" {}) "show" {}) [.member (.name "q" {}) "x" {}] {}) {}]
      {} {}]
  span := {}

lemma Block.compile_sample : ∃ c, sample.compile = .ok c := ⟨_, rfl⟩

/-- The one function that the program calls. -/
def sampleFunctions : List Function := [⟨"Point_show", .recorded⟩]

def sampleHost : List HostBinding := sampleFunctions.map .register

end TypedConfig
