import TypedConfig.Proofs.Execution

/-!
# The call stack as a stack of scopes

A frame carries the number of the frame around it, and a lookup follows these numbers.  Nothing else
depends on them: as long as every frame is linked to the one below it (`CallStack.Linked`), a lookup
goes through the frames in order, and all that counts of a frame is what it binds (`Scope`).

`CallStack.scopes` forgets the links.  One lemma for each operation says what it does to the scopes.
-/

namespace TypedConfig

/-- What one scope binds. -/
structure Scope where
  values : Bindings Value := []
  types : Bindings DataType := []

/-- The open scopes, the innermost first, and the root around them. -/
structure Scopes where
  inner : List Scope := []
  root : Scope := {}

namespace Scopes

/-- All scopes, the innermost first. -/
def all (s : Scopes) : List Scope := s.inner ++ [s.root]

/-- The value that a name is bound to in the innermost scope that binds it. -/
def value? (s : Scopes) (name : String) : Option Value :=
  s.all.findSome? fun c => c.values.get? name

/-- The type that a name is bound to in the innermost scope that binds it. -/
def type? (s : Scopes) (name : String) : Option DataType :=
  s.all.findSome? fun c => c.types.get? name

/-- A new innermost scope that binds nothing. -/
def opened (s : Scopes) : Scopes := { s with inner := {} :: s.inner }

/-- The scopes without the innermost one. -/
def closed (s : Scopes) : Scopes := { s with inner := s.inner.tail }

/-- A change of the innermost scope. -/
def update (f : Scope → Scope) (s : Scopes) : Scopes :=
  match s.inner with
  | [] => { s with root := f s.root }
  | c :: cs => { s with inner := f c :: cs }

/-- Binds a value in the innermost scope. -/
def bind (s : Scopes) (name : String) (v : Value) : Scopes :=
  s.update fun c => { c with values := c.values.set name v }

/-- Binds a type in the innermost scope. -/
def bindType (s : Scopes) (name : String) (t : DataType) : Scopes :=
  s.update fun c => { c with types := c.types.set name t }

end Scopes

/-- What a frame binds. -/
def Frame.scope (f : Frame) : Scope := ⟨f.values, f.types⟩

namespace CallStack

/-- What the frames bind. -/
def scopes (s : CallStack) : Scopes := ⟨s.inner.map Frame.scope, s.root.scope⟩

/-- Whether every frame is linked to the one that follows it, and the last one to none. -/
def LinkedFrames : List Frame → Prop
  | [] => True
  | [f] => f.parent = none
  | f :: g :: fs => f.parent = some fs.length ∧ LinkedFrames (g :: fs)

/-- Whether every frame is linked to the one around it. -/
def Linked (s : CallStack) : Prop := LinkedFrames s.frames

/-- The links lead through all frames in order. -/
lemma walk_of_linked : ∀ {f : Frame} {fs : List Frame}, LinkedFrames (f :: fs) →
    walk (f :: fs) (some fs.length) = f :: fs
  | f, [], h => by simp [walk]
  | f, g :: fs, h => by
      obtain ⟨hparent, hrest⟩ := h
      rw [walk, if_pos rfl, hparent, walk_of_linked hrest]

lemma chain_of_linked {s : CallStack} (h : s.Linked) : s.chain = s.frames := by
  obtain ⟨inner, root⟩ := s
  cases inner with
  | nil => exact walk_of_linked h
  | cons f fs =>
      have hlength : (f :: fs).length = (fs ++ [root]).length := by simp
      rw [chain, frames, hlength]
      exact walk_of_linked h

/-- Whatever the links are, a lookup sees only frames that are open. -/
lemma mem_of_mem_walk {f : Frame} : ∀ {fs : List Frame} {link : Option Nat},
    f ∈ walk fs link → f ∈ fs
  | [], _, h => h
  | g :: fs, link, h => by
      simp only [walk] at h
      split at h
      · rcases List.mem_cons.mp h with rfl | h
        · exact List.mem_cons_self
        · exact List.mem_cons_of_mem _ (mem_of_mem_walk h)
      · exact List.mem_cons_of_mem _ (mem_of_mem_walk h)

lemma get?_eq_value? {s : CallStack} (h : s.Linked) (name : String) :
    s.get? name = s.scopes.value? name := by
  rw [get?, chain_of_linked h, Scopes.value?, Scopes.all, scopes, frames,
    ← List.map_singleton (f := Frame.scope), ← List.map_append, List.findSome?_map]
  rfl

lemma getType?_eq_type? {s : CallStack} (h : s.Linked) (name : String) :
    s.getType? name = s.scopes.type? name := by
  rw [getType?, chain_of_linked h, Scopes.type?, Scopes.all, scopes, frames,
    ← List.map_singleton (f := Frame.scope), ← List.map_append, List.findSome?_map]
  rfl

/-! ## What the operations do -/

lemma scopes_updateCurrent {s : CallStack} {f : Frame → Frame} {g : Scope → Scope}
    (h : ∀ x, (f x).scope = g x.scope) : (s.updateCurrent f).scopes = s.scopes.update g := by
  obtain ⟨inner, root⟩ := s
  cases inner <;> simp [updateCurrent, scopes, Scopes.update, h]

lemma linked_push {s : CallStack} (h : s.Linked) (kind : FrameKind) (name : String)
    (span : Span) : (s.push kind name span).Linked := by
  obtain ⟨inner, root⟩ := s
  cases inner with
  | nil => exact ⟨rfl, h⟩
  | cons f fs => exact ⟨by simp [depth], h⟩

lemma linked_updateCurrent {s : CallStack} {f : Frame → Frame}
    (hf : ∀ x, (f x).parent = x.parent) (h : s.Linked) : (s.updateCurrent f).Linked := by
  obtain ⟨inner, root⟩ := s
  rcases inner with _ | ⟨g, _ | ⟨g', gs⟩⟩
  · exact (hf root).trans h
  · exact ⟨(hf g).trans h.1, h.2⟩
  · exact ⟨(hf g).trans h.1, h.2⟩

lemma linked_of_cons {f : Frame} {fs : List Frame} {root : Frame}
    (h : (CallStack.mk (f :: fs) root).Linked) : (CallStack.mk fs root).Linked := by
  cases fs with
  | nil => exact h.2
  | cons g gs => exact h.2

end CallStack

end TypedConfig
