import Mathlib.Data.List.ModifyLast
import Mathlib.Tactic.Common
import TypedConfig.Proofs.Scopes

/-!
# What can be done with a call stack

Frames can be opened and closed, all of them at once if need be, and the innermost frame and the
root can be written to.  In whatever order this is done, the call stack is a list of scopes with the
innermost first and the root last (`CallStack.behaves_as_scopes`).

**Actions.** A `FrameAction` is one of these things.  `FrameAction.perform` does it to a call stack
and `FrameAction.onScopes` says what it is to a list of scopes; the two agree on every call stack.

**Links.** A lookup does not know of the list: it goes from a frame to the frame whose number is
written in it.  `CallStack.Leads` says where that leads, and on a call stack that is linked it leads
through every frame once and ends at the root.

**Balance.** Actions that close what they open and write to nothing else are `Balanced`.  They leave
the call stack as it was, since all that they do is done to frames above it.
-/

namespace TypedConfig

/-- What can be done with a call stack: a frame is opened or closed, all frames but the root are
closed, or a value or type is bound in the innermost frame or the root. -/
inductive FrameAction where
  | push (kind : FrameKind) (name : String) (span : Span)
  | pop
  | unwind
  | bind (name : String) (v : Value)
  | bindType (name : String) (t : DataType)
  | bindRoot (name : String) (v : Value)
  | bindRootType (name : String) (t : DataType)

/-- Binds a value in a scope. -/
def Scope.bind (name : String) (v : Value) (c : Scope) : Scope :=
  { c with values := c.values.set name v }

/-- Binds a type in a scope. -/
def Scope.bindType (name : String) (t : DataType) (c : Scope) : Scope :=
  { c with types := c.types.set name t }

namespace FrameAction

/-- The call stack after an action, unless the action fails. -/
def perform (s : CallStack) : FrameAction → Except RuntimeFault CallStack
  | push kind name span => return s.push kind name span
  | pop => do
    let (_, t) ← s.pop
    return t
  | unwind => return s.unwind
  | bind name v => return s.updateCurrent (Frame.bind name v)
  | bindType name t => return s.updateCurrent (Frame.bindType name t)
  | bindRoot name v => return s.updateRoot (Frame.bind name v)
  | bindRootType name t => return s.updateRoot (Frame.bindType name t)

/-- What an action does to a list of scopes, the innermost first.  The last scope, which is the
root, cannot be removed. -/
def onScopes : FrameAction → List Scope → Option (List Scope)
  | push _ _ _, cs => some ({} :: cs)
  | pop, _ :: c :: cs => some (c :: cs)
  | pop, _ => none
  | unwind, cs => some cs.getLast?.toList
  | bind name v, cs => some (cs.modifyHead (Scope.bind name v))
  | bindType name t, cs => some (cs.modifyHead (Scope.bindType name t))
  | bindRoot name v, cs => some (cs.modifyLast (Scope.bind name v))
  | bindRootType name t, cs => some (cs.modifyLast (Scope.bindType name t))

/-- A list of scopes after actions, of which those that fail change nothing. -/
def scopesAfter (cs : List Scope) (actions : List FrameAction) : List Scope :=
  actions.foldl (fun cs a => (a.onScopes cs).getD cs) cs

end FrameAction

namespace CallStack

/-- The call stack after an action; one that fails changes nothing. -/
def act (s : CallStack) (a : FrameAction) : CallStack := (a.perform s).toOption.getD s

/-- The call stack after actions. -/
def after (s : CallStack) (actions : List FrameAction) : CallStack := actions.foldl act s

/-- The scopes of a call stack, the innermost first and the root last. -/
def scopeList (s : CallStack) : List Scope := s.scopes.all

/-! ## The list of scopes -/

lemma scopeList_updateRoot {s : CallStack} {f : Frame → Frame} {g : Scope → Scope}
    (h : ∀ x, (f x).scope = g x.scope) : (s.updateRoot f).scopeList = s.scopeList.modifyLast g := by
  obtain ⟨inner, root⟩ := s
  simp only [updateRoot, scopeList, scopes, Scopes.all, List.modifyLast_concat, h]

lemma scopeList_updateCurrent {s : CallStack} {f : Frame → Frame} {g : Scope → Scope}
    (h : ∀ x, (f x).scope = g x.scope) :
    (s.updateCurrent f).scopeList = s.scopeList.modifyHead g := by
  obtain ⟨inner, root⟩ := s
  cases inner <;> simp [updateCurrent, scopeList, scopes, Scopes.all, h]

/-- An action does to a call stack what it does to the list of its scopes, and fails where it does
nothing to the list. -/
lemma scopeList_perform (s : CallStack) (a : FrameAction) :
    (a.perform s).toOption.map scopeList = a.onScopes s.scopeList := by
  cases a with
  | push kind name span => rfl
  | pop =>
      obtain ⟨inner, root⟩ := s
      rcases inner with _ | ⟨f, _ | ⟨g, fs⟩⟩ <;> rfl
  | unwind =>
      have hlast : s.scopeList.getLast? = some s.root.scope := by
        simp [scopeList, scopes, Scopes.all]
      rw [FrameAction.onScopes, hlast]
      rfl
  | bind name v => exact congrArg some (scopeList_updateCurrent fun x => rfl)
  | bindType name t => exact congrArg some (scopeList_updateCurrent fun x => rfl)
  | bindRoot name v => exact congrArg some (scopeList_updateRoot fun x => rfl)
  | bindRootType name t => exact congrArg some (scopeList_updateRoot fun x => rfl)

/-- Only a lone root cannot be closed. -/
lemma pop_eq_error_iff (s : CallStack) : (∃ fault, s.pop = .error fault) ↔ s.depth = 1 := by
  obtain ⟨inner, root⟩ := s
  cases inner with
  | nil => exact ⟨fun _ => rfl, fun _ => ⟨_, rfl⟩⟩
  | cons f fs => exact ⟨nofun, nofun⟩

lemma scopeList_of_pop {s t : CallStack} {f : Frame} (h : s.pop = .ok (f, t)) :
    s.scopeList = f.scope :: t.scopeList := by
  obtain ⟨inner, root⟩ := s
  cases inner with
  | nil => cases h
  | cons g fs =>
      cases h
      rfl

lemma scopeList_act (s : CallStack) (a : FrameAction) :
    (s.act a).scopeList = (a.onScopes s.scopeList).getD s.scopeList := by
  rw [← scopeList_perform, act]
  cases a.perform s <;> rfl

lemma scopeList_after (s : CallStack) (actions : List FrameAction) :
    (s.after actions).scopeList = FrameAction.scopesAfter s.scopeList actions := by
  induction actions generalizing s with
  | nil => rfl
  | cons a actions ih =>
      rw [after, List.foldl_cons, ← after, ih, scopeList_act]
      rfl

/-! ## Links -/

/-- Where links lead: to the frame of the given number, counted from the first in the list, and on
from there to the frame whose number is written in it, until there is none. -/
inductive Leads (frames : List Frame) : Option Nat → List Frame → Prop where
  | stop : Leads frames none []
  | frame {i : Nat} {f : Frame} {fs : List Frame} (hf : frames[i]? = some f)
      (rest : Leads frames f.parent fs) : Leads frames (some i) (f :: fs)

/-- Links lead one way only. -/
lemma Leads.unique {frames fs gs : List Frame} {link : Option Nat} (hfs : Leads frames link fs)
    (hgs : Leads frames link gs) : fs = gs := by
  induction hfs generalizing gs with
  | stop =>
      cases hgs
      rfl
  | frame hf _ ih =>
      cases hgs with
      | frame hg rest =>
          obtain rfl := Option.some.inj (hf.symm.trans hg)
          rw [ih rest]

/-- Frames that are linked in order are led through in order, whatever is above them. -/
lemma leads_of_linkedFrames {f : Frame} {fs : List Frame} (above : List Frame)
    (h : LinkedFrames (f :: fs)) : Leads (above ++ f :: fs).reverse (some fs.length) (f :: fs) := by
  -- counted from the root, the number of a frame does not depend on what is above it
  have hf (gs : List Frame) (f : Frame) (fs : List Frame) :
      (gs ++ f :: fs).reverse[fs.length]? = some f := by
    simp
  induction fs generalizing f above with
  | nil =>
      refine .frame (hf above f []) ?_
      rw [show f.parent = none from h]
      exact .stop
  | cons g fs ih =>
      refine .frame (hf above f (g :: fs)) ?_
      rw [h.1, List.append_cons]
      exact ih (above ++ [f]) h.2

lemma linkedFrames_map_root {f : Frame → Frame} (hf : ∀ x, (f x).parent = x.parent)
    (root : Frame) : ∀ {fs : List Frame}, LinkedFrames (fs ++ [root]) →
      LinkedFrames (fs ++ [f root])
  | [], h => (hf root).trans h
  | [_], h => ⟨h.1, (hf root).trans h.2⟩
  | _ :: g :: fs, h => by
      have hrest : LinkedFrames (g :: fs ++ [f root]) := linkedFrames_map_root hf root h.2
      exact ⟨by simpa using h.1, hrest⟩

lemma linked_updateRoot {s : CallStack} {f : Frame → Frame} (hf : ∀ x, (f x).parent = x.parent)
    (h : s.Linked) : (s.updateRoot f).Linked :=
  linkedFrames_map_root hf s.root h

lemma linked_unwind {s : CallStack} (h : s.Linked) : s.unwind.Linked := by
  obtain ⟨inner, root⟩ := s
  induction inner with
  | nil => exact h
  | cons f fs ih => exact ih (linked_of_cons h)

lemma linked_act {s : CallStack} (h : s.Linked) (a : FrameAction) : (s.act a).Linked := by
  cases a with
  | push kind name span => exact linked_push h kind name span
  | pop =>
      obtain ⟨inner, root⟩ := s
      cases inner with
      | nil => exact h
      | cons f fs => exact linked_of_cons h
  | unwind => exact linked_unwind h
  | bind name v => exact linked_updateCurrent (fun _ => rfl) h
  | bindType name t => exact linked_updateCurrent (fun _ => rfl) h
  | bindRoot name v => exact linked_updateRoot (fun _ => rfl) h
  | bindRootType name t => exact linked_updateRoot (fun _ => rfl) h

lemma linked_after {s : CallStack} (h : s.Linked) (actions : List FrameAction) :
    (s.after actions).Linked := by
  induction actions generalizing s with
  | nil => exact h
  | cons a actions ih => exact ih (linked_act h a)

/-- The links of a linked call stack lead from the innermost frame through all frames. -/
lemma leads_iff_chain {s : CallStack} (h : s.Linked) (fs : List Frame) :
    Leads s.frames.reverse (some (s.depth - 1)) fs ↔ fs = s.chain := by
  have hleads : Leads s.frames.reverse (some (s.depth - 1)) s.chain := by
    rw [chain_of_linked h]
    obtain ⟨inner, root⟩ := s
    cases inner with
    | nil => exact leads_of_linkedFrames [] h
    | cons f fs =>
        have hdepth : (CallStack.mk (f :: fs) root).depth - 1 = (fs ++ [root]).length := by
          simp [depth]
        rw [hdepth]
        exact leads_of_linkedFrames [] h
  exact ⟨fun hfs => hfs.unique hleads, fun hfs => hfs ▸ hleads⟩

end CallStack

/-! ## Balance -/

namespace FrameAction

/-- How many frames are open above those that were there, given how many were before an action.
There is no answer for an action that touches what was there. -/
def framesAbove : Nat → FrameAction → Option Nat
  | n, push _ _ _ => some (n + 1)
  | n + 1, pop => some n
  | n + 1, bind _ _ | n + 1, bindType _ _ => some (n + 1)
  | _, _ => none

/-- Whether actions close all frames that they open, and no others, and write only to these. -/
def Balanced (actions : List FrameAction) : Prop := actions.foldlM framesAbove 0 = some 0

instance (actions : List FrameAction) : Decidable (Balanced actions) :=
  inferInstanceAs (Decidable (_ = _))

end FrameAction

namespace CallStack

/-- The call stack with more frames on top. -/
def withAbove (s : CallStack) (fs : List Frame) : CallStack := { s with inner := fs ++ s.inner }

/-- What an action does to the frames above, it does to nothing else. -/
lemma act_withAbove (s : CallStack) {fs : List Frame} {a : FrameAction} {n : Nat}
    (h : a.framesAbove fs.length = some n) :
    ∃ gs, gs.length = n ∧ (s.withAbove fs).act a = s.withAbove gs := by
  cases a with
  | push kind name span =>
      cases h
      exact ⟨⟨kind, name, some ((s.withAbove fs).depth - 1), span, [], []⟩ :: fs, rfl, rfl⟩
  | pop =>
      cases fs with
      | nil => cases h
      | cons f fs =>
          cases h
          exact ⟨fs, rfl, rfl⟩
  | bind name v =>
      cases fs with
      | nil => cases h
      | cons f fs =>
          cases h
          exact ⟨f.bind name v :: fs, rfl, rfl⟩
  | bindType name t =>
      cases fs with
      | nil => cases h
      | cons f fs =>
          cases h
          exact ⟨f.bindType name t :: fs, rfl, rfl⟩
  | unwind | bindRoot | bindRootType => cases hfs : fs.length <;> rw [hfs] at h <;> cases h

lemma after_withAbove (s : CallStack) {fs : List Frame} {actions : List FrameAction} {n : Nat}
    (h : actions.foldlM FrameAction.framesAbove fs.length = some n) :
    ∃ gs, gs.length = n ∧ (s.withAbove fs).after actions = s.withAbove gs := by
  -- which frames are above changes with every action, that there are so many does not
  induction actions generalizing fs with
  | nil => exact ⟨fs, Option.some.inj h, rfl⟩
  | cons a actions ih =>
      rw [List.foldlM_cons] at h
      obtain ⟨k, hk, hrest⟩ := Option.bind_eq_some_iff.mp h
      obtain ⟨gs, rfl, hact⟩ := act_withAbove s hk
      obtain ⟨hs, hlength, hafter⟩ := ih hrest
      refine ⟨hs, hlength, ?_⟩
      rw [after, List.foldl_cons, hact]
      exact hafter

/-- Balanced actions leave a call stack as it was. -/
lemma after_balanced (s : CallStack) {actions : List FrameAction}
    (h : FrameAction.Balanced actions) : s.after actions = s := by
  have hnone : actions.foldlM FrameAction.framesAbove ([] : List Frame).length = some 0 := h
  obtain ⟨gs, hlength, hafter⟩ := after_withAbove s hnone
  rw [List.length_eq_zero_iff.mp hlength] at hafter
  exact hafter

/-- Let `s` be an empty call stack with which anything has been done.  Then `s` is a list of scopes:
the list is the one that the actions make of a lone empty scope, whatever is done next is done to
the list, closing gives the innermost scope and fails only if there is none but the root, and a name
is looked up in the innermost scope that has it.  The links lead from the innermost frame through
exactly as many frames as there are, the last of which is the root, and balanced actions leave
everything, and so every lookup, as it was. -/
theorem behaves_as_scopes (actions : List FrameAction) :
    let s := empty.after actions
    s.scopeList = FrameAction.scopesAfter [{}] actions ∧
      (∀ a : FrameAction, (a.perform s).toOption.map scopeList = a.onScopes s.scopeList) ∧
      ((∃ fault, s.pop = .error fault) ↔ s.depth = 1) ∧
      (∀ f t, s.pop = .ok (f, t) → s.scopeList = f.scope :: t.scopeList) ∧
      (∀ name, s.get? name = s.scopeList.findSome? fun c => c.values.get? name) ∧
      (∀ name, s.getType? name = s.scopeList.findSome? fun c => c.types.get? name) ∧
      (∀ fs, Leads s.frames.reverse (some (s.depth - 1)) fs ↔ fs = s.chain) ∧
      s.chain.length = s.depth ∧ s.chain.getLast? = some s.root ∧
      ∀ block, FrameAction.Balanced block → s.after block = s := by
  intro s
  have hlinked : s.Linked := linked_after (s := empty) rfl actions
  refine ⟨scopeList_after empty actions, s.scopeList_perform, s.pop_eq_error_iff, ?_,
    get?_eq_value? hlinked, getType?_eq_type? hlinked, leads_iff_chain hlinked, ?_, ?_,
    fun _ => s.after_balanced⟩
  · exact fun f t => scopeList_of_pop
  · rw [chain_of_linked hlinked]
    simp [frames, depth]
  · rw [chain_of_linked hlinked]
    simp [frames]

/-- A scope that shadows a name and is closed again, inside an open scope. -/
theorem behaves_as_scopes_shadowing :
    let s := empty.after
      [.bindRoot "x" (.integer 1), .push .block "outer" {}, .bind "x" (.integer 2)]
    let block : List FrameAction := [.push .block "inner" {}, .bind "x" (.boolean true),
      .push .function "print" {}, .pop, .bindType "T" .integer, .pop]
    FrameAction.Balanced block ∧ s.after block = s ∧
      (s.after block).get? "x" = some (.integer 2) := by
  intro s block
  have hbalanced : FrameAction.Balanced block := by decide
  obtain ⟨-, -, -, -, -, -, -, -, -, hblock⟩ := behaves_as_scopes
    [.bindRoot "x" (.integer 1), .push .block "outer" {}, .bind "x" (.integer 2)]
  exact ⟨hbalanced, hblock block hbalanced, by rw [hblock block hbalanced]; rfl⟩

end CallStack

end TypedConfig
