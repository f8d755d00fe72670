import Mathlib.Data.List.Forall2
import TypedConfig.Proofs.Mentions
import TypedConfig.Proofs.Pruning

/-!
# Declarations that may change places

Two declarations next to each other are independent if they bind different names and neither
mentions the name of the other one (`Stmt.Independent`).  Then they may change places, wherever in a
program they stand (`Block.declarations_commute`): the program succeeds as before, makes the same
calls and leaves the same bindings, and all that can differ is which of the two new names comes
first.

**The order of bindings.** A binding list keeps names in the order in which they were first bound.
`Bindings.Exchanged` says that two lists are the same but for two neighbours that have changed
places, and this is what the rest of the run preserves.  A lookup sees nothing of it.

**Two steps.** Where the declarations stand, both orders start from the same state, and a
declaration does the same whether or not the other one came before it
(`Stmt.run_declaration`).  Behind them the runs go on from states that look alike.
-/

namespace TypedConfig

/-! ## Bindings in another order -/

namespace Bindings

variable {α : Type} {x? y? : Option String} {b b' : Bindings α}

/-- Whether two lists of bindings are the same, but that the bindings of two names, which stand next
to each other, may have changed places. -/
inductive Exchanged (x? y? : Option String) : Bindings α → Bindings α → Prop
  | same (b : Bindings α) : Exchanged x? y? b b
  | swap {x y : String} (hx : x? = some x) (hy : y? = some y) (hne : x ≠ y) (u v : α)
      (b : Bindings α) : Exchanged x? y? ((x, u) :: (y, v) :: b) ((y, v) :: (x, u) :: b)
  | cons {b b' : Bindings α} (e : String × α) : Exchanged x? y? b b' →
      Exchanged x? y? (e :: b) (e :: b')

namespace Exchanged

/-- What a name is bound to does not depend on the order. -/
lemma get? (h : Exchanged x? y? b b') (name : String) : b.get? name = b'.get? name := by
  induction h with
  | same b => rfl
  | @swap x y _ _ hne u v b =>
      simp only [Bindings.get?]
      by_cases hx : x = name
      · have hy : y ≠ name := fun hy => hne (hx.trans hy.symm)
        rw [if_pos hx, if_neg hy, if_pos hx]
      · rw [if_neg hx, if_neg hx]
  | cons e _ ih => rw [Bindings.get?, Bindings.get?, ih]

/-- A name is bound in place in both lists, or behind both. -/
lemma set (h : Exchanged x? y? b b') (name : String) (w : α) :
    Exchanged x? y? (b.set name w) (b'.set name w) := by
  induction h with
  | same b => exact .same _
  | @swap x y hx hy hne u v b =>
      simp only [Bindings.set]
      by_cases hxn : x = name
      · have hyn : y ≠ name := fun hyn => hne (hxn.trans hyn.symm)
        rw [if_pos hxn, if_neg hyn, if_pos hxn]
        exact .swap hx hy hne w v b
      · rw [if_neg hxn, if_neg hxn]
        split
        · exact .swap hx hy hne u w b
        · exact .swap hx hy hne u v _
  | cons e h ih =>
      rw [Bindings.set, Bindings.set]
      split
      · exact .cons _ h
      · exact .cons _ ih

end Exchanged

/-- Two new names come in the order in which they are bound. -/
lemma exchanged_set_set {x y : String} (hx : x? = some x) (hy : y? = some y) (hne : x ≠ y) (u v : α)
    (b : Bindings α) : Exchanged x? y? ((b.set x u).set y v) ((b.set y v).set x u) := by
  induction b with
  | nil =>
      simp only [set, if_neg hne, if_neg hne.symm]
      exact .swap hx hy hne u v []
  | cons e b ih =>
      obtain ⟨n, w⟩ := e
      by_cases hxn : n = x
      · have hyn : n ≠ y := fun hyn => hne (hxn.symm.trans hyn)
        simp only [set, if_pos hxn, if_neg hyn]
        exact .same _
      · by_cases hyn : n = y
        · simp only [set, if_neg hxn, if_pos hyn]
          exact .same _
        · simp only [set, if_neg hxn, if_neg hyn]
          exact .cons _ ih

end Bindings

/-! ## Independent declarations -/

namespace Stmt

/-- Whether a declaration does not mention the name of another one: as the head of a path if the
other one is a binding, as the name of a type if it is a type definition. -/
structure Ignores (st other : Stmt) : Prop where
  value : ∀ name, other.boundValue? = some name → name ∉ st.heads
  type : ∀ name, other.boundType? = some name → name ∉ st.typeNames

/-- Whether two declarations bind different names, or in different tables, and neither mentions the
name of the other one. -/
structure Independent (d e : Stmt) : Prop where
  isDeclaration : d.isDeclaration = true
  isDeclaration' : e.isDeclaration = true
  values : ∀ name, d.boundValue? = some name → e.boundValue? ≠ some name
  types : ∀ name, d.boundType? = some name → e.boundType? ≠ some name
  ignores : d.Ignores e
  ignores' : e.Ignores d

/-- Whether two lists of statements are the same, but that two statements next to each other have
changed places in one block, at whatever depth. -/
inductive Swaps (d e : Stmt) : List Stmt → List Stmt → Prop
  | here (ss : List Stmt) : Swaps d e (d :: e :: ss) (e :: d :: ss)
  | behind {ss ss' : List Stmt} (st : Stmt) : Swaps d e ss ss' → Swaps d e (st :: ss) (st :: ss')
  | inside {body body' : List Stmt} (name : String) (bodySpan span : Span) (ss : List Stmt) :
      Swaps d e body body' →
      Swaps d e (.scope name body bodySpan span :: ss) (.scope name body' bodySpan span :: ss)

variable {d e : Stmt}

lemma Independent.symm (h : d.Independent e) : e.Independent d where
  isDeclaration := h.isDeclaration'
  isDeclaration' := h.isDeclaration
  values name hname hname' := h.values name hname' hname
  types name hname hname' := h.types name hname' hname
  ignores := h.ignores'
  ignores' := h.ignores

lemma Swaps.symm {ss ss' : List Stmt} (h : Swaps d e ss ss') : Swaps e d ss' ss := by
  induction h with
  | here ss => exact .here ss
  | behind st _ ih => exact .behind st ih
  | inside name bodySpan span ss _ ih => exact .inside name bodySpan span ss ih

end Stmt

/-! ## Scopes in another order -/

variable {d e : Stmt}

/-- Whether two scopes are the same but for the places of the names that two statements bind. -/
structure Scope.Exchanged (d e : Stmt) (c c' : Scope) : Prop where
  values : Bindings.Exchanged d.boundValue? e.boundValue? c.values c'.values
  types : Bindings.Exchanged d.boundType? e.boundType? c.types c'.types

lemma Scope.Exchanged.refl (c : Scope) : c.Exchanged d e c := ⟨.same _, .same _⟩

/-- Whether scopes are the same one by one but for the places of the names that two statements
bind. -/
structure Scopes.Exchanged (d e : Stmt) (s s' : Scopes) : Prop where
  inner : List.Forall₂ (Scope.Exchanged d e) s.inner s'.inner
  root : s.root.Exchanged d e s'.root

namespace Scopes.Exchanged

variable {s s' : Scopes}

lemma refl (s : Scopes) : s.Exchanged d e s :=
  ⟨List.forall₂_same.mpr fun c _ => .refl c, .refl _⟩

lemma all (h : s.Exchanged d e s') : List.Forall₂ (Scope.Exchanged d e) s.all s'.all :=
  List.rel_append h.inner (.cons h.root .nil)

/-- Lookups give the same. -/
lemma findSome?_eq {α : Type} {cs cs' : List Scope} {f : Scope → Option α}
    (h : List.Forall₂ (Scope.Exchanged d e) cs cs')
    (hf : ∀ c c' : Scope, c.Exchanged d e c' → f c = f c') : cs.findSome? f = cs'.findSome? f := by
  induction h with
  | nil => rfl
  | cons hc _ ih => rw [List.findSome?_cons, List.findSome?_cons, hf _ _ hc, ih]

lemma value? (h : s.Exchanged d e s') (name : String) : s.value? name = s'.value? name :=
  findSome?_eq h.all fun _ _ hc => hc.values.get? name

lemma type? (h : s.Exchanged d e s') (name : String) : s.type? name = s'.type? name :=
  findSome?_eq h.all fun _ _ hc => hc.types.get? name

lemma update (h : s.Exchanged d e s') {f : Scope → Scope}
    (hf : ∀ c c', c.Exchanged d e c' → (f c).Exchanged d e (f c')) :
    (s.update f).Exchanged d e (s'.update f) := by
  obtain ⟨inner, root⟩ := s
  obtain ⟨inner', root'⟩ := s'
  cases h.inner with
  | nil => exact ⟨.nil, hf _ _ h.root⟩
  | cons hc hcs => exact ⟨.cons (hf _ _ hc) hcs, h.root⟩

lemma of_update {f g f' g' : Scope → Scope}
    (h : ∀ c, (g (f c)).Exchanged d e (g' (f' c))) :
    ((s.update f).update g).Exchanged d e ((s.update f').update g') := by
  obtain ⟨_ | ⟨c, cs⟩, root⟩ := s
  · exact ⟨.nil, h root⟩
  · exact ⟨.cons (h c) (List.forall₂_same.mpr fun c _ => .refl c), .refl root⟩

lemma bind (h : s.Exchanged d e s') (name : String) (v : Value) :
    (s.bind name v).Exchanged d e (s'.bind name v) :=
  h.update (f := fun c => { c with values := c.values.set name v })
    fun _ _ hc => ⟨hc.values.set name v, hc.types⟩

lemma bindType (h : s.Exchanged d e s') (name : String) (t : DataType) :
    (s.bindType name t).Exchanged d e (s'.bindType name t) :=
  h.update (f := fun c => { c with types := c.types.set name t })
    fun _ _ hc => ⟨hc.values, hc.types.set name t⟩

lemma opened (h : s.Exchanged d e s') : s.opened.Exchanged d e s'.opened :=
  ⟨.cons (.refl _) h.inner, h.root⟩

lemma closed (h : s.Exchanged d e s') : s.closed.Exchanged d e s'.closed := by
  refine ⟨?_, h.root⟩
  obtain ⟨inner, root⟩ := s
  obtain ⟨inner', root'⟩ := s'
  cases h.inner with
  | nil => exact .nil
  | cons _ hcs => exact hcs

end Scopes.Exchanged

/-! ## States in another order -/

/-- Whether two states differ in nothing but the places of the names that two statements bind. -/
structure RunState.Exchanged (d e : Stmt) (s s' : RunState) : Prop where
  stack : s.stack = s'.stack
  maxFrames : s.maxFrames = s'.maxFrames
  calls : s.calls = s'.calls
  scopes : s.frames.scopes.Exchanged d e s'.frames.scopes
  linked : s.frames.Linked
  linked' : s'.frames.Linked

namespace RunState.Exchanged

variable {s s' : RunState}

lemma refl (h : s.frames.Linked) : s.Exchanged d e s := ⟨rfl, rfl, rfl, .refl _, h, h⟩

/-- No instruction sees the order of bindings. -/
lemma looksLike (h : s.Exchanged d e s') :
    s.LooksLike (fun _ => True) (fun _ => True) s' where
  stack := h.stack
  maxFrames := h.maxFrames
  depth := by
    have hlength := h.scopes.inner.length_eq
    simpa [CallStack.scopes, CallStack.depth] using hlength
  value name _ := by
    rw [CallStack.get?_eq_value? h.linked, CallStack.get?_eq_value? h.linked', h.scopes.value?]
  type name _ := by
    rw [CallStack.getType?_eq_type? h.linked, CallStack.getType?_eq_type? h.linked',
      h.scopes.type?]

lemma withStack (h : s.Exchanged d e s') (stack : DataStack) :
    (s.withStack stack).Exchanged d e (s'.withStack stack) :=
  ⟨rfl, h.maxFrames, h.calls, h.scopes, h.linked, h.linked'⟩

/-- The same effect on both sides keeps the states in step. -/
lemma apply (h : s.Exchanged d e s') (effect : Effect) :
    (effect.apply s).Exchanged d e (effect.apply s') where
  stack := by
    rw [effect.stack_apply, effect.stack_apply, h.stack]
  maxFrames := by
    rw [effect.maxFrames_apply, effect.maxFrames_apply, h.maxFrames]
  calls := by
    rw [effect.calls_apply, effect.calls_apply, h.calls]
  scopes := by
    rw [effect.scopes_apply, effect.scopes_apply]
    cases effect with
    | none => exact h.scopes
    | call c => exact h.scopes
    | bind name v => exact h.scopes.bind name v
    | bindType name t => exact h.scopes.bindType name t
    | openScope name span => exact h.scopes.opened
    | closeScope => exact h.scopes.closed
  linked := effect.linked_apply h.linked
  linked' := effect.linked_apply h.linked'

end RunState.Exchanged

/-- From states that differ only in the order of bindings, code comes to such states. -/
theorem runCode_exchanged {next : Option Instr} {code : Code} {s s' t : RunState}
    (hs : s.Exchanged d e s') (h : runCode next code s = (t, none)) :
    ∃ t', runCode next code s' = (t', none) ∧ t.Exchanged d e t' := by
  induction code generalizing s s' with
  | nil =>
      cases h
      exact ⟨s', rfl, hs⟩
  | cons p code ih =>
      obtain ⟨i, span⟩ := p
      obtain ⟨u, hexec, h⟩ := runCode_cons_ok h
      have hdoes := i.execute_does hs.looksLike (firstOf code next) span (fun _ _ => trivial)
        fun _ _ => trivial
      rw [hexec] at hdoes
      obtain ⟨stack, effect, -, -, rfl, hexec'⟩ := hdoes
      obtain ⟨t', ht', htt'⟩ := ih ((hs.withStack stack).apply effect) h
      exact ⟨t', (runCode_cons_of_ok hexec').trans ht', htt'⟩

/-! ## Two declarations in either order -/

/-- What two independent declarations bind, they bind in either order. -/
lemma Stmt.Independent.exchanged (hind : d.Independent e) {x y : Effect} (hx : d.Binds x)
    (hy : e.Binds y) {s : RunState} (hs : s.frames.Linked) :
    (y.apply (x.apply s)).Exchanged d e (x.apply (y.apply s)) where
  stack := by simp only [Effect.stack_apply]
  maxFrames := by simp only [Effect.maxFrames_apply]
  calls := by
    rw [Effect.calls_apply, Effect.calls_apply, Effect.calls_apply, Effect.calls_apply,
      hx.made, hy.made]
  scopes := by
    simp only [Effect.scopes_apply]
    cases x with
    | bind n v =>
        cases y with
        | bind m w =>
            have hne : n ≠ m := fun h => hind.values n hx (h ▸ hy)
            simp only [Effect.onScopes, Scopes.bind]
            refine Scopes.Exchanged.of_update fun c => ⟨?_, .same c.types⟩
            exact Bindings.exchanged_set_set hx hy hne v w c.values
        | bindType m t =>
            simp only [Effect.onScopes, Scopes.bind, Scopes.bindType]
            exact Scopes.Exchanged.of_update fun c => .refl _
        | _ => exact hy.elim
    | bindType n t =>
        cases y with
        | bind m w =>
            simp only [Effect.onScopes, Scopes.bind, Scopes.bindType]
            exact Scopes.Exchanged.of_update fun c => .refl _
        | bindType m u =>
            have hne : n ≠ m := fun h => hind.types n hx (h ▸ hy)
            simp only [Effect.onScopes, Scopes.bindType]
            refine Scopes.Exchanged.of_update fun c => ⟨.same c.values, ?_⟩
            exact Bindings.exchanged_set_set hx hy hne t u c.types
        | _ => exact hy.elim
    | _ => exact hx.elim
  linked := y.linked_apply (x.linked_apply hs)
  linked' := x.linked_apply (y.linked_apply hs)

/-- Whether the second code gets through wherever the first one does, whatever stands behind it, and
comes to a state that differs only in the order of bindings. -/
def Code.Exchanges (d e : Stmt) (code code' : Code) : Prop :=
  ∀ (next : Option Instr) (s t : RunState), s.frames.Linked → runCode next code s = (t, none) →
    ∃ t', (∀ next', runCode next' code' s = (t', none)) ∧ t.Exchanged d e t'

/-- Whether what a piece of code does does not depend on what stands behind it. -/
def Code.IgnoresNext (code : Code) : Prop :=
  ∀ (next next' : Option Instr) (s : RunState), runCode next code s = runCode next' code s

namespace Code.Exchanges

variable {code code' : Code}

/-- The runs go on in step behind what has changed places. -/
lemma append (h : Exchanges d e code code') {rest : Code} (hrest : rest.IgnoresNext) :
    Exchanges d e (code ++ rest) (code' ++ rest) := by
  intro next s t hs hrun
  obtain ⟨u, hcode, hrun⟩ := runCode_append_ok hrun
  obtain ⟨u', hcode', hu⟩ := h _ s u hs hcode
  obtain ⟨t', ht', ht⟩ := runCode_exchanged hu hrun
  refine ⟨t', fun next' => ?_, ht⟩
  rw [runCode_append_of_ok (hcode' _), hrest next' next, ht']

/-- The runs do the same before what has changed places. -/
lemma behind {first : Code} (hfirst : first.IgnoresNext) (h : Exchanges d e code code') :
    Exchanges d e (first ++ code) (first ++ code') := by
  intro next s t hs hrun
  obtain ⟨u, hbefore, hrun⟩ := runCode_append_ok hrun
  obtain ⟨_, -, hu⟩ := runCode_exchanged (d := d) (e := e) (.refl hs) hbefore
  obtain ⟨t', ht', ht⟩ := h next u t hu.linked hrun
  refine ⟨t', fun next' => ?_, ht⟩
  rw [runCode_append_of_ok ((hfirst _ _ s).trans hbefore), ht' next']

/-- What changes places in the body of a scope changes places in the scope. -/
lemma scope (h : Exchanges d e code code') (name : String) (bodySpan span : Span) :
    Exchanges d e
      ((.pushName name, span) :: (.openScope, span) :: code ++ [(.closeScope, bodySpan)])
      ((.pushName name, span) :: (.openScope, span) :: code' ++ [(.closeScope, bodySpan)]) := by
  have hopen : IgnoresNext [(.pushName name, span), (.openScope, span)] := fun next next' =>
    runCode_next_of_concat next next' rfl [(.pushName name, span)]
  have hclose : IgnoresNext [(.closeScope, bodySpan)] := fun next next' =>
    runCode_next_of_concat next next' rfl []
  exact (behind hopen h).append hclose

end Code.Exchanges

/-- The code of two independent declarations does in either order what it does in the other one. -/
lemma Stmt.Independent.exchanges (hind : d.Independent e) {first second : Code}
    (hd : d.compile = .ok first) (he : e.compile = .ok second) :
    Code.Exchanges d e (first ++ second) (second ++ first) := by
  intro next s t hs hrun
  obtain ⟨u, hfirst, hsecond⟩ := runCode_append_ok hrun
  obtain ⟨x, hx, rfl, -⟩ :=
    Stmt.run_declaration hind.isDeclaration hd hs (.refl _ _ s) hfirst
  -- the second declaration does not see that the first one has been executed
  have hbefore : (x.apply s).LooksLike (· ∈ e.heads) (· ∈ e.typeNames) s :=
    hx.looksLike hind.ignores'.value hind.ignores'.type hs
  obtain ⟨y, hy, rfl, hsecond'⟩ :=
    Stmt.run_declaration hind.isDeclaration' he (x.linked_apply hs) hbefore hsecond
  -- nor does the first one that the second one has
  have hbehind : (y.apply s).LooksLike (· ∈ d.heads) (· ∈ d.typeNames) s :=
    hy.looksLike hind.ignores.value hind.ignores.type hs
  obtain ⟨z, hz, hsame, hfirst'⟩ :=
    Stmt.run_declaration hind.isDeclaration hd hs hbehind.symm hfirst
  refine ⟨z.apply (y.apply s), fun next' => ?_, ?_⟩
  · rw [runCode_append_of_ok ((Stmt.runCode_next he _ _ s).trans hsecond'),
      Stmt.runCode_next hd _ _ (y.apply s), hfirst']
  · rw [hsame]
    exact hind.exchanged hz hy hs

/-- Statements in the other order are accepted too, and get through where the first ones do. -/
lemma Stmt.Swaps.code (hind : d.Independent e) {ss ss' : List Stmt} (h : Stmt.Swaps d e ss ss')
    {code : Code} (hcode : Stmt.compileAll ss = .ok code) :
    ∃ code', Stmt.compileAll ss' = .ok code' ∧ Code.Exchanges d e code code' := by
  induction h generalizing code with
  | here ss =>
      obtain ⟨first, rest, hfirst, hrest, rfl⟩ := Stmt.compileAll_cons_ok hcode
      obtain ⟨second, behind, hsecond, hbehind, rfl⟩ := Stmt.compileAll_cons_ok hrest
      have hswapped := (hind.exchanges hfirst hsecond).append (Stmt.runCode_next_all hbehind)
      rw [List.append_assoc, List.append_assoc] at hswapped
      exact ⟨_, Stmt.compileAll_cons hsecond (Stmt.compileAll_cons hfirst hbehind), hswapped⟩
  | behind st _ ih =>
      obtain ⟨first, rest, hfirst, hrest, rfl⟩ := Stmt.compileAll_cons_ok hcode
      obtain ⟨rest', hrest', hswapped⟩ := ih hrest
      exact ⟨_, Stmt.compileAll_cons hfirst hrest', hswapped.behind (Stmt.runCode_next hfirst)⟩
  | inside name bodySpan span ss _ ih =>
      obtain ⟨first, rest, hfirst, hrest, rfl⟩ := Stmt.compileAll_cons_ok hcode
      obtain ⟨inner, hinner, rfl⟩ := Stmt.compile_scope_ok hfirst
      obtain ⟨inner', hinner', hswapped⟩ := ih hinner
      exact ⟨_, Stmt.compileAll_cons (Stmt.compile_scope hinner' name bodySpan span) hrest,
        (hswapped.scope name bodySpan span).append (Stmt.runCode_next_all hrest)⟩

/-- When a program succeeds, so does the program in which two independent declarations have changed
places, and all that differs is the order of bindings. -/
lemma Block.run_swapped (hind : d.Independent e) {b b' : Block}
    (hswap : Stmt.Swaps d e b.statements b'.statements) {c c' : Chunk} (h : b.compile = .ok c)
    (h' : b'.compile = .ok c') (limits : Limits) (host : List HostBinding)
    (hrun : (c.machine limits host).run.failure = none) :
    ∃ values values' types types' calls,
      (c.machine limits host).run.outcome = ⟨none, values, types, calls⟩ ∧
      (c'.machine limits host).run.outcome = ⟨none, values', types', calls⟩ ∧
      Bindings.Exchanged d.boundValue? e.boundValue? values values' ∧
      Bindings.Exchanged d.boundType? e.boundType? types types' := by
  obtain ⟨all, hall, hlocated⟩ := compile_ok h
  obtain ⟨all', hall', hlocated'⟩ := compile_ok h'
  obtain ⟨code', hcode', hswapped⟩ := hswap.code hind hall
  obtain rfl : all' = code' := Except.ok.inj (hall'.symm.trans hcode')
  rw [← hlocated] at hall hswapped
  rw [← hlocated'] at hall' hswapped
  rcases hends : runCode none c.located (.hosted limits host) with ⟨t, r⟩
  have houtcome := Stmt.outcome_of_runCode hall hends
  obtain rfl : r = none := (congrArg Outcome.failure houtcome).symm.trans hrun
  obtain ⟨t', hends', ht⟩ := hswapped none _ t (RunState.linked_hosted limits host) hends
  have houtcome' := Stmt.outcome_of_runCode hall' (hends' none)
  refine ⟨t.frames.root.values, t'.frames.root.values, t.frames.root.types, t'.frames.root.types,
    t.calls, houtcome, ?_, ht.scopes.root.values, ht.scopes.root.types⟩
  rw [houtcome', ht.calls]

/-- Let two declarations stand next to each other in a block of an accepted program, at any depth,
bind different names, or in different tables, and not mention the name of each other.  Then the
program in which they have changed places is accepted too, and whatever the host has bound and
whatever the limits are, it succeeds exactly if the first one does.  When they succeed

* they make the same calls;
* every name is bound to the same value and to the same type in the root scope;
* the names stand there in the same order, but that the two names may have changed places, which
  then stand next to each other. -/
theorem Block.declarations_commute (hind : d.Independent e) {b b' : Block}
    (hswap : Stmt.Swaps d e b.statements b'.statements) {c : Chunk} (h : b.compile = .ok c)
    (limits : Limits) (host : List HostBinding) :
    ∃ c', b'.compile = .ok c' ∧
      ((c.machine limits host).run.failure = none ↔
        (c'.machine limits host).run.failure = none) ∧
      ((c.machine limits host).run.failure = none →
        ∃ values values' types types' calls,
          (c.machine limits host).run.outcome = ⟨none, values, types, calls⟩ ∧
          (c'.machine limits host).run.outcome = ⟨none, values', types', calls⟩ ∧
          (∀ name, values.get? name = values'.get? name) ∧
          (∀ name, types.get? name = types'.get? name) ∧
          Bindings.Exchanged d.boundValue? e.boundValue? values values' ∧
          Bindings.Exchanged d.boundType? e.boundType? types types') := by
  obtain ⟨all, hall, -⟩ := compile_ok h
  obtain ⟨all', hall', -⟩ := hswap.code hind hall
  obtain ⟨c', h', -⟩ := compile_of_compileAll hall'
  refine ⟨c', h', ⟨fun hrun => ?_, fun hrun => ?_⟩, fun hrun => ?_⟩
  · obtain ⟨_, _, _, _, _, -, houtcome, -⟩ := run_swapped hind hswap h h' limits host hrun
    exact congrArg Outcome.failure houtcome
  · obtain ⟨_, _, _, _, _, -, houtcome, -⟩ :=
      run_swapped hind.symm hswap.symm h' h limits host hrun
    exact congrArg Outcome.failure houtcome
  · obtain ⟨values, values', types, types', calls, houtcome, houtcome', hvalues, htypes⟩ :=
      run_swapped hind hswap h h' limits host hrun
    exact ⟨values, values', types, types', calls, houtcome, houtcome', hvalues.get?, htypes.get?,
      hvalues, htypes⟩

/-- The declaration `let a: int = 1`. -/
def Stmt.oneDeclared : Stmt := .binding "a" (.named "int" {}) (some (.literal (.integer 1) {})) {}

/-- The declaration `let b: int = c`. -/
def Stmt.copyDeclared : Stmt := .binding "b" (.named "int" {}) (some (.name "c" {})) {}

/-- The program `let c: int = 0` and then `s { let a: int = 1 let b: int = c print(a) }`. -/
def Block.oneFirst : Block where
  statements := [
    .binding "c" (.named "int" {}) (some (.literal (.integer 0) {})) {},
    .scope "s" [Stmt.oneDeclared, Stmt.copyDeclared,
      .effect (.call (.name "print" {}) [.name "a" {}] {}) {}] {} {}]
  span := {}

/-- The same program with the declaration of `b` before that of `a`. -/
def Block.copyFirst : Block where
  statements := [
    .binding "c" (.named "int" {}) (some (.literal (.integer 0) {})) {},
    .scope "s" [Stmt.copyDeclared, Stmt.oneDeclared,
      .effect (.call (.name "print" {}) [.name "a" {}] {}) {}] {} {}]
  span := {}

/-- The two declarations stand in a scope, and one of them reads a name from outside it. -/
theorem Block.declarations_commute_oneFirst : ∃ c c' values values' types types' calls,
    Stmt.oneDeclared.Independent Stmt.copyDeclared ∧
    Stmt.Swaps Stmt.oneDeclared Stmt.copyDeclared oneFirst.statements copyFirst.statements ∧
    oneFirst.compile = .ok c ∧ copyFirst.compile = .ok c' ∧
    (c.machine {} [.register ⟨"print", .print⟩]).run.outcome = ⟨none, values, types, calls⟩ ∧
    (c'.machine {} [.register ⟨"print", .print⟩]).run.outcome =
      ⟨none, values', types', calls⟩ ∧
    Bindings.Exchanged (some "a") (some "b") values values' := by
  have hind : Stmt.oneDeclared.Independent Stmt.copyDeclared :=
    ⟨rfl, rfl, by decide, by decide, ⟨by decide, by decide⟩, ⟨by decide, by decide⟩⟩
  have hswap : Stmt.Swaps Stmt.oneDeclared Stmt.copyDeclared oneFirst.statements
      copyFirst.statements := .behind _ (.inside "s" {} {} [] (.here _))
  obtain ⟨c, hc⟩ : ∃ c, oneFirst.compile = .ok c := ⟨_, rfl⟩
  have hrun : (c.machine {} [.register ⟨"print", .print⟩]).run.failure = none := by
    cases hc
    decide +kernel
  obtain ⟨c', hc', -, hsucceeds⟩ :=
    declarations_commute hind hswap hc {} [.register ⟨"print", .print⟩]
  obtain ⟨values, values', types, types', calls, houtcome, houtcome', -, -, hvalues, -⟩ :=
    hsucceeds hrun
  exact ⟨c, c', values, values', types, types', calls, hind, hswap, hc, hc', houtcome, houtcome',
    hvalues⟩

end TypedConfig
