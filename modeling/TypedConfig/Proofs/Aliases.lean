import TypedConfig.Proofs.Mentions
import TypedConfig.Proofs.FailedRuns

/-!
# Aliases of types

A definition `type A: B`, where `B` names a type, binds to `A` the very type that `B` stands for.
So behind it either name may be written (`Block.alias_transparent`): writing `B` for `A` changes
neither the result of a run nor the calls nor the values that are bound.  It does not change them
even if the definition itself is left out, and then `A` alone is bound to another type or to none.

**What must not happen.** Behind the definition neither name may be defined again, at whatever
depth: then one of them would stand for another type than before.

**States in step.** While the runs go on, all scopes but the root are the same, no scope but the
root binds one of the two names, and there `A` is bound to what `B` stands for in the other run
(`Scopes.Aliased`).  Every type that is written is resolved right behind its name, so the two runs
differ for one instruction at a time (`Code.Renamed`).
-/

namespace TypedConfig

/-! ## Writing another name -/

/-- What becomes of the name of a type when `b` is written for `a`. -/
def TypeExpr.renamedName (a b name : String) : String := if name = a then b else name

mutual

/-- The type as it is written when `b` is written for `a`. -/
def TypeExpr.renamed (a b : String) : TypeExpr → TypeExpr
  | ⟨name, isArray, isOptional, fields, span⟩ =>
    ⟨TypeExpr.renamedName a b name, isArray, isOptional, FieldDecl.renamedAll a b fields, span⟩

/-- The fields of a shape as they are written when `b` is written for `a`. -/
def FieldDecl.renamedAll (a b : String) : List FieldDecl → List FieldDecl
  | [] => []
  | ⟨name, type, span⟩ :: fs => ⟨name, type.renamed a b, span⟩ :: FieldDecl.renamedAll a b fs

end

mutual

/-- The statement in which the type `b` is written wherever `a` was. -/
def Stmt.renamed (a b : String) : Stmt → Stmt
  | .scope name body bodySpan span => .scope name (Stmt.renamedAll a b body) bodySpan span
  | .typedef name type span => .typedef name (type.renamed a b) span
  | .binding name type value span => .binding name (type.renamed a b) value span
  | .effect e span => .effect e span

/-- The statements in which the type `b` is written wherever `a` was. -/
def Stmt.renamedAll (a b : String) : List Stmt → List Stmt
  | [] => []
  | st :: ss => st.renamed a b :: Stmt.renamedAll a b ss

end

mutual

/-- The names of the types that a statement defines, at any depth. -/
def Stmt.definedTypes : Stmt → List String
  | .scope _ body _ _ => Stmt.definedTypesAll body
  | .typedef name _ _ => [name]
  | _ => []

/-- The names of the types that statements define, at any depth. -/
def Stmt.definedTypesAll : List Stmt → List String
  | [] => []
  | st :: ss => st.definedTypes ++ Stmt.definedTypesAll ss

end

namespace TypeExpr

variable {a b : String}

lemma name_renamed (t : TypeExpr) : (t.renamed a b).name = renamedName a b t.name := by
  obtain ⟨name, isArray, isOptional, fields, span⟩ := t
  rw [renamed]

/-- A shape stays a shape, and nothing else becomes one. -/
lemma isObject_renamed (ha : a ≠ objectName) (hb : b ≠ objectName) (t : TypeExpr) :
    (t.renamed a b).isObject = t.isObject := by
  rw [isObject, isObject, name_renamed, renamedName]
  split
  · next hname => simp [hname, ha, hb]
  · rfl

end TypeExpr

lemma FieldDecl.length_renamedAll (a b : String) (fs : List FieldDecl) :
    (FieldDecl.renamedAll a b fs).length = fs.length := by
  induction fs with
  | nil => rfl
  | cons f fs ih =>
      obtain ⟨name, type, span⟩ := f
      rw [FieldDecl.renamedAll, List.length_cons, List.length_cons, ih]

/-! ## Code in which another name is written -/

/-- Whether an instruction resolves a type or binds one. -/
def Instr.handlesType : Instr → Bool
  | .resolveType .. | .bindType => true
  | _ => false

/-- Whether two pieces of code are the same, but that a type is resolved by the name `b` wherever
the other one does it by the name `a`, and neither binds a type to one of the two names. -/
inductive Code.Renamed (a b : String) : Code → Code → Prop
  | nil : Renamed a b [] []
  | type {code code' : Code} (name : String) (isArray isOptional : Bool) (span span' : Span) :
      Renamed a b code code' → Renamed a b
        ((.pushName name, span) :: (.resolveType (.ofName name) isArray isOptional, span') :: code)
        ((.pushName (TypeExpr.renamedName a b name), span) ::
          (.resolveType (.ofName (TypeExpr.renamedName a b name)) isArray isOptional, span') ::
          code')
  | define {code code' : Code} {name : String} (span span' : Span) : name ≠ a → name ≠ b →
      Renamed a b code code' → Renamed a b
        ((.pushName name, span) :: (.bindType, span') :: code)
        ((.pushName name, span) :: (.bindType, span') :: code')
  | cons {i : Instr} {span : Span} {code code' : Code} :
      (∀ ref isArray isOptional, i ≠ .resolveType ref isArray isOptional) → i ≠ .bindType →
      Renamed a b code code' → Renamed a b ((i, span) :: code) ((i, span) :: code')

namespace Code.Renamed

variable {a b : String} {code code' : Code}

lemma same {i : Instr} (hi : i.handlesType = false) (span : Span) (h : Renamed a b code code') :
    Renamed a b ((i, span) :: code) ((i, span) :: code') := by
  refine .cons ?_ ?_ h
  · rintro ref isArray isOptional rfl
    cases hi
  · rintro rfl
    cases hi

lemma append (h : Renamed a b code code') {rest rest' : Code} (hrest : Renamed a b rest rest') :
    Renamed a b (code ++ rest) (code' ++ rest') := by
  induction h with
  | nil => exact hrest
  | type name isArray isOptional span span' _ ih =>
      exact .type name isArray isOptional span span' ih
  | define span span' ha hb _ ih => exact .define span span' ha hb ih
  | cons hi hi' _ ih => exact .cons hi hi' ih

lemma of_value (h : ∀ p ∈ code, p.1.isOfValue = true) : Renamed a b code code := by
  induction code with
  | nil => exact .nil
  | cons p code ih =>
      obtain ⟨i, span⟩ := p
      obtain ⟨hi, hcode⟩ := List.forall_mem_cons.mp h
      refine .cons ?_ ?_ (ih hcode)
      · rintro ref isArray isOptional rfl
        cases hi
      · rintro rfl
        cases hi

/-- A call comes next in both or in neither. -/
lemma isCall_firstOf (h : Renamed a b code code') {next next' : Option Instr}
    (hnext : Step.isCall next = Step.isCall next') :
    Step.isCall (firstOf code next) = Step.isCall (firstOf code' next') := by
  cases h with
  | nil => exact hnext
  | _ => rfl

end Code.Renamed

section

variable {a b : String}

lemma TypeExpr.compile_renamed (ha : a ≠ objectName) (hb : b ≠ objectName) {t : TypeExpr}
    {code : Code} (h : t.compile = .ok code) :
    ∃ code', (t.renamed a b).compile = .ok code' ∧ Code.Renamed a b code code' := by
  have hobject := t.isObject_renamed ha hb
  obtain rfl := TypeExpr.compile_ok h
  refine ⟨_, ?_, .type t.name t.isArray t.isOptional t.span t.span .nil⟩
  obtain ⟨name, isArray, isOptional, fields, span⟩ := t
  rw [compile] at h ⊢
  rw [hobject]
  split at h
  · cases h
  · next hshape =>
    rw [if_neg hshape]
    simp only [renamed]
    rfl

lemma FieldDecl.compileAll_renamed (ha : a ≠ objectName) (hb : b ≠ objectName)
    {fs : List FieldDecl} {code : Code} (h : compileAll fs = .ok code) :
    ∃ code', compileAll (FieldDecl.renamedAll a b fs) = .ok code' ∧
      Code.Renamed a b code code' := by
  induction fs generalizing code with
  | nil =>
      cases h
      exact ⟨[], rfl, .nil⟩
  | cons f fs ih =>
      obtain ⟨name, type, span⟩ := f
      obtain ⟨first, rest, hfirst, hrest, rfl⟩ := compileAll_cons_ok h
      obtain ⟨first', hfirst', hrenamed⟩ := type.compile_renamed ha hb hfirst
      obtain ⟨rest', hrest', hrenamed'⟩ := ih hrest
      refine ⟨first' ++ (.makeField name, span) :: rest', ?_,
        hrenamed.append (.same rfl span hrenamed')⟩
      rw [FieldDecl.renamedAll, compileAll, hfirst', hrest']
      rfl

lemma TypeExpr.compileDefinition_renamed (ha : a ≠ objectName) (hb : b ≠ objectName) {t : TypeExpr}
    {code : Code} (h : t.compileDefinition = .ok code) :
    ∃ code', (t.renamed a b).compileDefinition = .ok code' ∧ Code.Renamed a b code code' := by
  have hobject := t.isObject_renamed ha hb
  cases hshape : t.isObject with
  | false =>
      rw [hshape] at hobject
      simp only [compileDefinition, hshape, hobject, Bool.not_false, if_true] at h ⊢
      exact t.compile_renamed ha hb h
  | true =>
      obtain ⟨name, isArray, isOptional, fields, span⟩ := t
      rw [hshape] at hobject
      simp only [compileDefinition, hshape, hobject, Bool.not_true, Bool.false_eq_true, if_false]
        at h ⊢
      cases isArray with
      | true => cases h
      | false =>
          cases isOptional with
          | true => cases h
          | false =>
              obtain ⟨first, hfirst, h⟩ := bind_eq_ok.mp h
              obtain ⟨first', hfirst', hrenamed⟩ := FieldDecl.compileAll_renamed ha hb hfirst
              cases h
              refine ⟨first' ++ [(.makeShape fields.length, span)], ?_, hrenamed.append ?_⟩
              · simp only [renamed, Bool.false_eq_true, if_false, hfirst',
                  FieldDecl.length_renamedAll]
                rfl
              · exact .same rfl _ .nil

mutual

/-- Statements in which another name is written are accepted too. -/
lemma Stmt.compile_renamed (ha : a ≠ objectName) (hb : b ≠ objectName) (st : Stmt)
    (hst : ∀ n ∈ st.definedTypes, n ≠ a ∧ n ≠ b) {code : Code} (h : st.compile = .ok code) :
    ∃ code', (st.renamed a b).compile = .ok code' ∧ Code.Renamed a b code code' := by
  match st, hst, h with
  | .scope name body bodySpan span, hst, h =>
      rw [Stmt.definedTypes] at hst
      obtain ⟨inner, hinner, rfl⟩ := Stmt.compile_scope_ok h
      obtain ⟨inner', hinner', hbody⟩ := Stmt.compileAll_renamed ha hb body hst hinner
      rw [Stmt.renamed]
      exact ⟨_, Stmt.compile_scope hinner' name bodySpan span, .same rfl _
        (.same rfl _ (hbody.append (.same rfl _ .nil)))⟩
  | .typedef name type span, hst, h =>
      rw [Stmt.definedTypes] at hst
      obtain ⟨hnamea, hnameb⟩ := hst name List.mem_cons_self
      obtain ⟨definition, hdefinition, rfl⟩ := Stmt.compile_typedef_ok h
      obtain ⟨definition', hdefinition', hrenamed⟩ :=
        type.compileDefinition_renamed ha hb hdefinition
      refine ⟨definition' ++ [(.pushName name, span), (.bindType, span)], ?_,
        hrenamed.append (.define span span hnamea hnameb .nil)⟩
      rw [Stmt.renamed, Stmt.compile, hdefinition']
      rfl
  | .binding name type value span, _, h =>
      obtain ⟨declared, bound, hdeclared, hbound, rfl⟩ := Stmt.compile_binding_ok h
      obtain ⟨declared', hdeclared', hrenamed⟩ := type.compile_renamed ha hb hdeclared
      have hvalue := Code.Renamed.of_value (a := a) (b := b)
        (Expr.isOfValue_of_compileBound hbound)
      refine ⟨declared' ++ bound ++ [(.pushName name, span), (.store value.isSome, span)], ?_,
        (hrenamed.append hvalue).append ?_⟩
      · rw [Stmt.renamed, Stmt.compile, hdeclared', hbound]
        rfl
      · exact .same rfl _ (.same rfl _ .nil)
  | .effect e span, _, h =>
      refine ⟨code, h, ?_⟩
      obtain ⟨callee, arguments, callSpan, operands, target, rfl, hoperands, htarget, rfl⟩ :=
        Stmt.compile_effect_ok h
      have hoperands := Code.Renamed.of_value (a := a) (b := b)
        (Expr.isOfValue_of_compileArguments hoperands)
      have htarget := Code.Renamed.of_value (a := a) (b := b) (callee.isOfValue_of_compile htarget)
      exact (hoperands.append htarget).append (.same rfl _ .nil)

lemma Stmt.compileAll_renamed (ha : a ≠ objectName) (hb : b ≠ objectName) (ss : List Stmt)
    (hss : ∀ n ∈ Stmt.definedTypesAll ss, n ≠ a ∧ n ≠ b) {code : Code}
    (h : Stmt.compileAll ss = .ok code) :
    ∃ code', Stmt.compileAll (Stmt.renamedAll a b ss) = .ok code' ∧
      Code.Renamed a b code code' := by
  match ss, hss, h with
  | [], _, h =>
      cases h
      exact ⟨[], rfl, .nil⟩
  | st :: ss, hss, h =>
      rw [Stmt.definedTypesAll] at hss
      obtain ⟨hst, hss⟩ := List.forall_mem_append.mp hss
      obtain ⟨first, rest, hfirst, hrest, rfl⟩ := Stmt.compileAll_cons_ok h
      obtain ⟨first', hfirst', hrenamed⟩ := Stmt.compile_renamed ha hb st hst hfirst
      obtain ⟨rest', hrest', hrenamed'⟩ := Stmt.compileAll_renamed ha hb ss hss hrest
      exact ⟨_, Stmt.compileAll_cons hfirst' hrest', hrenamed.append hrenamed'⟩

end

/-! ## Scopes in step -/

/-- Whether scopes are the same but for what the root binds to the type `a`, and this is what `b`
stands for in the second ones. -/
structure Scopes.Aliased (a b : String) (s s' : Scopes) : Prop where
  inner : s.inner = s'.inner
  unbound : ∀ c ∈ s.inner, c.types.get? a = none ∧ c.types.get? b = none
  values : s.root.values = s'.root.values
  types : ∀ name, name ≠ a → s.root.types.get? name = s'.root.types.get? name
  stands : ∃ t, s.root.types.get? a = some t ∧
    (DataType.primitive? (.ofName b)).or (s'.root.types.get? b) = some t

namespace Scopes.Aliased

variable {s s' : Scopes}

lemma value? (h : s.Aliased a b s') (name : String) : s.value? name = s'.value? name := by
  rw [Scopes.value?, Scopes.value?, all, all, List.findSome?_append, List.findSome?_append, h.inner,
    List.findSome?_cons, List.findSome?_cons, h.values]

lemma type? (h : s.Aliased a b s') {name : String} (hname : name ≠ a) :
    s.type? name = s'.type? name := by
  rw [Scopes.type?, Scopes.type?, all, all, List.findSome?_append, List.findSome?_append, h.inner,
    List.findSome?_cons, List.findSome?_cons, h.types name hname]

/-- What only the root binds is found there. -/
lemma type?_of_unbound {name : String} (h : ∀ c ∈ s.inner, c.types.get? name = none) :
    s.type? name = s.root.types.get? name := by
  rw [Scopes.type?, all, List.findSome?_append, List.findSome?_eq_none_iff.mpr h, Option.none_or,
    List.findSome?_singleton]

/-- Wherever a type is written, it is the same one in both. -/
lemma resolvedType_eq (h : s.Aliased a b s') (ha : TypeRef.ofName a = .user) (name : String)
    (isArray isOptional : Bool) :
    Step.resolvedType s.type? (.ofName name) name isArray isOptional =
      Step.resolvedType s'.type? (.ofName (TypeExpr.renamedName a b name))
        (TypeExpr.renamedName a b name) isArray isOptional := by
  by_cases hname : name = a
  · obtain ⟨t, hta, htb⟩ := h.stands
    have hfirst : s.type? a = some t :=
      (type?_of_unbound fun c hc => (h.unbound c hc).1).trans hta
    have hsecond : s'.type? b = s'.root.types.get? b :=
      type?_of_unbound fun c hc => (h.unbound c (h.inner ▸ hc)).2
    rw [TypeExpr.renamedName, if_pos hname, hname, Step.resolvedType, Step.resolvedType, ha, hfirst,
      hsecond, htb]
    rfl
  · rw [TypeExpr.renamedName, if_neg hname, Step.resolvedType, Step.resolvedType, h.type? hname]

lemma update (h : s.Aliased a b s') {f : Scope → Scope}
    (hvalues : ∀ c c', c.values = c'.values → (f c).values = (f c').values)
    (htypes : ∀ c c' name, c.types.get? name = c'.types.get? name →
      (f c).types.get? name = (f c').types.get? name)
    (ha : ∀ c, (f c).types.get? a = c.types.get? a)
    (hb : ∀ c, (f c).types.get? b = c.types.get? b) :
    (s.update f).Aliased a b (s'.update f) := by
  obtain ⟨inner, root⟩ := s
  obtain ⟨inner', root'⟩ := s'
  obtain rfl : inner = inner' := h.inner
  cases inner with
  | nil =>
      refine ⟨rfl, nofun, hvalues _ _ h.values, fun n hn => htypes _ _ n (h.types n hn), ?_⟩
      obtain ⟨t, hta, htb⟩ := h.stands
      exact ⟨t, (ha root).trans hta, (hb root').symm ▸ htb⟩
  | cons c cs =>
      refine ⟨rfl, ?_, h.values, h.types, h.stands⟩
      obtain ⟨hc, hcs⟩ := List.forall_mem_cons.mp h.unbound
      exact List.forall_mem_cons.mpr ⟨⟨(ha c).trans hc.1, (hb c).trans hc.2⟩, hcs⟩

lemma bind (h : s.Aliased a b s') (name : String) (v : Value) :
    (s.bind name v).Aliased a b (s'.bind name v) := by
  refine h.update (fun c c' hc => ?_) (fun _ _ _ hc => hc) (fun _ => rfl) (fun _ => rfl)
  exact congrArg (·.set name v) hc

lemma bindType (h : s.Aliased a b s') {name : String} (ha : name ≠ a) (hb : name ≠ b)
    (t : DataType) : (s.bindType name t).Aliased a b (s'.bindType name t) := by
  refine h.update (fun _ _ hc => hc) (fun c c' n hc => ?_) (fun c => ?_) (fun c => ?_)
  · rw [Bindings.get?_set, Bindings.get?_set, hc]
  · rw [Bindings.get?_set, if_neg ha]
  · rw [Bindings.get?_set, if_neg hb]

lemma opened (h : s.Aliased a b s') : s.opened.Aliased a b s'.opened where
  inner := congrArg (({} : Scope) :: ·) h.inner
  unbound := List.forall_mem_cons.mpr ⟨⟨rfl, rfl⟩, h.unbound⟩
  values := h.values
  types := h.types
  stands := h.stands

lemma closed (h : s.Aliased a b s') : s.closed.Aliased a b s'.closed where
  inner := congrArg List.tail h.inner
  unbound c hc := h.unbound c (List.mem_of_mem_tail hc)
  values := h.values
  types := h.types
  stands := h.stands

end Scopes.Aliased

/-! ## Runs in step -/

/-- Whether two states differ in nothing but the cells and what the root binds to the type `a`, and
this is what `b` stands for in the second one. -/
structure RunState.Aliased (a b : String) (s s' : RunState) : Prop where
  maxFrames : s.maxFrames = s'.maxFrames
  calls : s.calls = s'.calls
  scopes : s.frames.scopes.Aliased a b s'.frames.scopes
  linked : s.frames.Linked
  linked' : s'.frames.Linked

namespace RunState.Aliased

variable {s s' : RunState}

/-- An instruction that does not look up `a` sees no difference. -/
lemma looksLike (h : s.Aliased a b s') (hstack : s.stack = s'.stack) :
    s.LooksLike (fun _ => True) (· ≠ a) s' where
  stack := hstack
  maxFrames := h.maxFrames
  depth := by
    have hlength := congrArg List.length h.scopes.inner
    simpa [CallStack.scopes, CallStack.depth] using hlength
  value name _ := by
    rw [CallStack.get?_eq_value? h.linked, CallStack.get?_eq_value? h.linked', h.scopes.value?]
  type name hname := by
    rw [CallStack.getType?_eq_type? h.linked, CallStack.getType?_eq_type? h.linked',
      h.scopes.type? hname]

lemma withStack (h : s.Aliased a b s') (stack stack' : DataStack) :
    (s.withStack stack).Aliased a b (s'.withStack stack') :=
  ⟨h.maxFrames, h.calls, h.scopes, h.linked, h.linked'⟩

/-- The same effect keeps states in step if it binds a type to neither of the two names. -/
lemma apply (h : s.Aliased a b s') {effect : Effect}
    (heffect : ∀ name t, effect = .bindType name t → name ≠ a ∧ name ≠ b) :
    (effect.apply s).Aliased a b (effect.apply s') where
  maxFrames := by rw [effect.maxFrames_apply, effect.maxFrames_apply, h.maxFrames]
  calls := by rw [effect.calls_apply, effect.calls_apply, h.calls]
  scopes := by
    rw [effect.scopes_apply, effect.scopes_apply]
    cases effect with
    | none => exact h.scopes
    | call c => exact h.scopes
    | bind name v => exact h.scopes.bind name v
    | bindType name t =>
        obtain ⟨ha, hb⟩ := heffect name t rfl
        exact h.scopes.bindType ha hb t
    | openScope name span => exact h.scopes.opened
    | closeScope => exact h.scopes.closed
  linked := effect.linked_apply h.linked
  linked' := effect.linked_apply h.linked'

end RunState.Aliased

/-- Whether two runs end with the same error or with none, in states that are in step. -/
def EndInStep (a b : String) (r r' : RunState × Option RuntimeError) : Prop :=
  r.2 = r'.2 ∧ r.1.Aliased a b r'.1

section

variable {next next' : Option Instr} {i : Instr} {span span' : Span} {code code' : Code}
  {s s' : RunState}

/-- Of what stands behind it, an instruction sees whether it is a call. -/
lemma Instr.execute_next (h : Step.isCall next = Step.isCall next') (i : Instr) (span : Span) :
    i.execute next span = i.execute next' span := by
  cases i with
  | loadValue => simp only [execute, Step.loadValue, h]
  | loadMember => simp only [execute, Step.loadMember, h]
  | _ => rfl

lemma Instr.Allows.eq_bindType {name : String} {t : DataType}
    (h : i.Allows (.bindType name t)) : i = .bindType := by
  cases i with
  | bindType => rfl
  | store hasValue =>
      obtain ⟨_, _, heq⟩ := h
      cases heq
  | openScope =>
      obtain ⟨_, _, heq⟩ := h
      cases heq
  | call count =>
      obtain ⟨_, heq⟩ := h
      cases heq
  | _ => cases h

/-- One instruction has the same effect in both runs. -/
lemma EndInStep.step {P : Effect → Prop} (hs : s.Aliased a b s')
    (hsame : Step.SameEffect P s s' (i.execute (firstOf code next) span s)
      (i.execute (firstOf code' next') span s'))
    (hP : ∀ effect, P effect → ∀ name t, effect = .bindType name t → name ≠ a ∧ name ≠ b)
    (k : ∀ u u', i.execute (firstOf code next) span s = .ok ((), u) → u.stack = u'.stack →
      u.Aliased a b u' → EndInStep a b (runCode next code u) (runCode next' code' u')) :
    EndInStep a b (runCode next ((i, span) :: code) s) (runCode next' ((i, span) :: code') s') := by
  cases hexec : i.execute (firstOf code next) span s with
  | error fault =>
      rw [hexec] at hsame
      replace hsame : i.execute (firstOf code' next') span s' = .error fault := hsame
      rw [runCode, runCode, hexec, hsame]
      exact ⟨rfl, hs⟩
  | ok r =>
      rw [hexec] at hsame
      obtain ⟨stack, effect, heffect, -, ht, hexec'⟩ := hsame
      rw [runCode_cons_of_ok hexec, runCode_cons_of_ok hexec', ht]
      refine k _ _ (by rw [hexec, ← ht]) ?_ ((hs.withStack stack stack).apply (hP effect heffect))
      rw [effect.stack_apply, effect.stack_apply]
      rfl

/-- What becomes of a type where it is written: there must be room for its name, and then the name
must stand for something. -/
lemma runCode_typeName (name : String) (ref : TypeRef) (isArray isOptional : Bool) :
    runCode next
      ((.pushName name, span) :: (.resolveType ref isArray isOptional, span') :: code) s =
      if s.stack.cells.length < s.stack.limit then
        match Step.resolvedType s.frames.getType? ref name isArray isOptional with
        | .error fault => (s.withCells (.name name :: s.stack.cells), some ⟨fault, span'⟩)
        | .ok t => runCode next code (s.withCells (.type t :: s.stack.cells))
      else (s, some ⟨.tooManyCells s.stack.limit, span⟩) := by
  have hpush (c : Cell) := Step.push_eq c s
  by_cases hroom : s.stack.cells.length < s.stack.limit
  · have hname : Instr.execute (firstOf ((.resolveType ref isArray isOptional, span') :: code) next)
        span (.pushName name) s = .ok ((), s.withCells (.name name :: s.stack.cells)) := by
      simpa only [Instr.execute, if_pos hroom] using hpush (.name name)
    have htype : Instr.execute (firstOf code next) span' (.resolveType ref isArray isOptional)
        (s.withCells (.name name :: s.stack.cells)) =
          (Step.resolvedType s.frames.getType? ref name isArray isOptional).bind fun t =>
            .ok ((), s.withCells (.type t :: s.stack.cells)) := by
      rw [Instr.execute, Step.resolveType_eq ref isArray isOptional rfl]
      congr 1
      funext t
      exact (hpush (.type t)).trans (if_pos hroom)
    rw [runCode_cons_of_ok hname, if_pos hroom, runCode, htype]
    cases Step.resolvedType s.frames.getType? ref name isArray isOptional <;> rfl
  · have hname : Instr.execute (firstOf ((.resolveType ref isArray isOptional, span') :: code) next)
        span (.pushName name) s = .error (.tooManyCells s.stack.limit) := by
      simpa only [Instr.execute, if_neg hroom] using hpush (.name name)
    rw [runCode, hname, if_neg hroom]

/-- Runs of code in which another name is written stay in step. -/
theorem runCode_renamed (hcode : Code.Renamed a b code code') (ha : TypeRef.ofName a = .user)
    (hnext : Step.isCall next = Step.isCall next') (hstack : s.stack = s'.stack)
    (hs : s.Aliased a b s') :
    EndInStep a b (runCode next code s) (runCode next' code' s') := by
  induction hcode generalizing s s' with
  | nil => exact ⟨rfl, hs⟩
  | type name isArray isOptional span span' _ ih =>
      have hlookup : Step.resolvedType s.frames.getType? (.ofName name) name isArray isOptional =
          Step.resolvedType s'.frames.getType? (.ofName (TypeExpr.renamedName a b name))
            (TypeExpr.renamedName a b name) isArray isOptional := by
        rw [funext (CallStack.getType?_eq_type? hs.linked),
          funext (CallStack.getType?_eq_type? hs.linked')]
        exact hs.scopes.resolvedType_eq ha name isArray isOptional
      rw [runCode_typeName, runCode_typeName, ← hstack, ← hlookup]
      split
      · cases Step.resolvedType s.frames.getType? (.ofName name) name isArray isOptional with
        | error fault => exact ⟨rfl, hs.withStack _ _⟩
        | ok t =>
            refine ih ?_ (hs.withStack _ _)
            rw [RunState.withCells, RunState.withCells, hstack]
      · exact ⟨rfl, hs⟩
  | @define rest rest' name span span' hna hnb hrest ih =>
      have hpush := Instr.execute_does (hs.looksLike hstack) (.pushName name)
        (firstOf ((.bindType, span') :: rest) next) span (fun _ _ => trivial)
        fun n hlooks => hlooks.elim
      refine EndInStep.step hs hpush (fun effect heffect n t ht => ?_) fun u u' hexec hu hu' => ?_
      · exact Effect.noConfusion (heffect.symm.trans ht)
      · have hbind := Step.sameEffect_popName (Step.cells_of_push hexec) (hu'.looksLike hu)
          (Step.does_bindTypeAs name)
        refine EndInStep.step hu' hbind (fun effect heffect n t ht => ?_) fun _ _ _ => ih
        obtain ⟨t', heffect⟩ := heffect
        cases heffect.symm.trans ht
        exact ⟨hna, hnb⟩
  | @cons i span rest rest' hi hi' hrest ih =>
      have hdoes := i.execute_does (hs.looksLike hstack) (firstOf rest next) span
        (fun _ _ => trivial) fun n hlooks => (Instr.not_looksUpType hi _ n hlooks).elim
      have hbehind := Instr.execute_next (hrest.isCall_firstOf hnext) i span
      refine EndInStep.step (P := i.Allows) hs ?_ (fun effect heffect n t ht => ?_) fun _ _ _ => ih
      · rw [hbehind] at hdoes ⊢
        exact hdoes
      · rw [ht] at heffect
        exact absurd heffect.eq_bindType hi'

end

/-! ## Programs with an alias -/

lemma TypeRef.ofName_eq_user (h : a ∉ builtinNames) : ofName a = .user := by
  simp only [builtinNames, List.mem_cons, List.not_mem_nil, or_false, not_or] at h
  simp only [ofName, h.1, h.2.1, h.2.2.1, h.2.2.2, if_false]

/-- An alias is bound to what the other name stands for. -/
lemma Stmt.run_alias {type : TypeExpr} (harray : type.isArray = false)
    (hoptional : type.isOptional = false) (hobject : type.isObject = false) {span : Span}
    {code : Code} (h : (Stmt.typedef a type span).compile = .ok code) {next : Option Instr}
    {s t : RunState} (hlinked : s.frames.Linked) (hinner : s.frames.inner = [])
    (hrun : runCode next code s = (t, none)) :
    t.stack = s.stack ∧ t.Aliased a type.name s := by
  have hperforms : Performs next code s s.stack.cells _ := Stmt.performs_eval _ h hlinked
  have hlimits := runCode_limits next code s
  rw [Performs, hrun] at hperforms
  rw [hrun] at hlimits
  obtain ⟨heval, hcells, -, hlinked'⟩ := hperforms
  have hroot : s.frames.scopes.type? type.name = s.frames.scopes.root.types.get? type.name :=
    Scopes.Aliased.type?_of_unbound (by simp [CallStack.scopes, hinner])
  have hdefinition : type.evalDefinition s.world.scopes a = located type.span
      (Step.resolvedType s.frames.scopes.type? (.ofName type.name) type.name false false) := by
    rw [TypeExpr.evalDefinition, hobject, TypeExpr.eval, harray, hoptional]
    rfl
  rw [Stmt.eval, hdefinition, Step.resolvedType, hroot] at heval
  cases hstands : (DataType.primitive? (.ofName type.name)).or
      (s.frames.scopes.root.types.get? type.name) with
  | none =>
      rw [hstands] at heval
      have hfailed := congrArg Prod.snd heval
      cases hfailed
  | some d =>
      have hsame : d.withOptional (d.isOptional || false) = d := by
        cases d
        simp [DataType.withOptional]
      rw [hstands] at heval
      simp only [Bool.false_eq_true, if_false, hsame] at heval
      have hworld : t.world = { s.world with scopes := s.world.scopes.bindType a d } :=
        (congrArg Prod.fst heval).symm
      have hscopes : t.frames.scopes =
          ⟨[], { s.frames.scopes.root with types := s.frames.scopes.root.types.set a d }⟩ := by
        refine (congrArg World.scopes hworld).trans ?_
        simp [RunState.world, Scopes.bindType, Scopes.update, CallStack.scopes, hinner]
      refine ⟨DataStack.eq_of_cells hcells hlimits.1, hlimits.2, congrArg World.calls hworld, ?_,
        hlinked', hlinked⟩
      rw [hscopes]
      refine ⟨by simp [CallStack.scopes, hinner], by simp, rfl, fun n hn => ?_, d, ?_, hstands⟩
      · rw [Bindings.get?_set, if_neg hn.symm]
      · rw [Bindings.get?_set, if_pos rfl]

/-- Let a definition `type A: B` stand at the top of an accepted program, where `B` is the plain
name of a type and `A` neither that of a builtin type nor `object`, and let no definition behind it,
at any depth, be one of `A` or `B`.  Whatever the host has bound and whatever the limits are, if the
program up to and with this definition succeeds, then the program in which the definition is left
out and `B` is written for `A` behind it is accepted too, and its run

* gives the same result: both succeed, or both fail with the same error at the same place;
* leaves the same values in the root scope, in the same order, and makes the same calls;
* leaves the same types there, but for what is bound to `A`. -/
theorem Block.alias_transparent {pre post : List Stmt} {type : TypeExpr}
    (harray : type.isArray = false) (hoptional : type.isOptional = false)
    (hobject : type.isObject = false) (hbuiltin : a ∉ TypeRef.builtinNames)
    (ha : a ≠ objectName)
    (hpost : ∀ n ∈ Stmt.definedTypesAll post, n ≠ a ∧ n ≠ type.name) {span textSpan : Span}
    {c c₀ : Chunk}
    (h : (Block.mk (pre ++ .typedef a type span :: post) textSpan).compile = .ok c)
    (h₀ : (Block.mk (pre ++ [.typedef a type span]) textSpan).compile = .ok c₀)
    (limits : Limits) (host : List HostBinding)
    (hrun : (c₀.machine limits host).run.failure = none) :
    ∃ c' failure values types types' calls,
      (Block.mk (pre ++ Stmt.renamedAll a type.name post) textSpan).compile = .ok c' ∧
      (c.machine limits host).run.outcome = ⟨failure, values, types, calls⟩ ∧
      (c'.machine limits host).run.outcome = ⟨failure, values, types', calls⟩ ∧
      ∀ name, name ≠ a → types.get? name = types'.get? name := by
  obtain ⟨all, hall, hlocated⟩ := compile_ok h
  obtain ⟨before, rest, hpre, hrest, rfl⟩ := Stmt.compileAll_append_ok hall
  obtain ⟨definition, behind, hdefinition, hbehind, rfl⟩ := Stmt.compileAll_cons_ok hrest
  have hfirst : Stmt.compileAll (pre ++ [.typedef a type span]) = .ok (before ++ definition) := by
    have hlast := Stmt.compileAll_cons hdefinition (rfl : Stmt.compileAll [] = .ok [])
    rw [List.append_nil] at hlast
    exact Stmt.compileAll_append hpre hlast
  obtain ⟨all₀, hall₀, hlocated₀⟩ := compile_ok h₀
  obtain rfl : all₀ = before ++ definition := Except.ok.inj (hall₀.symm.trans hfirst)
  have hobject' : type.name ≠ objectName := by simpa [TypeExpr.isObject] using hobject
  obtain ⟨behind', hbehind', hrenamed⟩ := Stmt.compileAll_renamed ha hobject' post hpost hbehind
  obtain ⟨c', hc', hlocated'⟩ : ∃ c', (Block.mk (pre ++ Stmt.renamedAll a type.name post)
      textSpan).compile = .ok c' ∧ c'.located = before ++ behind' :=
    compile_of_compileAll (Stmt.compileAll_append hpre hbehind')
  -- both runs come to where the definition has been executed in one of them
  rcases hends₀ : runCode none c₀.located (.hosted limits host) with ⟨t, r⟩
  have houtcome₀ := Stmt.outcome_of_runCode (hlocated₀ ▸ hall₀) hends₀
  obtain rfl : r = none := (congrArg Outcome.failure houtcome₀).symm.trans hrun
  rw [hlocated₀] at hends₀
  obtain ⟨u, hbefore, hdefined⟩ := runCode_append_ok hends₀
  obtain ⟨-, hinner, hlinked⟩ := Stmt.settled_of_runCode hpre hbefore
  obtain ⟨hstack, hstep⟩ :=
    Stmt.run_alias harray hoptional hobject hdefinition hlinked hinner hdefined
  have hbefore' (next : Option Instr) := (Stmt.runCode_next_all hpre next _ _).trans hbefore
  have hdefined' (next : Option Instr) := (Stmt.runCode_next hdefinition next _ _).trans hdefined
  have hends : runCode none c.located (.hosted limits host) = runCode none behind t := by
    rw [hlocated, runCode_append_of_ok (hbefore' _), runCode_append_of_ok (hdefined' _)]
  have hends' : runCode none c'.located (.hosted limits host) = runCode none behind' u := by
    rw [hlocated', runCode_append_of_ok (hbefore' _)]
  obtain ⟨hsame, hinstep⟩ :
      EndInStep a type.name (runCode none behind t) (runCode none behind' u) :=
    runCode_renamed hrenamed (TypeRef.ofName_eq_user hbuiltin) rfl hstack hstep
  have houtcome := Stmt.outcome_of_runCode (hlocated ▸ hall) hends
  have houtcome' := Stmt.outcome_of_runCode
    (hlocated' ▸ Stmt.compileAll_append hpre hbehind') hends'
  refine ⟨c', _, _, _, _, _, hc', houtcome, ?_, hinstep.scopes.types⟩
  rw [houtcome', ← hsame, hinstep.calls]
  exact congrArg (fun values => Outcome.mk _ values _ _) hinstep.scopes.values.symm

/-- The definition `type Point: object { x: int }`. -/
def Stmt.pointDefined : Stmt :=
  Stmt.typedef "Point" (.object [⟨"x", .named "int" {}, {}⟩] {}) {}

/-- The definition `type Spot: Point`. -/
def Stmt.spotDefined : Stmt := Stmt.typedef "Spot" (.named "Point" {}) {}

/-- The statement `s { type Line: []Spot let p: Spot = new { x = 1 } print(p.x) }`. -/
def Stmt.spotUsed : Stmt :=
  .scope "s" [
    Stmt.typedef "Line" ⟨"Spot", true, false, [], {}⟩ {},
    .binding "p" (.named "Spot" {}) (some (.object [⟨"x", .literal (.integer 1) {}, {}⟩] {})) {},
    .effect (.call (.name "print" {}) [.member (.name "p" {}) "x" {}] {}) {}] {} {}

/-- In a scope `Spot` stands for `Point`, within another type and as the type of a new object. -/
theorem Block.alias_transparent_spot : ∃ c c₀ c' failure values types types' calls,
    (Block.mk [Stmt.pointDefined, Stmt.spotDefined, Stmt.spotUsed] {}).compile = .ok c ∧
    (Block.mk [Stmt.pointDefined, Stmt.spotDefined] {}).compile = .ok c₀ ∧
    (c₀.machine {} [.register ⟨"print", .print⟩]).run.failure = none ∧
    (Block.mk ([Stmt.pointDefined] ++ Stmt.renamedAll "Spot" "Point" [Stmt.spotUsed])
      {}).compile = .ok c' ∧
    (c.machine {} [.register ⟨"print", .print⟩]).run.outcome = ⟨failure, values, types, calls⟩ ∧
    (c'.machine {} [.register ⟨"print", .print⟩]).run.outcome =
      ⟨failure, values, types', calls⟩ ∧
    ∀ name, name ≠ "Spot" → types.get? name = types'.get? name := by
  obtain ⟨c, hc⟩ : ∃ c, (Block.mk ([Stmt.pointDefined] ++ Stmt.spotDefined :: [Stmt.spotUsed])
    {}).compile = .ok c := ⟨_, rfl⟩
  obtain ⟨c₀, hc₀⟩ : ∃ c₀, (Block.mk ([Stmt.pointDefined] ++ [Stmt.spotDefined]) {}).compile =
    .ok c₀ := ⟨_, rfl⟩
  have hrun : (c₀.machine {} [.register ⟨"print", .print⟩]).run.failure = none := by
    cases hc₀
    decide +kernel
  obtain ⟨c', failure, values, types, types', calls, hc', houtcome, houtcome', htypes⟩ :=
    alias_transparent rfl rfl (by decide) (by decide) (by decide) (by decide) hc hc₀ {}
      [.register ⟨"print", .print⟩] hrun
  exact ⟨c, c₀, c', failure, values, types, types', calls, hc, hc₀, hrun, hc', houtcome, houtcome',
    htypes⟩

end

end TypedConfig
