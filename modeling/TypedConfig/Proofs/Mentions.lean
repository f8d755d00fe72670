import TypedConfig.Proofs.Likeness
import TypedConfig.Proofs.Refinement

/-!
# The names that a declaration looks up

A declaration is a binding or a type definition.  Which names it looks up can be read off the tree:
the names of the types that are written in it (`Stmt.typeNames`) and the names at the heads of its
paths (`Stmt.heads`).  Its code looks up no others (`Code.Reads`).

**What follows.** In two states that agree on these names, the code of a declaration does the same:
it changes nothing but what the name of the declaration is bound to (`Stmt.run_declaration`).

**Calls** look up one more name, that of a method, which is put together from the type of a value.
So nothing like this can be said of them.
-/

namespace TypedConfig

/-! ## Names in a tree -/

/-- The names of types that a written type mentions: its own, or those of the fields of a shape. -/
def TypeExpr.typeNames (t : TypeExpr) : List String :=
  if t.isObject then t.fields.map (·.type.name) else [t.name]

mutual

/-- The names at the heads of the paths in an expression. -/
def Expr.heads : Expr → List String
  | .name n _ => [n]
  | .literal _ _ => []
  | .object fields _ => FieldInit.headsAll fields
  | .call callee arguments _ => callee.heads ++ Expr.headsAll arguments
  | .member value _ _ => value.heads

/-- The names at the heads of the paths in expressions. -/
def Expr.headsAll : List Expr → List String
  | [] => []
  | e :: es => e.heads ++ Expr.headsAll es

/-- The names at the heads of the paths in the fields of a new object. -/
def FieldInit.headsAll : List FieldInit → List String
  | [] => []
  | ⟨_, value, _⟩ :: fs => value.heads ++ FieldInit.headsAll fs

end

namespace Stmt

/-- Whether a statement is a binding or a type definition. -/
def isDeclaration : Stmt → Bool
  | .binding .. | .typedef .. => true
  | _ => false

/-- The name to which a statement binds a value in the scope where it stands. -/
def boundValue? : Stmt → Option String
  | .binding name _ _ _ => some name
  | _ => none

/-- The name to which a statement binds a type in the scope where it stands. -/
def boundType? : Stmt → Option String
  | .typedef name _ _ => some name
  | _ => none

/-- The names at the heads of the paths in a declaration. -/
def heads : Stmt → List String
  | .binding _ _ (some e) _ => e.heads
  | _ => []

/-- The names of types that a declaration mentions. -/
def typeNames : Stmt → List String
  | .binding _ type _ _ => [type.name]
  | .typedef _ type _ => type.typeNames
  | _ => []

end Stmt

/-- Whether an effect binds the name of a declaration, in the right table. -/
def Stmt.Binds (st : Stmt) : Effect → Prop
  | .bind name _ => st.boundValue? = some name
  | .bindType name _ => st.boundType? = some name
  | _ => False

namespace Scopes

lemma findSome?_update {α : Type} {f : Scope → Scope} {look : Scope → Option α}
    (hf : ∀ c, look (f c) = look c) (s : Scopes) :
    (s.update f).all.findSome? look = s.all.findSome? look := by
  obtain ⟨_ | ⟨c, cs⟩, root⟩ := s <;> simp [update, all, List.findSome?_cons, hf]

end Scopes

lemma Stmt.Binds.made {st : Stmt} {effect : Effect} (h : st.Binds effect) : effect.made = [] := by
  cases effect with
  | call c => exact h.elim
  | _ => rfl

/-- What a declaration binds is not seen by what does not look up its name. -/
lemma Stmt.Binds.looksLike {st : Stmt} {effect : Effect} (h : st.Binds effect)
    {values types : String → Prop} (hvalues : ∀ n, st.boundValue? = some n → ¬ values n)
    (htypes : ∀ n, st.boundType? = some n → ¬ types n) {s : RunState} (hs : s.frames.Linked) :
    (effect.apply s).LooksLike values types s where
  stack := effect.stack_apply s
  maxFrames := effect.maxFrames_apply s
  depth := by
    cases effect with
    | bind name v => exact CallStack.depth_updateCurrent s.frames _
    | bindType name t => exact CallStack.depth_updateCurrent s.frames _
    | _ => exact h.elim
  value name hname := by
    rw [CallStack.get?_eq_value? (effect.linked_apply hs), CallStack.get?_eq_value? hs,
      effect.scopes_apply]
    cases effect with
    | bind n v =>
        have hne : n ≠ name := fun heq => hvalues n h (heq ▸ hname)
        refine Scopes.findSome?_update (fun c => ?_) _
        rw [Bindings.get?_set, if_neg hne]
    | bindType n t =>
        exact Scopes.findSome?_update (f := fun c => { c with types := c.types.set n t })
          (fun _ => rfl) _
    | _ => exact h.elim
  type name hname := by
    rw [CallStack.getType?_eq_type? (effect.linked_apply hs), CallStack.getType?_eq_type? hs,
      effect.scopes_apply]
    cases effect with
    | bind n v =>
        exact Scopes.findSome?_update (f := fun c => { c with values := c.values.set n v })
          (fun _ => rfl) _
    | bindType n t =>
        have hne : n ≠ name := fun heq => htypes n h (heq ▸ hname)
        refine Scopes.findSome?_update (fun c => ?_) _
        rw [Bindings.get?_set, if_neg hne]
    | _ => exact h.elim

/-! ## Names in code -/

variable {values types : String → Prop}

/-- Whether a piece of code looks up no other values and types than those with the given names, each
right behind its name. -/
inductive Code.Reads (values types : String → Prop) : Code → Prop
  | nil : Reads values types []
  | value {code : Code} (name : String) (span span' : Span) : values name →
      Reads values types code →
      Reads values types ((.pushName name, span) :: (.loadValue, span') :: code)
  | type {code : Code} (name : String) (isArray isOptional : Bool) (span span' : Span) :
      types name → Reads values types code →
      Reads values types ((.pushName name, span) ::
        (.resolveType (.ofName name) isArray isOptional, span') :: code)
  | cons {i : Instr} {span : Span} {code : Code} : (∀ cells name, ¬ i.LooksUp cells name) →
      (∀ cells name, ¬ i.LooksUpType cells name) → Reads values types code →
      Reads values types ((i, span) :: code)

namespace Code.Reads

lemma append {first rest : Code} (hfirst : Reads values types first)
    (hrest : Reads values types rest) : Reads values types (first ++ rest) := by
  induction hfirst with
  | nil => exact hrest
  | value name span span' hname _ ih => exact .value name span span' hname ih
  | type name isArray isOptional span span' hname _ ih =>
      exact .type name isArray isOptional span span' hname ih
  | cons hi hi' _ ih => exact .cons hi hi' ih

/-- An instruction that looks nothing up may stand anywhere. -/
lemma single {i : Instr} (hi : ∀ cells name, ¬ i.LooksUp cells name)
    (hi' : ∀ cells name, ¬ i.LooksUpType cells name) (span : Span) :
    Reads values types [(i, span)] :=
  .cons hi hi' .nil

end Code.Reads

lemma TypeExpr.reads_of_compile {t : TypeExpr} {code : Code} (h : t.compile = .ok code)
    (ht : types t.name) : code.Reads values types := by
  obtain rfl := TypeExpr.compile_ok h
  exact .type t.name t.isArray t.isOptional t.span t.span ht .nil

lemma FieldDecl.reads_of_compileAll {fs : List FieldDecl} {code : Code}
    (h : compileAll fs = .ok code) (ht : ∀ n ∈ fs.map (·.type.name), types n) :
    code.Reads values types := by
  induction fs generalizing code with
  | nil =>
      cases h
      exact .nil
  | cons f fs ih =>
      obtain ⟨type, rest, htype, hrest, rfl⟩ := compileAll_cons_ok h
      obtain ⟨hf, hfs⟩ := List.forall_mem_cons.mp ht
      exact (f.type.reads_of_compile htype hf).append
        (.cons (fun _ _ => id) (fun _ _ => id) (ih hrest hfs))

lemma TypeExpr.reads_of_compileDefinition {t : TypeExpr} {code : Code}
    (h : t.compileDefinition = .ok code) (ht : ∀ n ∈ t.typeNames, types n) :
    code.Reads values types := by
  rw [typeNames] at ht
  rcases TypeExpr.compileDefinition_ok h with ⟨hobject, htype⟩ | ⟨hobject, fields, hfields, rfl⟩
  · rw [hobject] at ht
    exact t.reads_of_compile htype (ht t.name List.mem_cons_self)
  · rw [hobject] at ht
    exact (FieldDecl.reads_of_compileAll hfields ht).append
      (.single (fun _ _ => id) (fun _ _ => id) t.span)

mutual

lemma Expr.reads_of_compile (e : Expr) {typed : Bool} {code : Code}
    (h : e.compile typed = .ok code) (hv : ∀ n ∈ e.heads, values n) :
    code.Reads values types := by
  match e, h, hv with
  | .name n span, h, hv =>
      cases h
      exact .value n span span (hv n List.mem_cons_self) .nil
  | .literal l span, h, _ =>
      cases h
      exact .single (fun _ _ => id) (fun _ _ => id) span
  | .member value n span, h, hv =>
      obtain ⟨receiver, hreceiver, rfl⟩ := Expr.compile_member_ok h
      exact (Expr.reads_of_compile value hreceiver hv).append
        (.cons (fun _ _ => id) (fun _ _ => id) (.single (fun _ _ => id) (fun _ _ => id) span))
  | .object fields span, h, hv =>
      obtain ⟨-, inits, hinits, rfl⟩ := Expr.compile_object_ok h
      exact .cons (fun _ _ => id) (fun _ _ => id) ((FieldInit.reads_of_compileAll fields hinits
        hv).append (.single (fun _ _ => id) (fun _ _ => id) span))
  | .call .., h, _ => cases h

lemma FieldInit.reads_of_compileAll (fs : List FieldInit) {code : Code}
    (h : FieldInit.compileAll fs = .ok code) (hv : ∀ n ∈ FieldInit.headsAll fs, values n) :
    code.Reads values types := by
  match fs, h, hv with
  | [], h, _ =>
      cases h
      exact .nil
  | ⟨name, value, span⟩ :: fs, h, hv =>
      obtain ⟨init, rest, hinit, hrest, rfl⟩ := FieldInit.compileAll_cons_ok h
      obtain ⟨hvalue, hfs⟩ := List.forall_mem_append.mp hv
      have hinit := Expr.reads_of_compile value hinit hvalue
      have hrest := FieldInit.reads_of_compileAll fs hrest hfs
      exact .cons (fun _ _ => id) (fun _ _ => id)
        ((hinit.append (.single (fun _ _ => id) (fun _ _ => id) span)).append hrest)

end

/-- Code of a declaration looks up the names that the declaration mentions, and then binds its
own. -/
lemma Stmt.compile_declaration {st : Stmt} (hst : st.isDeclaration = true) {code : Code}
    (h : st.compile = .ok code) :
    ∃ front name i span, code = front ++ [(.pushName name, span), (i, span)] ∧
      Code.Reads (· ∈ st.heads) (· ∈ st.typeNames) front ∧ Code.IsQuiet front ∧
      (st.boundValue? = some name ∧ st.boundType? = none ∧ (∃ hasValue, i = .store hasValue) ∨
        st.boundValue? = none ∧ st.boundType? = some name ∧ i = .bindType) := by
  cases st with
  | typedef name type span =>
      obtain ⟨definition, hdefinition, rfl⟩ := Stmt.compile_typedef_ok h
      exact ⟨definition, name, .bindType, span, rfl,
        type.reads_of_compileDefinition hdefinition fun n hn => hn,
        type.isQuiet_of_compileDefinition hdefinition, .inr ⟨rfl, rfl, rfl⟩⟩
  | binding name type value span =>
      obtain ⟨declared, bound, hdeclared, hbound, rfl⟩ := Stmt.compile_binding_ok h
      have hvalue := Code.isQuiet_of_value (Expr.isOfValue_of_compileBound hbound)
      refine ⟨declared ++ bound, name, .store value.isSome, span, rfl,
        (type.reads_of_compile hdeclared List.mem_cons_self).append ?_,
        (type.isQuiet_of_compile hdeclared).append hvalue, .inl ⟨rfl, rfl, _, rfl⟩⟩
      cases value with
      | none =>
          cases hbound
          exact .nil
      | some e => exact e.reads_of_compile hbound fun n hn => hn
  | _ => cases hst

/-! ## Running code that looks up certain names -/

section

variable {next : Option Instr} {span : Span} {s s' t : RunState}

lemma RunState.withStack_self (s : RunState) : s.withStack s.stack = s := rfl

/-- A quiet instruction changes the cells in the same way in states that look alike. -/
lemma Instr.IsQuiet.execute {i : Instr} (hi : i.IsQuiet) (hs : s.LooksLike values types s')
    (hvalues : ∀ name, i.LooksUp s.stack.cells name → values name)
    (htypes : ∀ name, i.LooksUpType s.stack.cells name → types name)
    (h : i.execute next span s = .ok ((), t)) :
    ∃ stack, t = s.withStack stack ∧ i.execute next span s' = .ok ((), s'.withStack stack) := by
  have hdoes := i.execute_does hs next span hvalues htypes
  rw [h] at hdoes
  obtain ⟨stack, effect, hallows, -, ht, ht'⟩ := hdoes
  obtain rfl := hi effect hallows
  exact ⟨stack, ht, ht'⟩

/-- Quiet code changes the cells in the same way in states that agree on the names it looks up. -/
lemma Code.Reads.runCode_quiet {code : Code} (hcode : code.Reads values types)
    (hquiet : code.IsQuiet) (hs : s.LooksLike values types s')
    (h : runCode next code s = (t, none)) :
    ∃ stack, t = s.withStack stack ∧ runCode next code s' = (s'.withStack stack, none) := by
  have hlookup {i : Instr} {code : Code} {s s' : RunState} {stack : DataStack} {span : Span}
      (hexec : i.execute (firstOf code next) span s' = .ok ((), s'.withStack stack))
      (hrest : ∃ stack', t = (s.withStack stack).withStack stack' ∧
        runCode next code (s'.withStack stack) = ((s'.withStack stack).withStack stack', none)) :
      ∃ stack', t = s.withStack stack' ∧
        runCode next ((i, span) :: code) s' = (s'.withStack stack', none) := by
    obtain ⟨stack', ht, ht'⟩ := hrest
    exact ⟨stack', ht, (runCode_cons_of_ok hexec).trans ht'⟩
  induction hcode generalizing s s' with
  | nil =>
      cases h
      refine ⟨_, (RunState.withStack_self _).symm, ?_⟩
      rw [hs.stack]
      rfl
  | value name span span' hname _ ih =>
      obtain ⟨hpush, hquiet⟩ := List.forall_mem_cons.mp hquiet
      obtain ⟨hload, hrest⟩ := List.forall_mem_cons.mp hquiet
      obtain ⟨u, hu, h⟩ := runCode_cons_ok h
      obtain ⟨v, hv, h⟩ := runCode_cons_ok h
      obtain ⟨stack, rfl, hu'⟩ := hpush.execute hs nofun nofun hu
      obtain ⟨stack', rfl, hv'⟩ := hload.execute (hs.withStack stack)
        (fun n hlooks => by
          obtain ⟨cs, hcells⟩ := hlooks
          rw [Step.cells_of_push hu] at hcells
          cases hcells
          exact hname) nofun hv
      exact hlookup hu' (hlookup hv' (ih hrest ((hs.withStack stack).withStack stack') h))
  | type name isArray isOptional span span' hname _ ih =>
      obtain ⟨hpush, hquiet⟩ := List.forall_mem_cons.mp hquiet
      obtain ⟨hload, hrest⟩ := List.forall_mem_cons.mp hquiet
      obtain ⟨u, hu, h⟩ := runCode_cons_ok h
      obtain ⟨v, hv, h⟩ := runCode_cons_ok h
      obtain ⟨stack, rfl, hu'⟩ := hpush.execute hs nofun nofun hu
      obtain ⟨stack', rfl, hv'⟩ := hload.execute (hs.withStack stack) nofun
        (fun n hlooks => by
          rw [Step.cells_of_push hu] at hlooks
          obtain ⟨rfl, -⟩ := Instr.looksUpType_named hlooks
          exact hname) hv
      exact hlookup hu' (hlookup hv' (ih hrest ((hs.withStack stack).withStack stack') h))
  | cons hi hi' _ ih =>
      obtain ⟨hfirst, hrest⟩ := List.forall_mem_cons.mp hquiet
      obtain ⟨u, hu, h⟩ := runCode_cons_ok h
      obtain ⟨stack, rfl, hu'⟩ := hfirst.execute hs
        (fun n hlooks => (hi _ n hlooks).elim) (fun n hlooks => (hi' _ n hlooks).elim) hu
      exact hlookup hu' (ih hrest (hs.withStack stack) h)

/-- A declaration does the same in states that agree on the names that it mentions: it binds its
name. -/
theorem Stmt.run_declaration {st : Stmt} (hst : st.isDeclaration = true) {code : Code}
    (h : st.compile = .ok code) (hlinked : s.frames.Linked)
    (hs : s.LooksLike (· ∈ st.heads) (· ∈ st.typeNames) s')
    (hrun : runCode next code s = (t, none)) :
    ∃ effect, st.Binds effect ∧ t = effect.apply s ∧
      runCode next code s' = (effect.apply s', none) := by
  have hcells := (Stmt.performs_eval st h hlinked).cells_eq (congrArg (·.2) hrun)
  have hlimits := runCode_limits next code s
  rw [hrun] at hcells hlimits
  have hstack : t.stack = s.stack := DataStack.eq_of_cells hcells hlimits.1
  obtain ⟨front, name, i, span, rfl, hreads, hquiet, hlast⟩ := Stmt.compile_declaration hst h
  obtain ⟨u, hfront, hrun⟩ := runCode_append_ok hrun
  obtain ⟨v, hpush, hrun⟩ := runCode_cons_ok hrun
  obtain ⟨w, hbind, hrun⟩ := runCode_cons_ok hrun
  obtain ⟨stack, rfl, hfront'⟩ := hreads.runCode_quiet hquiet hs hfront
  have hs' := hs.withStack stack
  have hname : (Instr.pushName name).IsQuiet := fun _ h => h
  obtain ⟨stack', rfl, hpush'⟩ :=
    hname.execute hs' (fun _ h => h.elim) (fun _ h => h.elim) hpush
  have hs'' := hs'.withStack stack'
  have htop := Step.cells_of_push hpush
  have hsame : Step.SameEffect st.Binds ((s.withStack stack).withStack stack')
      ((s'.withStack stack).withStack stack')
      (i.execute (firstOf [] next) span ((s.withStack stack).withStack stack'))
      (i.execute (firstOf [] next) span ((s'.withStack stack).withStack stack')) := by
    rcases hlast with ⟨hname, -, hasValue, rfl⟩ | ⟨-, hname, rfl⟩
    · refine Step.sameEffect_popName htop hs'' ((Step.does_storeAs hasValue name).imp ?_)
      rintro _ ⟨v, rfl⟩
      exact hname
    · refine Step.sameEffect_popName htop hs'' ((Step.does_bindTypeAs name).imp ?_)
      rintro _ ⟨t, rfl⟩
      exact hname
  rw [hbind] at hsame
  obtain ⟨stack'', effect, hbinds, -, rfl, hbind'⟩ := hsame
  cases hrun
  have hstack' : stack'' = s.stack := by
    cases effect <;> exact hstack
  subst hstack'
  refine ⟨effect, hbinds, rfl, ?_⟩
  rw [runCode_append_of_ok hfront', runCode_cons_of_ok hpush', runCode_cons_of_ok hbind', hs.stack]
  rfl

end

end TypedConfig
