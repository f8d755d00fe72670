import TypedConfig.Proofs.Boundaries

/-!
# Runs side by side

The builtin types are found without a lookup, so what is bound to their names does not matter.  Two
states that differ in nothing else are alike (`RunState.Alike`), except that their records of calls
may differ in any way.

**Names of types.** In compiled code a type is resolved right behind its own name
(`Code.NamesTypes`), so the name that is looked up is never that of a builtin type.

**Runs.** From states that are alike, code comes to states that are alike and makes the same calls
(`runCode_alike`).

**Calls.** Code that gets through makes one call for each call instruction (`calls_runCode`).
-/

namespace TypedConfig

/-! ## Types that are not builtin -/

/-- The names of the builtin types. -/
def TypeRef.builtinNames : List String := ["int", "bool", "string", "float"]

/-- A type that is looked up does not have the name of a builtin type. -/
lemma TypeRef.not_mem_builtinNames {name : String} (h : ofName name = .user) :
    name ∉ builtinNames := by
  intro hname
  simp only [builtinNames, List.mem_cons, List.not_mem_nil, or_false] at hname
  rcases hname with rfl | rfl | rfl | rfl <;> exact absurd h (by decide)

namespace Bindings

variable {α : Type} {name : String}

/-- The bindings without those of the names of builtin types. -/
def withoutBuiltin (b : Bindings α) : Bindings α := b.filter fun e => e.1 ∉ TypeRef.builtinNames

lemma withoutBuiltin_cons (e : String × α) (b : Bindings α) :
    withoutBuiltin (e :: b) =
      if e.1 ∈ TypeRef.builtinNames then withoutBuiltin b else e :: withoutBuiltin b := by
  by_cases he : e.1 ∈ TypeRef.builtinNames <;> simp [withoutBuiltin, he]

lemma get?_withoutBuiltin (h : name ∉ TypeRef.builtinNames) (b : Bindings α) :
    b.withoutBuiltin.get? name = b.get? name := by
  induction b with
  | nil => rfl
  | cons e b ih =>
      obtain ⟨n, x⟩ := e
      rw [withoutBuiltin_cons]
      split <;> rename_i hn
      · have hne : n ≠ name := fun heq => h (heq ▸ hn)
        rw [ih, get?, if_neg hne]
      · rw [get?, get?, ih]

/-- Binding the name of a builtin type changes nothing else. -/
lemma withoutBuiltin_set (h : name ∈ TypeRef.builtinNames) (b : Bindings α) (x : α) :
    (b.set name x).withoutBuiltin = b.withoutBuiltin := by
  induction b with
  | nil => rw [set, withoutBuiltin_cons, if_pos h]
  | cons e b ih =>
      obtain ⟨n, y⟩ := e
      rw [set]
      split <;> rename_i hn
      · rw [withoutBuiltin_cons, withoutBuiltin_cons, if_pos (hn ▸ h), if_pos (hn ▸ h)]
      · rw [withoutBuiltin_cons, withoutBuiltin_cons, ih]

lemma set_withoutBuiltin (h : name ∉ TypeRef.builtinNames) (b : Bindings α) (x : α) :
    (b.set name x).withoutBuiltin = b.withoutBuiltin.set name x := by
  induction b with
  | nil => rw [set, withoutBuiltin_cons, if_neg h]; rfl
  | cons e b ih =>
      obtain ⟨n, y⟩ := e
      rw [set]
      split <;> rename_i hn
      · subst hn
        rw [withoutBuiltin_cons, withoutBuiltin_cons, if_neg h, if_neg h, set, if_pos rfl]
      · rw [withoutBuiltin_cons, withoutBuiltin_cons, ih]
        split
        · rfl
        · rw [set, if_neg hn]

/-- What is bound to the names of builtin types has no part in what becomes of the others. -/
lemma withoutBuiltin_set_congr {b b' : Bindings α} (h : b.withoutBuiltin = b'.withoutBuiltin)
    (name : String) (x : α) : (b.set name x).withoutBuiltin = (b'.set name x).withoutBuiltin := by
  by_cases hname : name ∈ TypeRef.builtinNames
  · rw [withoutBuiltin_set hname, withoutBuiltin_set hname, h]
  · rw [set_withoutBuiltin hname, set_withoutBuiltin hname, h]

end Bindings

/-- The scope without the types that have builtin names. -/
def Scope.withoutBuiltin (c : Scope) : Scope := { c with types := c.types.withoutBuiltin }

namespace Scopes

/-- The scopes without the types that have builtin names. -/
def withoutBuiltin (s : Scopes) : Scopes :=
  ⟨s.inner.map Scope.withoutBuiltin, s.root.withoutBuiltin⟩

lemma all_withoutBuiltin (s : Scopes) : s.withoutBuiltin.all = s.all.map Scope.withoutBuiltin := by
  simp [all, withoutBuiltin]

lemma value?_withoutBuiltin (s : Scopes) (name : String) :
    s.withoutBuiltin.value? name = s.value? name := by
  rw [value?, value?, all_withoutBuiltin, List.findSome?_map]
  rfl

lemma type?_withoutBuiltin {name : String} (h : name ∉ TypeRef.builtinNames) (s : Scopes) :
    s.withoutBuiltin.type? name = s.type? name := by
  rw [type?, type?, all_withoutBuiltin, List.findSome?_map]
  congr 1
  funext c
  exact Bindings.get?_withoutBuiltin h c.types

lemma withoutBuiltin_update_congr {s s' : Scopes} {f : Scope → Scope}
    (hf : ∀ c c', c.withoutBuiltin = c'.withoutBuiltin →
      (f c).withoutBuiltin = (f c').withoutBuiltin)
    (h : s.withoutBuiltin = s'.withoutBuiltin) :
    (s.update f).withoutBuiltin = (s'.update f).withoutBuiltin := by
  obtain ⟨inner, root⟩ := s
  obtain ⟨inner', root'⟩ := s'
  simp only [withoutBuiltin, mk.injEq] at h
  obtain ⟨hinner, hroot⟩ := h
  cases inner with
  | nil =>
      cases inner' with
      | nil => simp [update, withoutBuiltin, hf root root' hroot]
      | cons c cs => simp at hinner
  | cons c cs =>
      cases inner' with
      | nil => simp at hinner
      | cons c' cs' =>
          simp only [List.map_cons, List.cons.injEq] at hinner
          simp [update, withoutBuiltin, hf c c' hinner.1, hinner.2, hroot]

end Scopes

/-! ## States that are alike -/

/-- Whether two states differ in nothing but the types bound to builtin names, and the calls. -/
structure RunState.Alike (s s' : RunState) : Prop where
  stack : s.stack = s'.stack
  maxFrames : s.maxFrames = s'.maxFrames
  scopes : s.frames.scopes.withoutBuiltin = s'.frames.scopes.withoutBuiltin
  linked : s.frames.Linked
  linked' : s'.frames.Linked

namespace RunState.Alike

variable {s s' t : RunState}

lemma refl (h : s.frames.Linked) : s.Alike s := ⟨rfl, rfl, rfl, h, h⟩

lemma symm (h : s.Alike s') : s'.Alike s :=
  ⟨h.stack.symm, h.maxFrames.symm, h.scopes.symm, h.linked', h.linked⟩

lemma trans (h : s.Alike s') (h' : s'.Alike t) : s.Alike t :=
  ⟨h.stack.trans h'.stack, h.maxFrames.trans h'.maxFrames, h.scopes.trans h'.scopes, h.linked,
    h'.linked'⟩

/-- No instruction that leaves the builtin types alone sees a difference. -/
lemma looksLike (h : s.Alike s') :
    s.LooksLike (fun _ => True) (· ∉ TypeRef.builtinNames) s' where
  stack := h.stack
  maxFrames := h.maxFrames
  depth := by
    have hinner := congrArg (fun x => x.inner.length) h.scopes
    simpa [Scopes.withoutBuiltin, CallStack.scopes, CallStack.depth] using hinner
  value name _ := by
    rw [CallStack.get?_eq_value? h.linked, CallStack.get?_eq_value? h.linked',
      ← Scopes.value?_withoutBuiltin, h.scopes, Scopes.value?_withoutBuiltin]
  type name hname := by
    rw [CallStack.getType?_eq_type? h.linked, CallStack.getType?_eq_type? h.linked',
      ← Scopes.type?_withoutBuiltin hname, h.scopes, Scopes.type?_withoutBuiltin hname]

lemma withStack (h : s.Alike s') (stack : DataStack) :
    (s.withStack stack).Alike (s'.withStack stack) :=
  ⟨rfl, h.maxFrames, h.scopes, h.linked, h.linked'⟩

/-- The same effect keeps states alike. -/
lemma apply (h : s.Alike s') (effect : Effect) : (effect.apply s).Alike (effect.apply s') where
  stack := by rw [effect.stack_apply, effect.stack_apply, h.stack]
  maxFrames := by rw [effect.maxFrames_apply, effect.maxFrames_apply, h.maxFrames]
  scopes := by
    rw [effect.scopes_apply, effect.scopes_apply]
    cases effect with
    | none => exact h.scopes
    | call c => exact h.scopes
    | bind name v =>
        refine Scopes.withoutBuiltin_update_congr (fun c c' hc => ?_) h.scopes
        simp only [Scope.withoutBuiltin, Scope.mk.injEq] at hc ⊢
        exact ⟨congrArg (·.set name v) hc.1, hc.2⟩
    | bindType name t =>
        refine Scopes.withoutBuiltin_update_congr (fun c c' hc => ?_) h.scopes
        simp only [Scope.withoutBuiltin, Scope.mk.injEq] at hc ⊢
        exact ⟨hc.1, Bindings.withoutBuiltin_set_congr hc.2 name t⟩
    | openScope name span => exact congrArg Scopes.opened h.scopes
    | closeScope =>
        have hclosed (x : Scopes) : x.closed.withoutBuiltin = x.withoutBuiltin.closed := by
          simp [Scopes.withoutBuiltin, Scopes.closed, List.map_tail]
        exact (hclosed _).trans ((congrArg Scopes.closed h.scopes).trans (hclosed _).symm)
  linked := effect.linked_apply h.linked
  linked' := effect.linked_apply h.linked'

end RunState.Alike

/-! ## Names of types -/

/-- Whether every type is resolved right behind its own name. -/
inductive Code.NamesTypes : Code → Prop
  | nil : NamesTypes []
  | type {code : Code} (name : String) (isArray isOptional : Bool) (span span' : Span) :
      NamesTypes code → NamesTypes ((.pushName name, span) ::
        (.resolveType (.ofName name) isArray isOptional, span') :: code)
  | cons {i : Instr} {span : Span} {code : Code} :
      (∀ ref isArray isOptional, i ≠ .resolveType ref isArray isOptional) →
      NamesTypes code → NamesTypes ((i, span) :: code)

namespace Code.NamesTypes

lemma append {first rest : Code} (hfirst : NamesTypes first) (hrest : NamesTypes rest) :
    NamesTypes (first ++ rest) := by
  induction hfirst with
  | nil => exact hrest
  | type name isArray isOptional span span' _ ih =>
      exact .type name isArray isOptional span span' ih
  | cons hi _ ih => exact .cons hi ih

lemma of_value {code : Code} (h : ∀ p ∈ code, p.1.isOfValue = true) : NamesTypes code := by
  induction code with
  | nil => exact .nil
  | cons p code ih =>
      obtain ⟨i, span⟩ := p
      refine .cons ?_ (ih fun q hq => h q (List.mem_cons_of_mem _ hq))
      rintro ref isArray isOptional rfl
      exact absurd (h _ List.mem_cons_self) (by simp [Instr.isOfValue])

lemma opening (name : String) (span : Span) :
    NamesTypes [(.pushName name, span), (.openScope, span)] :=
  .cons nofun (.cons nofun .nil)

lemma closing (span : Span) : NamesTypes [(.closeScope, span)] := .cons nofun .nil

end Code.NamesTypes

lemma TypeExpr.namesTypes {t : TypeExpr} {code : Code} (h : t.compile = .ok code) :
    code.NamesTypes := by
  obtain rfl := TypeExpr.compile_ok h
  exact .type t.name t.isArray t.isOptional t.span t.span .nil

lemma FieldDecl.namesTypes {fs : List FieldDecl} {code : Code} (h : compileAll fs = .ok code) :
    code.NamesTypes := by
  induction fs generalizing code with
  | nil =>
      cases h
      exact .nil
  | cons f fs ih =>
      obtain ⟨type, rest, htype, hrest, rfl⟩ := compileAll_cons_ok h
      exact (f.type.namesTypes htype).append (.cons nofun (ih hrest))

lemma TypeExpr.namesTypes_definition {t : TypeExpr} {code : Code}
    (h : t.compileDefinition = .ok code) : code.NamesTypes := by
  rcases TypeExpr.compileDefinition_ok h with ⟨-, htype⟩ | ⟨-, fields, hfields, rfl⟩
  · exact t.namesTypes htype
  · exact (FieldDecl.namesTypes hfields).append (.cons nofun .nil)

mutual

/-- Compiled code resolves types by their own names. -/
lemma Stmt.namesTypes (st : Stmt) {code : Code} (h : st.compile = .ok code) :
    code.NamesTypes := by
  match st, h with
  | .scope name body bodySpan span, h =>
      obtain ⟨inner, hinner, rfl⟩ := Stmt.compile_scope_ok h
      have hinner := Stmt.namesTypes_all body hinner
      exact (Code.NamesTypes.opening name span).append
        (hinner.append (Code.NamesTypes.closing bodySpan))
  | .typedef name type span, h =>
      obtain ⟨definition, hdefinition, rfl⟩ := Stmt.compile_typedef_ok h
      exact (type.namesTypes_definition hdefinition).append (.cons nofun (.cons nofun .nil))
  | .binding name type value span, h =>
      obtain ⟨declared, bound, hdeclared, hbound, rfl⟩ := Stmt.compile_binding_ok h
      have hvalue := Code.NamesTypes.of_value (Expr.isOfValue_of_compileBound hbound)
      exact ((type.namesTypes hdeclared).append hvalue).append (.cons nofun (.cons nofun .nil))
  | .effect e span, h =>
      obtain ⟨callee, arguments, callSpan, operands, target, rfl, hoperands, htarget, rfl⟩ :=
        Stmt.compile_effect_ok h
      have hoperands := Code.NamesTypes.of_value (Expr.isOfValue_of_compileArguments hoperands)
      have htarget := Code.NamesTypes.of_value (callee.isOfValue_of_compile htarget)
      exact (hoperands.append htarget).append (.cons nofun .nil)

lemma Stmt.namesTypes_all (ss : List Stmt) {code : Code} (h : Stmt.compileAll ss = .ok code) :
    code.NamesTypes := by
  match ss, h with
  | [], h =>
      cases h
      exact .nil
  | st :: ss, h =>
      obtain ⟨first, rest, hfirst, hrest, rfl⟩ := Stmt.compileAll_cons_ok h
      exact (Stmt.namesTypes st hfirst).append (Stmt.namesTypes_all ss hrest)

end

/-- Only an instruction that resolves a type looks one up. -/
lemma Instr.not_looksUpType {i : Instr}
    (hi : ∀ ref isArray isOptional, i ≠ .resolveType ref isArray isOptional) (cells : List Cell)
    (name : String) : ¬ i.LooksUpType cells name := by
  cases i with
  | resolveType ref isArray isOptional => exact absurd rfl (hi ref isArray isOptional)
  | _ => exact id

/-- Behind its own name a type is looked up by that name, and only if it is not builtin. -/
lemma Instr.looksUpType_named {name other : String} {isArray isOptional : Bool} {cs : List Cell}
    (h : (Instr.resolveType (.ofName name) isArray isOptional).LooksUpType (.name name :: cs) other) :
    other = name ∧ TypeRef.ofName name = .user := by
  cases href : TypeRef.ofName name with
  | user =>
      rw [href] at h
      obtain ⟨cs', hcells⟩ := h
      cases hcells
      exact ⟨rfl, rfl⟩
  | _ =>
      rw [href] at h
      exact h.elim

/-! ## Calls -/

/-- The calls that an effect makes. -/
def Effect.made : Effect → List Call
  | call c => [c]
  | _ => []

lemma Effect.calls_apply (effect : Effect) (s : RunState) :
    (effect.apply s).calls = s.calls ++ effect.made := by
  cases effect <;> simp [apply, made, RunState.updateFrame]

/-- How many calls a piece of code makes. -/
def Code.callCount (code : Code) : Nat := code.countP fun p => Step.isCall (some p.1)

lemma Code.callCount_append (first rest : Code) :
    callCount (first ++ rest) = callCount first + callCount rest :=
  List.countP_append

lemma Instr.Allows.callCount {i : Instr} {effect : Effect} (h : i.Allows effect) (span : Span) :
    effect.made.length = Code.callCount [(i, span)] := by
  cases i with
  | bindType | store _ | openScope =>
      obtain ⟨_, _, rfl⟩ := h
      rfl
  | call count =>
      obtain ⟨c, rfl⟩ := h
      rfl
  | _ =>
      obtain rfl := h
      rfl

/-- Quiet code makes no calls. -/
lemma Code.IsQuiet.callCount {code : Code} (h : code.IsQuiet) : code.callCount = 0 := by
  refine List.countP_eq_zero.mpr fun p hp hcall => ?_
  obtain ⟨i, span⟩ := p
  cases i with
  | call count => exact Effect.noConfusion (h _ hp (.call ⟨⟨"", .recorded⟩, []⟩) ⟨_, rfl⟩)
  | _ => cases hcall

/-- Code that gets through makes one call for each call instruction. -/
lemma calls_runCode {next : Option Instr} {code : Code} {s t : RunState}
    (h : runCode next code s = (t, none)) :
    t.calls.length = s.calls.length + code.callCount := by
  induction code generalizing s with
  | nil =>
      cases h
      rfl
  | cons p code ih =>
      obtain ⟨i, span⟩ := p
      rw [runCode] at h
      cases hexec : i.execute (firstOf code next) span s with
      | error fault =>
          rw [hexec] at h
          cases h
      | ok r =>
          rw [hexec] at h
          obtain ⟨stack, effect, hallows, -, ht⟩ := Instr.execute_ok hexec
          have hlength : r.2.calls.length = s.calls.length + Code.callCount [(i, span)] := by
            rw [ht, Effect.calls_apply, List.length_append, hallows.callCount span]
            rfl
          rw [ih h, hlength, Nat.add_assoc, ← Code.callCount_append, List.singleton_append]

/-! ## Runs side by side -/

/-- Limits stay as they are. -/
lemma runCode_limits (next : Option Instr) (code : Code) (s : RunState) :
    (runCode next code s).1.stack.limit = s.stack.limit ∧
      (runCode next code s).1.maxFrames = s.maxFrames := by
  induction code generalizing s with
  | nil => exact ⟨rfl, rfl⟩
  | cons p code ih =>
      obtain ⟨i, span⟩ := p
      rw [runCode]
      cases hexec : i.execute (firstOf code next) span s with
      | error fault => exact ⟨rfl, rfl⟩
      | ok r =>
          obtain ⟨stack, effect, -, hlimit, ht⟩ := Instr.execute_ok hexec
          obtain ⟨hrest, hframes⟩ := ih r.2
          have heffect : r.2.stack.limit = stack.limit ∧ r.2.maxFrames = s.maxFrames := by
            rw [ht]
            cases effect <;> exact ⟨rfl, rfl⟩
          exact ⟨hrest.trans (heffect.1.trans hlimit), hframes.trans heffect.2⟩

lemma DataStack.eq_of_cells {a b : DataStack} (hcells : a.cells = b.cells)
    (hlimit : a.limit = b.limit) : a = b := by
  cases a
  cases b
  exact congr (congrArg DataStack.mk hcells) hlimit

/-- Whether one run goes from `s` to `t` and makes the calls `made` on its way, another goes from
`s'` to `t'` and makes the calls `made'`, and they end alike. -/
structure RunState.Together (s s' t t' : RunState) (made made' : List Call) : Prop where
  alike : t.Alike t'
  calls : t.calls = s.calls ++ made
  calls' : t'.calls = s'.calls ++ made'

lemma RunState.Together.trans {s s' t t' u u' : RunState} {made made' more more' : List Call}
    (h : Together s s' t t' made made') (hrest : Together t t' u u' more more') :
    Together s s' u u' (made ++ more) (made' ++ more') where
  alike := hrest.alike
  calls := by rw [hrest.calls, h.calls, List.append_assoc]
  calls' := by rw [hrest.calls', h.calls', List.append_assoc]

/-- What an instruction does in one state, it does in any state that is alike. -/
lemma Instr.execute_alike {i : Instr} {next : Option Instr} {span : Span} {s s' t : RunState}
    (hs : s.Alike s') (h : i.execute next span s = .ok ((), t))
    (htypes : ∀ name, i.LooksUpType s.stack.cells name → name ∉ TypeRef.builtinNames) :
    ∃ t' made, i.execute next span s' = .ok ((), t') ∧ RunState.Together s s' t t' made made := by
  have hdoes := i.execute_does hs.looksLike next span (fun _ _ => trivial) htypes
  rw [h] at hdoes
  obtain ⟨stack, effect, -, -, rfl, ht'⟩ := hdoes
  exact ⟨_, effect.made, ht', (hs.withStack stack).apply effect, effect.calls_apply _,
    effect.calls_apply _⟩

lemma runCode_cons_ok {next : Option Instr} {i : Instr} {span : Span} {code : Code}
    {s t : RunState} (h : runCode next ((i, span) :: code) s = (t, none)) :
    ∃ u, i.execute (firstOf code next) span s = .ok ((), u) ∧
      runCode next code u = (t, none) := by
  rw [runCode] at h
  cases hexec : i.execute (firstOf code next) span s with
  | error fault =>
      rw [hexec] at h
      cases h
  | ok r =>
      rw [hexec] at h
      exact ⟨r.2, rfl, h⟩

lemma runCode_cons_of_ok {next : Option Instr} {i : Instr} {span : Span} {code : Code}
    {s t : RunState} (h : i.execute (firstOf code next) span s = .ok ((), t)) :
    runCode next ((i, span) :: code) s = runCode next code t := by
  rw [runCode, h]

lemma runCode_append_of_ok {next : Option Instr} {first rest : Code} {s t : RunState}
    (h : runCode (firstOf rest next) first s = (t, none)) :
    runCode next (first ++ rest) s = runCode next rest t := by
  rw [runCode_append, h]

lemma runCode_append_ok {next : Option Instr} {first rest : Code} {s t : RunState}
    (h : runCode next (first ++ rest) s = (t, none)) :
    ∃ u, runCode (firstOf rest next) first s = (u, none) ∧ runCode next rest u = (t, none) := by
  rw [runCode_append] at h
  rcases hfirst : runCode (firstOf rest next) first s with ⟨u, _ | e⟩
  · rw [hfirst] at h
    exact ⟨u, rfl, h⟩
  · rw [hfirst] at h
    cases h

/-- A cell that has been pushed lies on top. -/
lemma Step.cells_of_push {c : Cell} {s t : RunState} (h : push c s = .ok ((), t)) :
    t.stack.cells = c :: s.stack.cells := by
  rw [push_eq] at h
  split at h
  · cases h
    rfl
  · cases h

/-- What code does from one state, it does from any state that is alike. -/
theorem runCode_alike {next : Option Instr} {code : Code} (hcode : code.NamesTypes)
    {s s' t : RunState} (hs : s.Alike s') (h : runCode next code s = (t, none)) :
    ∃ t' made, runCode next code s' = (t', none) ∧ RunState.Together s s' t t' made made := by
  induction hcode generalizing s s' with
  | nil =>
      cases h
      exact ⟨s', [], rfl, hs, by simp, by simp⟩
  | type name isArray isOptional span span' _ ih =>
      obtain ⟨u, hname, h⟩ := runCode_cons_ok h
      obtain ⟨v, htype, h⟩ := runCode_cons_ok h
      obtain ⟨u', made, hname', hu⟩ := Instr.execute_alike hs hname nofun
      obtain ⟨v', more, htype', hv⟩ := Instr.execute_alike hu.alike htype fun n hlooks => by
        rw [Step.cells_of_push hname] at hlooks
        obtain ⟨rfl, href⟩ := Instr.looksUpType_named hlooks
        exact TypeRef.not_mem_builtinNames href
      obtain ⟨t', rest, ht', htogether⟩ := ih hv.alike h
      refine ⟨t', _, ?_, (hu.trans hv).trans htogether⟩
      rw [runCode_cons_of_ok hname', runCode_cons_of_ok htype', ht']
  | cons hi _ ih =>
      obtain ⟨u, hexec, h⟩ := runCode_cons_ok h
      obtain ⟨u', made, hexec', hu⟩ := Instr.execute_alike hs hexec fun n hlooks =>
        (Instr.not_looksUpType hi _ n hlooks).elim
      obtain ⟨t', rest, ht', htogether⟩ := ih hu.alike h
      refine ⟨t', _, ?_, hu.trans htogether⟩
      rw [runCode_cons_of_ok hexec', ht']

end TypedConfig
