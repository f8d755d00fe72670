import TypedConfig.Proofs.Boundaries
import TypedConfig.Proofs.Conformance
import TypedConfig.Proofs.Initializers

/-!
# Where objects come from

Objects are made by new objects in the text and by nothing else.  At every point of a run, every
object inside a bound value has the fields of one of them, and these were made by a binding that the
run has executed (`Block.built_of_reaches`).

**Bindings in the code.** Only one kind of instruction binds values, and it is always the last one
of a binding in the program.  So whoever finds it in the code finds the code of the whole binding in
front of it (`Stmt.binding_of_store`).

**From binding to binding.** A value that is bound is made of new objects and of what was bound when
its binding began.  So the induction goes over the instructions that have been executed, and at the
end of a binding it goes back to where the binding began.
-/

namespace TypedConfig

/-! ## Objects inside values -/

/-- Whether the fields of every object inside a value are as wanted. -/
def Value.MadeOf (P : Bindings Value → Prop) (v : Value) : Prop :=
  v.Everywhere fun w => ∀ given : Bindings Value, w.payload = .object given → P given

/-- Whether this is so for all values that are bound. -/
def Scopes.MadeOf (P : Bindings Value → Prop) (s : Scopes) : Prop :=
  ∀ c ∈ s.all, ∀ e ∈ c.values, e.2.MadeOf P

section

variable {P Q : Bindings Value → Prop} {v w : Value} {s : Scopes} {n : String}

lemma Value.MadeOf.imp (h : v.MadeOf P) (hPQ : ∀ given, P given → Q given) : v.MadeOf Q :=
  Everywhere.imp h fun hw given hgiven => hPQ given (hw given hgiven)

/-- A value with the same payload contains the same objects. -/
lemma Value.MadeOf.replace (h : v.MadeOf P) (hpayload : w.payload = v.payload) : w.MadeOf P := by
  refine Everywhere.replace h hpayload ?_
  intro given hgiven
  exact h.here given (hpayload ▸ hgiven)

/-- There is no object inside a value that is neither an object nor an array with items. -/
lemma Value.madeOf_leaf (hinner : v.payload.inner = [])
    (hobject : ∀ given, v.payload ≠ .object given) : v.MadeOf P :=
  .leaf (fun given hgiven => absurd hgiven (hobject given)) hinner

lemma Value.madeOf_default {t : DataType} (h : Step.default? t = some v) : v.MadeOf P := by
  rcases Step.default?_eq_some.mp h with ⟨-, rfl⟩ | ⟨-, -, rfl⟩ <;> exact madeOf_leaf rfl nofun

lemma Value.madeOf_literal (l : Literal) : (ofLiteral l).MadeOf P := by
  cases l <;> exact madeOf_leaf rfl nofun

lemma Value.MadeOf.member (h : v.MadeOf P) (hw : Step.member v n = .ok w) : w.MadeOf P := by
  obtain ⟨-, fields, hfields, hget | ⟨-, u, -, hdefault⟩⟩ := Step.member_ok hw
  · exact Everywhere.field h hfields (Bindings.mem_of_get? hget)
  · exact madeOf_default hdefault

lemma Scopes.MadeOf.imp (h : s.MadeOf P) (hPQ : ∀ given, P given → Q given) : s.MadeOf Q :=
  fun c hc e he => (h c hc e he).imp hPQ

lemma Scopes.MadeOf.value? (h : s.MadeOf P) (hv : s.value? n = some v) : v.MadeOf P := by
  obtain ⟨c, hc, hget⟩ := List.exists_of_findSome?_eq_some hv
  exact h c hc _ (Bindings.mem_of_get? hget)

/-- A change of the innermost scope has to see to nothing but this scope. -/
lemma Scopes.MadeOf.update (h : s.MadeOf P) {f : Scope → Scope}
    (hf : ∀ c : Scope, (∀ e ∈ c.values, e.2.MadeOf P) → ∀ e ∈ (f c).values, e.2.MadeOf P) :
    (s.update f).MadeOf P := by
  obtain ⟨inner, root⟩ := s
  cases inner with
  | nil =>
      intro c hc
      rw [List.mem_singleton.mp hc]
      exact hf root (h root (List.mem_singleton_self root))
  | cons d ds =>
      intro c hc
      rcases List.mem_cons.mp hc with rfl | hc
      · exact hf d (h d List.mem_cons_self)
      · exact h c (List.mem_cons_of_mem _ hc)

lemma Scopes.MadeOf.bind (h : s.MadeOf P) (hv : v.MadeOf P) : (s.bind n v).MadeOf P := by
  refine h.update ?_
  intro c hc e he
  rcases Bindings.mem_set he with rfl | he
  · exact hv
  · exact hc e he

/-- The value of a path contains no objects but those inside bound values. -/
lemma Scopes.MadeOf.evalPath (h : s.MadeOf P) {e : Expr} {v : Value}
    (hv : e.evalPath s = .ok v) : v.MadeOf P := by
  match e, hv with
  | .name n span, hv =>
      rw [Expr.evalPath] at hv
      split at hv <;> cases hv
      rename_i hvalue
      exact h.value? hvalue
  | .literal l span, hv =>
      cases hv
      exact Value.madeOf_literal l
  | .member e n span, hv =>
      rw [Expr.evalPath] at hv
      obtain ⟨receiver, hreceiver, hmember⟩ := bind_eq_ok.mp hv
      exact (Scopes.MadeOf.evalPath h hreceiver).member (located_eq_ok.mp hmember)
  | .object _ _, hv => cases hv
  | .call _ _ _, hv => cases hv

end

/-! ## New objects inside an expression -/

mutual

/-- The fields of the new objects in an expression, the outer objects first. -/
def Expr.initializers : Expr → List (List FieldInit)
  | .object fields _ => fields :: FieldInit.initializersAll fields
  | _ => []

/-- The fields of the new objects in the values of fields. -/
def FieldInit.initializersAll : List FieldInit → List (List FieldInit)
  | [] => []
  | ⟨_, value, _⟩ :: fs => value.initializers ++ FieldInit.initializersAll fs

end

mutual

/-- What an expression makes contains the objects that its new objects make, and those inside bound
values. -/
lemma Expr.madeOf_of_makes (e : Expr) {P : Bindings Value → Prop} {s : Scopes} (hs : s.MadeOf P)
    (hnew : ∀ fields ∈ e.initializers, ∀ shape given,
      FieldInit.MakesAll s shape fields given → P given)
    {t : DataType} {v : Value} (h : e.Makes s t v) : v.MadeOf P := by
  match e, h with
  | e, .value heval => exact (hs.evalPath heval).replace rfl
  | .object fields span, .object hshape hmakes =>
      have hfields := FieldInit.madeOf_of_makesAll fields hs
        (fun inner hinner => hnew inner (List.mem_cons_of_mem _ hinner)) hmakes
      refine Value.MadeOf.replace (v := .object t _) (Value.Everywhere.object ?_ hfields) rfl
      intro given hgiven
      cases hgiven
      exact hnew fields List.mem_cons_self _ _ hmakes

lemma FieldInit.madeOf_of_makesAll (fs : List FieldInit) {P : Bindings Value → Prop} {s : Scopes}
    (hs : s.MadeOf P)
    (hnew : ∀ fields ∈ FieldInit.initializersAll fs, ∀ shape given,
      FieldInit.MakesAll s shape fields given → P given)
    {shape : Shape} {given : Bindings Value} (h : FieldInit.MakesAll s shape fs given) :
    ∀ f ∈ given, f.2.MadeOf P := by
  match fs, h with
  | [], .nil => exact nofun
  | ⟨name, value, span⟩ :: fs, .cons _ hmakes hrest =>
      intro f hf
      rcases List.mem_cons.mp hf with rfl | hf
      · exact value.madeOf_of_makes hs
          (fun inner hinner => hnew inner (List.mem_append_left _ hinner)) hmakes
      · exact FieldInit.madeOf_of_makesAll fs hs
          (fun inner hinner => hnew inner (List.mem_append_right _ hinner)) hrest f hf

end

mutual

/-- The new objects in an expression that fits have different fields each. -/
lemma Expr.distinct_of_fits (e : Expr) {s : Scopes} {t : DataType} (h : e.Fits s t) :
    ∀ fields ∈ e.initializers, (fields.map (·.name)).Nodup := by
  match e, h with
  | .object fields span, .object _ _ hdistinct hknown hfit _ =>
      intro inner hinner
      rcases List.mem_cons.mp hinner with rfl | hinner
      · exact hdistinct
      · have hfits : ∀ f ∈ fields, ∃ u, f.value.Fits s u := by
          intro f hf
          obtain ⟨u, hu⟩ := Option.isSome_iff_exists.mp (hknown f hf)
          exact ⟨u, hfit f hf u hu⟩
        exact FieldInit.distinct_of_fits fields hfits inner hinner
  | .object _ _, .value heval _ _ => cases heval
  | .name _ _, _ | .literal _ _, _ | .member _ _ _, _ | .call _ _ _, _ => exact nofun

lemma FieldInit.distinct_of_fits (fs : List FieldInit) {s : Scopes}
    (h : ∀ f ∈ fs, ∃ u, f.value.Fits s u) :
    ∀ fields ∈ FieldInit.initializersAll fs, (fields.map (·.name)).Nodup := by
  match fs, h with
  | [], _ => exact nofun
  | ⟨name, value, span⟩ :: fs, h =>
      intro inner hinner
      rcases List.mem_append.mp hinner with hinner | hinner
      · obtain ⟨u, hfit⟩ := h _ List.mem_cons_self
        exact value.distinct_of_fits hfit inner hinner
      · exact FieldInit.distinct_of_fits fs (fun f hf => h f (List.mem_cons_of_mem _ hf)) inner
          hinner

end

/-! ## Bindings in the code -/

/-- Whether a statement is one of those given, or stands in a scope among them at any depth. -/
inductive Stmt.Inside (st : Stmt) : List Stmt → Prop
  | here {ss : List Stmt} (h : st ∈ ss) : Inside st ss
  | scope {ss body : List Stmt} {name : String} {bodySpan span : Span}
      (h : .scope name body bodySpan span ∈ ss) (inner : Inside st body) : Inside st ss

lemma Stmt.Inside.of_subset {st : Stmt} {ss ss' : List Stmt} (h : st.Inside ss) (hss : ss ⊆ ss') :
    st.Inside ss' := by
  cases h with
  | here h => exact .here (hss h)
  | scope h inner => exact .scope (hss h) inner

/-- A place in two lists that follow each other is a place in one of them. -/
lemma eq_append_or_eq_append {α : Type} {first rest a b : List α} {x : α}
    (h : first ++ x :: rest = a ++ b) :
    (∃ r, a = first ++ x :: r) ∨ ∃ f, first = a ++ f ∧ b = f ++ x :: rest := by
  rcases List.append_eq_append_iff.mp h with ⟨f, rfl, hf⟩ | ⟨f, rfl, rfl⟩
  · cases f with
    | nil => exact Or.inr ⟨[], by simp, hf.symm⟩
    | cons y f =>
        obtain ⟨rfl, -⟩ := List.cons.inj hf
        exact Or.inl ⟨f, rfl⟩
  · exact Or.inr ⟨f, rfl, rfl⟩

/-- Quiet code binds nothing. -/
lemma Code.IsQuiet.not_mem_store {code : Code} (h : code.IsQuiet) (hasValue : Bool)
    (span : Span) : (.store hasValue, span) ∉ code := by
  intro hmem
  have heffect := h _ hmem (.bind "" default) ⟨_, _, rfl⟩
  cases heffect

/-- A place in quiet code with one more instruction that binds a value is the last one. -/
lemma Code.IsQuiet.store_last {quiet first rest : Code} (h : quiet.IsQuiet) {i : Instr}
    {hasValue : Bool} {place span : Span}
    (hcode : quiet ++ [(i, place)] = first ++ (.store hasValue, span) :: rest) :
    first = quiet ∧ (i, place) = (.store hasValue, span) := by
  rcases eq_append_or_eq_append hcode.symm with ⟨r, rfl⟩ | ⟨f, rfl, hlast⟩
  · exact absurd List.mem_append_cons_self (h.not_mem_store hasValue span)
  · cases f with
    | nil =>
        cases hlast
        exact ⟨List.append_nil quiet, rfl⟩
    | cons p f =>
        obtain ⟨-, hnil⟩ := List.cons.inj hlast
        cases f <;> cases hnil

/-- Whether code ends with a binding among the statements, but for the binding's last
instruction. -/
inductive Stmt.BindingEnds (ss : List Stmt) (last : Instr × Span) : Code → Prop
  | intro (before : Code) {operands : Code} {name : String} {type : TypeExpr}
      {value : Option Expr} {span : Span}
      (inside : Stmt.Inside (.binding name type value span) ss)
      (compiled : (Stmt.binding name type value span).compile = .ok (operands ++ [last])) :
      BindingEnds ss last (before ++ operands)

lemma Stmt.BindingEnds.of_subset {ss ss' : List Stmt} {last : Instr × Span} {code : Code}
    (h : BindingEnds ss last code) (hss : ss ⊆ ss') : BindingEnds ss' last code := by
  cases h with
  | intro before inside compiled => exact .intro before (inside.of_subset hss) compiled

lemma Stmt.BindingEnds.behind {ss : List Stmt} {last : Instr × Span} {code : Code}
    (h : BindingEnds ss last code) (first : Code) : BindingEnds ss last (first ++ code) := by
  cases h with
  | intro before inside compiled =>
      rw [← List.append_assoc]
      exact .intro (first ++ before) inside compiled

lemma Stmt.BindingEnds.scope {body : List Stmt} {last : Instr × Span} {code : Code}
    (h : BindingEnds body last code) (name : String) (bodySpan span : Span) :
    BindingEnds [.scope name body bodySpan span] last code := by
  cases h with
  | intro before inside compiled =>
      exact .intro before (.scope (List.mem_singleton_self _) inside) compiled

mutual

/-- An instruction in the code of a statement that binds a value is the last one of a binding in the
statement, and the rest of the binding's code stands in front of it. -/
lemma Stmt.binding_of_store (st : Stmt) {code : Code} (h : st.compile = .ok code)
    {first rest : Code} {hasValue : Bool} {span : Span}
    (hcode : code = first ++ (.store hasValue, span) :: rest) :
    Stmt.BindingEnds [st] (.store hasValue, span) first := by
  have hmem : (.store hasValue, span) ∈ code := by
    rw [hcode]
    exact List.mem_append_cons_self
  match st, h with
  | .scope name body bodySpan place, h =>
      obtain ⟨inner, hinner, rfl⟩ := Stmt.compile_scope_ok h
      have hopen : [(Instr.pushName name, place), (.openScope, place)] ++
          (inner ++ [(.closeScope, bodySpan)]) = first ++ (.store hasValue, span) :: rest := hcode
      -- the instruction stands neither ahead of the body nor behind it
      rcases eq_append_or_eq_append hopen.symm with ⟨r, hahead⟩ | ⟨f, rfl, hbody⟩
      · have hmem : (Instr.store hasValue, span) ∈ first ++ (.store hasValue, span) :: r :=
          List.mem_append_cons_self
        rw [← hahead] at hmem
        simp at hmem
      · rcases eq_append_or_eq_append hbody.symm with ⟨r, hinside⟩ | ⟨f', rfl, hbehind⟩
        · exact ((Stmt.binding_of_store_all body hinner hinside).scope name bodySpan place).behind _
        · have hmem : (Instr.store hasValue, span) ∈ f' ++ (.store hasValue, span) :: rest :=
            List.mem_append_cons_self
          rw [← hbehind] at hmem
          simp at hmem
  | .binding name type value place, h =>
      rcases Stmt.compile_cases h with
        ⟨quiet, i, last, rfl, hquiet, -⟩ | ⟨_, _, _, _, _, heq, -⟩
      · obtain ⟨rfl, hlast⟩ := hquiet.store_last hcode
        rw [hlast] at h
        exact .intro [] (.here (List.mem_singleton_self _)) h
      · cases heq
  | .typedef name type place, h =>
      obtain ⟨definition, hdefinition, rfl⟩ := Stmt.compile_typedef_ok h
      have hquiet := type.isQuiet_of_compileDefinition hdefinition
      simp [hquiet.not_mem_store] at hmem
  | .effect e place, h =>
      obtain ⟨callee, arguments, callSpan, operands, target, rfl, hoperands, htarget, rfl⟩ :=
        Stmt.compile_effect_ok h
      have hoperands := Code.isQuiet_of_value (Expr.isOfValue_of_compileArguments hoperands)
      have htarget := Code.isQuiet_of_value (callee.isOfValue_of_compile htarget)
      simp [hoperands.not_mem_store, htarget.not_mem_store] at hmem

lemma Stmt.binding_of_store_all (ss : List Stmt) {code : Code} (h : Stmt.compileAll ss = .ok code)
    {first rest : Code} {hasValue : Bool} {span : Span}
    (hcode : code = first ++ (.store hasValue, span) :: rest) :
    Stmt.BindingEnds ss (.store hasValue, span) first := by
  match ss, h with
  | [], h =>
      cases h
      simp at hcode
  | st :: ss, h =>
      obtain ⟨head, tail, hhead, htail, rfl⟩ := Stmt.compileAll_cons_ok h
      rcases eq_append_or_eq_append hcode.symm with ⟨r, hfirst⟩ | ⟨f, rfl, hrest⟩
      · exact (st.binding_of_store hhead hfirst).of_subset (by simp)
      · exact ((Stmt.binding_of_store_all ss htail hrest).of_subset
          (List.subset_cons_self st ss)).behind head

end

/-! ## The objects of a run -/

/-- A run that has executed `done` has executed a binding of the program with a new object in its
value: `fields` are the fields of the new object, `scopes` were open when the binding began, and
the object that came of it has the fields `given`. -/
inductive Machine.Built (m : Machine) (b : Block) (done : Code) :
    List FieldInit → Scopes → Bindings Value → Prop
  | intro {before code later : Code} {s : RunState} {name : String} {type : TypeExpr} {e : Expr}
      {span : Span} {fields : List FieldInit} {shape : Shape} {given : Bindings Value}
      (inside : Stmt.Inside (.binding name type (some e) span) b.statements)
      (compiled : (Stmt.binding name type (some e) span).compile = .ok code)
      (reached : m.Reaches before (code ++ later) s) (executed : before ++ code <+: done)
      (written : fields ∈ e.initializers) (distinct : (fields.map (·.name)).Nodup)
      (makes : FieldInit.MakesAll s.frames.scopes shape fields given) :
      Built m b done fields s.frames.scopes given

lemma Machine.Built.mono {m : Machine} {b : Block} {done done' : Code} {fields : List FieldInit}
    {scopes : Scopes} {given : Bindings Value} (h : m.Built b done fields scopes given)
    (hdone : done <+: done') : m.Built b done' fields scopes given := by
  cases h with
  | intro inside compiled reached executed written distinct makes =>
      exact .intro inside compiled reached (executed.trans hdone) written distinct makes

/-- Whether an object is one of those that the run has built. -/
def Machine.HasBuilt (m : Machine) (b : Block) (done : Code) (given : Bindings Value) : Prop :=
  ∃ fields scopes, m.Built b done fields scopes given

lemma Machine.HasBuilt.mono {m : Machine} {b : Block} {done done' : Code}
    {given : Bindings Value} (h : m.HasBuilt b done given) (hdone : done <+: done') :
    m.HasBuilt b done' given := by
  obtain ⟨fields, scopes, hbuilt⟩ := h
  exact ⟨fields, scopes, hbuilt.mono hdone⟩

/-- Whoever has executed some code has come through the state in which it began. -/
lemma Machine.Reaches.back {m : Machine} {before code rest : Code} {s : RunState}
    (h : m.Reaches (before ++ code) rest s) : ∃ t, m.Reaches before (code ++ rest) t := by
  obtain ⟨hcode, hrun⟩ := h
  rw [runCode_append, ← firstOf_append] at hrun
  rcases hbefore : runCode (firstOf (code ++ rest) none) before m.state with ⟨t, _ | e⟩
  · exact ⟨t, by rw [hcode, List.append_assoc], hbefore⟩
  · rw [hbefore] at hrun
    cases hrun

/-- One kind of instruction binds values, and no other does. -/
lemma Instr.isStore_or_not_bind (i : Instr) : (∃ hasValue, i = .store hasValue) ∨
    ∀ effect, i.Allows effect → ∀ n v, effect ≠ .bind n v := by
  cases i with
  | store hasValue => exact Or.inl ⟨hasValue, rfl⟩
  | bindType =>
      refine Or.inr ?_
      rintro effect ⟨name, t, rfl⟩
      exact nofun
  | openScope =>
      refine Or.inr ?_
      rintro effect ⟨name, place, rfl⟩
      exact nofun
  | call count =>
      refine Or.inr ?_
      rintro effect ⟨x, rfl⟩
      exact nofun
  | _ =>
      refine Or.inr ?_
      rintro effect rfl
      exact nofun

/-- An instruction that binds no value leaves no other objects in the scopes. -/
lemma Effect.madeOf_apply {P : Bindings Value → Prop} {effect : Effect} {s : RunState}
    (heffect : ∀ n v, effect ≠ .bind n v) (h : s.frames.scopes.MadeOf P) :
    (effect.apply s).frames.scopes.MadeOf P := by
  cases effect with
  | none | call c => exact h
  | bind n v => exact absurd rfl (heffect n v)
  | bindType n t =>
      have hscopes : ((Effect.bindType n t).apply s).frames.scopes = s.frames.scopes.bindType n t :=
        CallStack.scopes_updateCurrent fun _ => rfl
      rw [hscopes]
      exact h.update fun _ hc => hc
  | openScope n span =>
      intro c hc
      rcases List.mem_cons.mp hc with rfl | hc
      · exact nofun
      · exact h c hc
  | closeScope =>
      obtain ⟨stack, ⟨inner, root⟩, maxFrames, calls⟩ := s
      cases inner with
      | nil => exact h
      | cons f fs => exact fun c hc => h c (List.mem_cons_of_mem _ hc)

/-- A binding that succeeds has bound the value that the evaluator gives. -/
lemma Stmt.eval_binding_ok {name : String} {type : TypeExpr} {value : Option Expr} {span : Span}
    {w w' : World} (h : (Stmt.binding name type value span).eval w = (w', none)) :
    ∃ t v, type.eval w.scopes = .ok t ∧ Expr.evalBound w.scopes name t span value = .ok v ∧
      w'.scopes = w.scopes.bind name v.mutable := by
  cases ht : type.eval w.scopes with
  | error e =>
      rw [eval, ht] at h
      cases h
  | ok t =>
      rw [eval_binding ht] at h
      cases hv : Expr.evalBound w.scopes name t span value with
      | error e =>
          rw [hv] at h
          cases h
      | ok v =>
          rw [hv] at h
          obtain ⟨hw, -⟩ := Prod.ext_iff.mp h
          exact ⟨t, v, rfl, hv, congrArg World.scopes hw.symm⟩

section

variable {b : Block} {c : Chunk} {limits : Limits} {functions : List Function} {done rest : Code}
  {s : RunState}

lemma Block.linked_of_reaches (h : b.compile = .ok c)
    (hreach : (c.machine limits (functions.map .register)).Reaches done rest s) :
    s.frames.Linked := by
  obtain ⟨defs, l, hl, -⟩ := shaping_of_reaches h hreach
  exact hl.linked

/-- Behind a binding, what it has bound is made of new objects in its value and of what was bound
ahead of it. -/
lemma Block.madeOf_binding (h : b.compile = .ok c) {before code : Code} {name : String}
    {type : TypeExpr} {value : Option Expr} {span : Span} {s₀ : RunState}
    (hinside : Stmt.Inside (.binding name type value span) b.statements)
    (hcode : (Stmt.binding name type value span).compile = .ok code)
    (hbefore : (c.machine limits (functions.map .register)).Reaches before (code ++ rest) s₀)
    (hreach : (c.machine limits (functions.map .register)).Reaches (before ++ code) rest s)
    (hmade : s₀.frames.scopes.MadeOf
      ((c.machine limits (functions.map .register)).HasBuilt b before)) :
    s.frames.scopes.MadeOf
      ((c.machine limits (functions.map .register)).HasBuilt b (before ++ code)) := by
  have hrun := hbefore.between hreach
  have heval := (Stmt.performs_eval _ hcode (linked_of_reaches h hbefore)).of_room fun e he => by
    rw [hrun] at he
    cases he
  rw [hrun] at heval
  obtain ⟨t, v, -, hv, hscopes⟩ := Stmt.eval_binding_ok heval
  replace hscopes : s.frames.scopes = s₀.frames.scopes.bind name v.mutable := hscopes
  replace hmade := hmade.imp fun given hgiven => hgiven.mono (List.prefix_append before code)
  rw [hscopes]
  refine hmade.bind ?_
  cases value with
  | none =>
      have hdefault := Step.defaultFor_ok (located_eq_ok.mp hv)
      exact (Value.madeOf_default hdefault).replace rfl
  | some e =>
      obtain ⟨u, hu, hassign⟩ := Expr.evalBound_eq_ok.mp hv
      obtain ⟨hfits, hmakes⟩ := e.fits_of_assign hu hassign
      refine e.madeOf_of_makes hmade ?_ hmakes
      intro fields hfields shape given hgiven
      exact ⟨fields, _, .intro hinside hcode hbefore List.prefix_rfl hfields
        (e.distinct_of_fits hfits fields hfields) hgiven⟩

/-- An instruction that ends no binding leaves the objects inside bound values as they are. -/
lemma Machine.Reaches.madeOf_step {m : Machine} {P : Bindings Value → Prop} {i : Instr}
    {span : Span} {s' : RunState} (hprevious : m.Reaches done ((i, span) :: rest) s')
    (hreach : m.Reaches (done ++ [(i, span)]) rest s)
    (hi : ∀ effect, i.Allows effect → ∀ n v, effect ≠ .bind n v)
    (hmade : s'.frames.scopes.MadeOf P) : s.frames.scopes.MadeOf P := by
  have hrun : runCode (firstOf rest none) [(i, span)] s' = (s, none) := hprevious.between hreach
  rw [runCode] at hrun
  cases hexec : i.execute (firstOf [] (firstOf rest none)) span s' with
  | error fault =>
      rw [hexec] at hrun
      cases hrun
  | ok r =>
      rw [hexec] at hrun
      cases hrun
      obtain ⟨stack, effect, hallows, -, ht⟩ := Instr.execute_ok hexec
      rw [ht]
      exact Effect.madeOf_apply (s := s'.withStack stack) (hi effect hallows) hmade

/-- Before a run nothing is bound but functions. -/
lemma madeOf_hosted (P : Bindings Value → Prop) (limits : Limits) (functions : List Function) :
    (RunState.hosted limits (functions.map .register)).frames.scopes.MadeOf P := by
  intro c hc e he
  rw [List.mem_singleton.mp hc] at he
  obtain ⟨x, hx, rfl⟩ := mem_hostRoot he
  obtain ⟨f, -, rfl⟩ := List.mem_map.mp hx
  exact Value.madeOf_leaf rfl nofun

/-- At every point of the run of an accepted program to which the host has given nothing but
functions, every object inside a bound value was built by the run from a new object of the
program. -/
theorem Block.built_of_reaches (h : b.compile = .ok c)
    (hreach : (c.machine limits (functions.map .register)).Reaches done rest s) :
    s.frames.scopes.MadeOf ((c.machine limits (functions.map .register)).HasBuilt b done) := by
  -- a step goes back by one instruction, and the end of a binding by the whole binding
  induction hk : done.length using Nat.strongRecOn generalizing done rest s with
  | ind k ih =>
      rcases List.eq_nil_or_concat done with rfl | ⟨d, ⟨i, span⟩, rfl⟩
      · have hstart := hreach.run
        rw [Chunk.state_machine] at hstart
        cases hstart
        exact madeOf_hosted _ limits functions
      · rw [List.concat_eq_append] at hreach hk ⊢
        rw [List.length_append, List.length_singleton] at hk
        rcases i.isStore_or_not_bind with ⟨hasValue, rfl⟩ | hi
        · obtain ⟨code, hcode, hlocated⟩ := compile_ok h
          have hsplit := hreach.code
          rw [Chunk.pending_machine, hlocated, List.append_assoc] at hsplit
          obtain ⟨before, hinside, hbinding⟩ :=
            Stmt.binding_of_store_all b.statements hcode hsplit
          rw [List.append_assoc] at hreach ⊢
          obtain ⟨s₀, hbefore⟩ := hreach.back
          rw [List.length_append] at hk
          exact madeOf_binding h hinside hbinding hbefore hreach
            (ih before.length (by omega) hbefore rfl)
        · obtain ⟨s', hprevious⟩ := hreach.back
          refine hprevious.madeOf_step hreach hi ?_
          exact (ih d.length (by omega) hprevious rfl).imp fun given hgiven =>
            hgiven.mono (List.prefix_append d _)

end

end TypedConfig
