import TypedConfig.Code.Compile
import TypedConfig.Proofs.Execution

/-!
# What accepted trees compile to

The compiler accepts a node or finds a fault in it.  For each kind of node, one lemma says what the
code of an accepted node is made of: the code of its parts, which are accepted too, and the
instructions of its own.  Proofs about compiled programs follow these lemmas and do not look at the
compiler.
-/

namespace TypedConfig

/-! ## Types -/

lemma TypeExpr.compile_ok {t : TypeExpr} {code : Code} (h : t.compile = .ok code) :
    code = [(.pushName t.name, t.span),
      (.resolveType (.ofName t.name) t.isArray t.isOptional, t.span)] := by
  rw [compile] at h
  split at h
  · cases h
  · cases h
    rfl

lemma FieldDecl.compileAll_cons_ok {f : FieldDecl} {fs : List FieldDecl} {code : Code}
    (h : compileAll (f :: fs) = .ok code) :
    ∃ type rest, f.type.compile = .ok type ∧ compileAll fs = .ok rest ∧
      code = type ++ (.makeField f.name, f.span) :: rest := by
  simp only [compileAll, bind_eq_ok] at h
  obtain ⟨type, htype, rest, hrest, h⟩ := h
  cases h
  exact ⟨type, rest, htype, hrest, rfl⟩

/-- A type definition has a shape or the code of any other type. -/
lemma TypeExpr.compileDefinition_ok {t : TypeExpr} {code : Code}
    (h : t.compileDefinition = .ok code) :
    (t.isObject = false ∧ t.compile = .ok code) ∨
      (t.isObject = true ∧ ∃ fields, FieldDecl.compileAll t.fields = .ok fields ∧
        code = fields ++ [(.makeShape t.fields.length, t.span)]) := by
  rw [compileDefinition] at h
  cases hobject : t.isObject with
  | false =>
      rw [hobject] at h
      exact Or.inl ⟨rfl, h⟩
  | true =>
      simp only [hobject, Bool.not_true, Bool.false_eq_true, if_false] at h
      split at h
      · cases h
      · split at h
        · cases h
        · obtain ⟨fields, hfields, h⟩ := bind_eq_ok.mp h
          cases h
          exact Or.inr ⟨rfl, fields, hfields, rfl⟩

/-! ## Values -/

lemma Expr.compile_member_ok {typed : Bool} {value : Expr} {name : String} {span : Span}
    {code : Code} (h : (Expr.member value name span).compile typed = .ok code) :
    ∃ receiver, value.compile false = .ok receiver ∧
      code = receiver ++ [(.pushName name, span), (.loadMember, span)] := by
  simp only [compile, bind_eq_ok] at h
  obtain ⟨receiver, hreceiver, h⟩ := h
  cases h
  exact ⟨receiver, hreceiver, rfl⟩

/-- A new object is accepted only where a type is waiting for it. -/
lemma Expr.compile_object_ok {typed : Bool} {fields : List FieldInit} {span : Span} {code : Code}
    (h : (Expr.object fields span).compile typed = .ok code) :
    typed = true ∧ ∃ inits, FieldInit.compileAll fields = .ok inits ∧
      code = (.newObject, span) :: inits ++ [(.sealObject, span)] := by
  simp only [compile] at h
  split at h
  · rename_i htyped
    obtain ⟨inits, hinits, h⟩ := bind_eq_ok.mp h
    cases h
    exact ⟨htyped, inits, hinits, rfl⟩
  · cases h

lemma FieldInit.compileAll_cons_ok {name : String} {value : Expr} {span : Span}
    {fs : List FieldInit} {code : Code}
    (h : compileAll (⟨name, value, span⟩ :: fs) = .ok code) :
    ∃ init rest, value.compile true = .ok init ∧ compileAll fs = .ok rest ∧
      code = (.pushName name, span) :: init ++ [(.setField, span)] ++ rest := by
  simp only [compileAll, FieldInit.compile, bind_eq_ok] at h
  obtain ⟨field, ⟨init, hinit, hfield⟩, rest, hrest, h⟩ := h
  cases hfield
  cases h
  exact ⟨init, rest, hinit, hrest, rfl⟩

lemma Expr.compileArguments_cons_ok {e : Expr} {es : List Expr} {code : Code}
    (h : compileArguments (e :: es) = .ok code) :
    ∃ argument rest, e.compile false = .ok argument ∧ compileArguments es = .ok rest ∧
      code = argument ++ rest := by
  simp only [compileArguments, bind_eq_ok] at h
  obtain ⟨argument, hargument, rest, hrest, h⟩ := h
  cases h
  exact ⟨argument, rest, hargument, hrest, rfl⟩

/-- The code of a value is not empty and does not begin with a call. -/
lemma Expr.firstOf_compile {typed : Bool} {e : Expr} {code : Code}
    (h : e.compile typed = .ok code) (rest : Code) (next : Option Instr) :
    Step.isCall (firstOf (code ++ rest) next) = false := by
  match e, h with
  | .name _ _, h => cases h; rfl
  | .literal _ _, h => cases h; rfl
  | .member value _ _, h =>
      obtain ⟨receiver, hreceiver, rfl⟩ := compile_member_ok h
      rw [List.append_assoc]
      exact firstOf_compile hreceiver _ _
  | .object _ _, h =>
      obtain ⟨-, inits, -, rfl⟩ := compile_object_ok h
      rfl
  | .call _ _ _, h => cases h

/-- Neither does the code of arguments begin with a call. -/
lemma Expr.firstOf_compileArguments {es : List Expr} {code : Code}
    (h : compileArguments es = .ok code) {next : Option Instr}
    (hnext : Step.isCall next = false) : Step.isCall (firstOf code next) = false := by
  cases es with
  | nil =>
      cases h
      exact hnext
  | cons e es =>
      obtain ⟨argument, rest, hargument, -, rfl⟩ := compileArguments_cons_ok h
      exact firstOf_compile hargument rest next

/-! ## Statements -/

lemma Stmt.compile_scope_ok {name : String} {body : List Stmt} {bodySpan span : Span}
    {code : Code} (h : (Stmt.scope name body bodySpan span).compile = .ok code) :
    ∃ inner, compileAll body = .ok inner ∧
      code = (.pushName name, span) :: (.openScope, span) :: inner ++
        [(.closeScope, bodySpan)] := by
  simp only [compile, bind_eq_ok] at h
  obtain ⟨inner, hinner, h⟩ := h
  cases h
  exact ⟨inner, hinner, rfl⟩

lemma Stmt.compile_typedef_ok {name : String} {type : TypeExpr} {span : Span} {code : Code}
    (h : (Stmt.typedef name type span).compile = .ok code) :
    ∃ definition, type.compileDefinition = .ok definition ∧
      code = definition ++ [(.pushName name, span), (.bindType, span)] := by
  simp only [compile, bind_eq_ok] at h
  obtain ⟨definition, hdefinition, h⟩ := h
  cases h
  exact ⟨definition, hdefinition, rfl⟩

lemma Stmt.compile_binding_ok {name : String} {type : TypeExpr} {value : Option Expr}
    {span : Span} {code : Code} (h : (Stmt.binding name type value span).compile = .ok code) :
    ∃ declared bound, type.compile = .ok declared ∧ Expr.compileBound value = .ok bound ∧
      code = declared ++ bound ++ [(.pushName name, span), (.store value.isSome, span)] := by
  simp only [compile, bind_eq_ok] at h
  obtain ⟨declared, hdeclared, bound, hbound, h⟩ := h
  cases h
  exact ⟨declared, bound, hdeclared, hbound, rfl⟩

/-- Only a call is accepted as a statement of its own. -/
lemma Stmt.compile_effect_ok {e : Expr} {span : Span} {code : Code}
    (h : (Stmt.effect e span).compile = .ok code) :
    ∃ callee arguments callSpan operands target, e = .call callee arguments callSpan ∧
      Expr.compileArguments arguments = .ok operands ∧ callee.compile false = .ok target ∧
      code = operands ++ target ++ [(.call arguments.length, callSpan)] := by
  cases e with
  | call callee arguments callSpan =>
      simp only [compile, bind_eq_ok] at h
      obtain ⟨operands, hoperands, target, htarget, h⟩ := h
      cases h
      exact ⟨callee, arguments, callSpan, operands, target, rfl, hoperands, htarget, rfl⟩
  | _ => cases h

lemma Stmt.compileAll_cons_ok {s : Stmt} {ss : List Stmt} {code : Code}
    (h : compileAll (s :: ss) = .ok code) :
    ∃ first rest, s.compile = .ok first ∧ compileAll ss = .ok rest ∧ code = first ++ rest := by
  simp only [compileAll, bind_eq_ok] at h
  obtain ⟨first, hfirst, rest, hrest, h⟩ := h
  cases h
  exact ⟨first, rest, hfirst, hrest, rfl⟩

lemma Stmt.compileAll_append_ok {ss ss' : List Stmt} {code : Code}
    (h : compileAll (ss ++ ss') = .ok code) :
    ∃ first rest, compileAll ss = .ok first ∧ compileAll ss' = .ok rest ∧ code = first ++ rest := by
  induction ss generalizing code with
  | nil => exact ⟨[], code, rfl, h, rfl⟩
  | cons s ss ih =>
      obtain ⟨first, rest, hfirst, hrest, rfl⟩ := compileAll_cons_ok h
      obtain ⟨middle, last, hmiddle, hlast, rfl⟩ := ih hrest
      refine ⟨first ++ middle, last, ?_, hlast, (List.append_assoc _ _ _).symm⟩
      rw [compileAll, hfirst, hmiddle]
      rfl

/-- The chunk of an accepted program is the code of its statements. -/
lemma Block.compile_ok {b : Block} {c : Chunk} (h : b.compile = .ok c) :
    ∃ code, Stmt.compileAll b.statements = .ok code ∧ c.located = code := by
  rw [compile] at h
  cases hcode : Stmt.compileAll b.statements with
  | error e =>
      rw [hcode] at h
      cases h
  | ok code =>
      rw [hcode] at h
      cases h
      exact ⟨code, rfl, Chunk.located_ofPairs code⟩

end TypedConfig
