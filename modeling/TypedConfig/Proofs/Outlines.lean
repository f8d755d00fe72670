import TypedConfig.Proofs.Accepted
import TypedConfig.Proofs.Lists

/-!
# Outlines

The outline of a tree is the tree without what its nodes say: only where they stand is left, and
how they are nested.  Types, values and statements have outlines of one kind, so what is to be said
about their places is said once.

**Code shows nodes.** The compiler makes up no places: every instruction of a statement stands where
a node of the statement does (`Stmt.all_compile`).
-/

namespace TypedConfig

/-- Where a node stands, and the outlines of its parts in the order of the text. -/
inductive Outline where
  | node (span : Span) (parts : List Outline)

mutual

/-- Whether something holds of all places in an outline. -/
def Outline.All (P : Span → Prop) : Outline → Prop
  | .node s parts => P s ∧ Outline.AllIn P parts

/-- Whether something holds of all places in outlines. -/
def Outline.AllIn (P : Span → Prop) : List Outline → Prop
  | [] => True
  | o :: os => o.All P ∧ Outline.AllIn P os

end

/-! ## Trees -/

mutual

/-- The outline of a type. -/
def TypeExpr.outline : TypeExpr → Outline
  | ⟨_, _, _, fields, s⟩ => .node s (FieldDecl.outlines fields)

/-- The outline of a field of a shape. -/
def FieldDecl.outline : FieldDecl → Outline
  | ⟨_, type, s⟩ => .node s [type.outline]

/-- The outlines of the fields of a shape. -/
def FieldDecl.outlines : List FieldDecl → List Outline
  | [] => []
  | f :: fs => f.outline :: FieldDecl.outlines fs

end

mutual

/-- The outline of an expression. -/
def Expr.outline : Expr → Outline
  | .name _ s => .node s []
  | .literal _ s => .node s []
  | .object fields s => .node s (FieldInit.outlines fields)
  | .call callee arguments s => .node s (callee.outline :: Expr.outlines arguments)
  | .member value _ s => .node s [value.outline]

/-- The outlines of expressions. -/
def Expr.outlines : List Expr → List Outline
  | [] => []
  | e :: es => e.outline :: Expr.outlines es

/-- The outline of a field of a new object. -/
def FieldInit.outline : FieldInit → Outline
  | ⟨_, value, s⟩ => .node s [value.outline]

/-- The outlines of the fields of a new object. -/
def FieldInit.outlines : List FieldInit → List Outline
  | [] => []
  | f :: fs => f.outline :: FieldInit.outlines fs

end

mutual

/-- The outline of a statement.  What stands between the braces of a scope is a part of it. -/
def Stmt.outline : Stmt → Outline
  | .scope _ body bodySpan s => .node s [.node bodySpan (Stmt.outlines body)]
  | .typedef _ type s => .node s [type.outline]
  | .binding _ type value s => .node s (type.outline :: value.toList.map Expr.outline)
  | .effect e s => .node s [e.outline]

/-- The outlines of statements. -/
def Stmt.outlines : List Stmt → List Outline
  | [] => []
  | st :: ss => st.outline :: Stmt.outlines ss

end

/-- The outline of a program. -/
def Block.outline (b : Block) : Outline := .node b.span (Stmt.outlines b.statements)

lemma TypeExpr.outline_eq (t : TypeExpr) :
    t.outline = .node t.span (FieldDecl.outlines t.fields) := by
  obtain ⟨name, isArray, isOptional, fields, span⟩ := t
  rfl

lemma Stmt.outlines_eq_map : ∀ ss : List Stmt, outlines ss = ss.map outline :=
  eq_map_of_cons rfl fun _ _ => rfl

/-! ## Code -/

/-- Whether something holds of the places of all instructions. -/
def Code.All (P : Span → Prop) (code : Code) : Prop := ∀ p ∈ code, P p.2

variable {P : Span → Prop} {code : Code}

namespace Code.All

lemma nil : Code.All P [] := List.forall_mem_nil _

lemma cons {i : Instr} {span : Span} (hspan : P span) (h : Code.All P code) :
    Code.All P ((i, span) :: code) :=
  List.forall_mem_cons.mpr ⟨hspan, h⟩

lemma append {rest : Code} (h : Code.All P code) (hrest : Code.All P rest) :
    Code.All P (code ++ rest) :=
  List.forall_mem_append.mpr ⟨h, hrest⟩

end Code.All

lemma TypeExpr.all_compile {t : TypeExpr} (h : t.compile = .ok code) (hP : t.outline.All P) :
    code.All P := by
  obtain rfl := compile_ok h
  rw [outline_eq] at hP
  exact .cons hP.1 (.cons hP.1 .nil)

lemma FieldDecl.all_compileAll {fs : List FieldDecl} (h : compileAll fs = .ok code)
    (hP : Outline.AllIn P (outlines fs)) : code.All P := by
  induction fs generalizing code with
  | nil =>
      cases h
      exact .nil
  | cons f fs ih =>
      obtain ⟨name, type, span⟩ := f
      obtain ⟨code, rest, htype, hrest, rfl⟩ := compileAll_cons_ok h
      obtain ⟨⟨hspan, htypeP, -⟩, hfields⟩ := hP
      exact (TypeExpr.all_compile htype htypeP).append (.cons hspan (ih hrest hfields))

lemma TypeExpr.all_compileDefinition {t : TypeExpr} (h : t.compileDefinition = .ok code)
    (hP : t.outline.All P) : code.All P := by
  rcases compileDefinition_ok h with ⟨-, h⟩ | ⟨-, fields, hfields, rfl⟩
  · exact all_compile h hP
  · rw [outline_eq] at hP
    exact (FieldDecl.all_compileAll hfields hP.2).append (.cons hP.1 .nil)

mutual

lemma Expr.all_compile {typed : Bool} {code : Code} (e : Expr) (h : e.compile typed = .ok code)
    (hP : e.outline.All P) : code.All P := by
  match e, h with
  | .name _ _, h =>
      cases h
      exact .cons hP.1 (.cons hP.1 .nil)
  | .literal _ _, h =>
      cases h
      exact .cons hP.1 .nil
  | .member value _ _, h =>
      obtain ⟨receiver, hreceiver, rfl⟩ := Expr.compile_member_ok h
      obtain ⟨hspan, hvalue, -⟩ := hP
      exact (Expr.all_compile value hreceiver hvalue).append (.cons hspan (.cons hspan .nil))
  | .object fields _, h =>
      obtain ⟨-, inits, hinits, rfl⟩ := Expr.compile_object_ok h
      have hinits := FieldInit.all_compileAll fields hinits hP.2
      exact (hinits.cons hP.1).append (.cons hP.1 .nil)
  | .call _ _ _, h => cases h

lemma FieldInit.all_compileAll {code : Code} (fs : List FieldInit)
    (h : FieldInit.compileAll fs = .ok code) (hP : Outline.AllIn P (FieldInit.outlines fs)) :
    code.All P := by
  match fs, h with
  | [], h =>
      cases h
      exact .nil
  | ⟨name, value, span⟩ :: fs, h =>
      obtain ⟨init, rest, hinit, hrest, rfl⟩ := FieldInit.compileAll_cons_ok h
      obtain ⟨⟨hspan, hvalue, -⟩, hfields⟩ := hP
      have hinit := Expr.all_compile value hinit hvalue
      exact ((hinit.cons hspan).append (.cons hspan .nil)).append
        (FieldInit.all_compileAll fs hrest hfields)

end

lemma Expr.all_compileArguments {es : List Expr} (h : compileArguments es = .ok code)
    (hP : Outline.AllIn P (outlines es)) : code.All P := by
  induction es generalizing code with
  | nil =>
      cases h
      exact .nil
  | cons e es ih =>
      obtain ⟨argument, rest, hargument, hrest, rfl⟩ := compileArguments_cons_ok h
      exact (all_compile e hargument hP.1).append (ih hrest hP.2)

lemma Expr.all_compileBound {value : Option Expr} (h : compileBound value = .ok code)
    (hP : Outline.AllIn P (value.toList.map outline)) : code.All P := by
  cases value with
  | none =>
      cases h
      exact .nil
  | some e => exact all_compile e h hP.1

mutual

/-- What holds of the places of all nodes of a statement holds of those of its instructions. -/
theorem Stmt.all_compile {code : Code} (st : Stmt) (h : st.compile = .ok code)
    (hP : st.outline.All P) : code.All P := by
  match st, h with
  | .scope _ body _ _, h =>
      obtain ⟨inner, hinner, rfl⟩ := Stmt.compile_scope_ok h
      obtain ⟨hspan, ⟨hbodySpan, hbody⟩, -⟩ := hP
      have hinner := Stmt.all_compileAll body hinner hbody
      exact ((hinner.cons hspan).cons hspan).append (.cons hbodySpan .nil)
  | .typedef _ type _, h =>
      obtain ⟨definition, hdefinition, rfl⟩ := Stmt.compile_typedef_ok h
      obtain ⟨hspan, htype, -⟩ := hP
      have hdefinition := TypeExpr.all_compileDefinition hdefinition htype
      exact hdefinition.append (.cons hspan (.cons hspan .nil))
  | .binding _ type value _, h =>
      obtain ⟨declared, bound, hdeclared, hbound, rfl⟩ := Stmt.compile_binding_ok h
      obtain ⟨hspan, htype, hvalue⟩ := hP
      have hdeclared := TypeExpr.all_compile hdeclared htype
      have hbound := Expr.all_compileBound hbound hvalue
      exact (hdeclared.append hbound).append (.cons hspan (.cons hspan .nil))
  | .effect _ _, h =>
      obtain ⟨callee, arguments, callSpan, operands, target, rfl, hoperands, htarget, rfl⟩ :=
        Stmt.compile_effect_ok h
      obtain ⟨-, ⟨hcall, hcallee, harguments⟩, -⟩ := hP
      have hoperands := Expr.all_compileArguments hoperands harguments
      exact (hoperands.append (Expr.all_compile callee htarget hcallee)).append (.cons hcall .nil)

lemma Stmt.all_compileAll {code : Code} (ss : List Stmt) (h : Stmt.compileAll ss = .ok code)
    (hP : Outline.AllIn P (Stmt.outlines ss)) : code.All P := by
  match ss, h with
  | [], h =>
      cases h
      exact .nil
  | st :: ss, h =>
      obtain ⟨first, rest, hfirst, hrest, rfl⟩ := Stmt.compileAll_cons_ok h
      exact (Stmt.all_compile st hfirst hP.1).append (Stmt.all_compileAll ss hrest hP.2)

end

end TypedConfig
