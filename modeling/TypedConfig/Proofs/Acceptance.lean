import TypedConfig.Proofs.Accepted
import TypedConfig.Proofs.WellFormed

/-!
# Which trees are compiled, and which fault is found

The compiler takes exactly the trees that follow the rules (`Stmt.WellFormed`), and of a tree that
does not it names the first node that is out of place (`Block.compile_iff`).

**Sites.** Whether a node is out of place depends on the node and on the role in which it stands,
on nothing else.  A `Site` is a node with its role, and `Site.fault?` looks at that one node.

**The walk.** `Block.sites` lists the sites of a tree, faulty or not, in the order in which the
compiler comes to them: a node ahead of its parts, the type of a binding ahead of the value, the
arguments of a call ahead of what is called.  A new object that has no type waiting for it has none
waiting for its fields either.
-/

namespace TypedConfig

/-! ## Sites -/

/-- A node of a tree and the role in which it stands. -/
inductive Site where
  /-- An expression that stands as a statement. -/
  | statement (e : Expr)
  /-- An expression whose value is wanted; `typed` says whether a type is waiting for it. -/
  | value (typed : Bool) (e : Expr)
  /-- The type of a binding or of a field of a shape. -/
  | type (t : TypeExpr)
  /-- The type of a type definition. -/
  | definition (t : TypeExpr)

namespace Site

/-- Where the node stands in the text. -/
def span : Site → Span
  | .statement e | .value _ e => e.span
  | .type t | .definition t => t.span

/-- What is wrong with the node in its role, whatever its parts are. -/
def fault? : Site → Option CompileFault
  | .statement (.call ..) => none
  | .statement _ => some .effectIsNoCall
  | .value _ (.call ..) => some .callAsValue
  | .value false (.object ..) => some .untypedObject
  | .value _ _ => none
  | .type t => if t.isObject then some .objectOutsideTypedef else none
  | .definition t =>
    if t.isObject && t.isArray then some .objectOutsideTypedef
    else if t.isObject && t.isOptional then some .optionalObject
    else none

/-- The fault with its place. -/
def error? (x : Site) : Option CompileError := x.fault?.map fun fault => ⟨fault, x.span⟩

end Site

/-! ## The walk -/

mutual

/-- The sites of the parts of an expression. -/
def Expr.parts (typed : Bool) : Expr → List Site
  | .name _ _ | .literal _ _ => []
  | .member value _ _ => .value false value :: value.parts false
  | .object fields _ => FieldInit.sites typed fields
  | .call callee arguments _ => Expr.sitesAll arguments ++ .value false callee :: callee.parts false

/-- The sites of the values of fields. -/
def FieldInit.sites (typed : Bool) : List FieldInit → List Site
  | [] => []
  | ⟨_, value, _⟩ :: fs => .value typed value :: value.parts typed ++ FieldInit.sites typed fs

/-- The sites of arguments. -/
def Expr.sitesAll : List Expr → List Site
  | [] => []
  | e :: es => .value false e :: e.parts false ++ Expr.sitesAll es

end

/-- The sites of a value. -/
def Expr.sites (typed : Bool) (e : Expr) : List Site := .value typed e :: e.parts typed

/-- The sites of the type of a type definition.  Only a shape has fields that count. -/
def TypeExpr.sites (t : TypeExpr) : List Site :=
  .definition t :: if t.isObject then t.fields.map fun f => .type f.type else []

mutual

/-- The sites of a statement. -/
def Stmt.sites : Stmt → List Site
  | .scope _ body _ _ => sitesAll body
  | .typedef _ type _ => type.sites
  | .binding _ type value _ => .type type :: value.toList.flatMap (Expr.sites true)
  | .effect e _ => .statement e :: e.parts false

/-- The sites of statements. -/
def Stmt.sitesAll : List Stmt → List Site
  | [] => []
  | s :: ss => s.sites ++ sitesAll ss

end

/-- The sites of a program, in the order in which the compiler comes to them. -/
def Block.sites (b : Block) : List Site := Stmt.sitesAll b.statements

/-! ## The first fault -/

/-- The error of a computation, if it fails. -/
def errorOf? {ε α : Type} : Except ε α → Option ε
  | .ok _ => none
  | .error e => some e

section

variable {ε α β : Type}

/-- If going on fails in one way whatever it goes on from, then the first of two errors counts. -/
lemma errorOf?_bind {x : Except ε α} {f : α → Except ε β} {o : Option ε}
    (h : ∀ a, errorOf? (f a) = o) : errorOf? (x >>= f) = (errorOf? x).or o := by
  cases x with
  | error e => rfl
  | ok a => exact h a

lemma errorOf?_map (x : Except ε α) (f : α → β) :
    errorOf? (x >>= fun a => pure (f a)) = errorOf? x := by
  cases x <;> rfl

end

/-- The first error among sites. -/
def firstError (sites : List Site) : Option CompileError := sites.findSome? Site.error?

lemma firstError_append (xs ys : List Site) :
    firstError (xs ++ ys) = (firstError xs).or (firstError ys) :=
  List.findSome?_append

lemma firstError_cons (x : Site) (xs : List Site) :
    firstError (x :: xs) = x.error?.or (firstError xs) := by
  rw [firstError, List.findSome?_cons]
  cases x.error? <;> rfl

/-- The first error of a program is that of a site which is out of place, while none ahead of it
is. -/
lemma firstError_eq_some {sites : List Site} {e : CompileError} :
    firstError sites = some e ↔ ∃ before x after, sites = before ++ x :: after ∧
      x.fault? = some e.cause ∧ x.span = e.span ∧ ∀ y ∈ before, y.fault? = none := by
  rw [firstError, List.findSome?_eq_some_iff]
  simp only [Site.error?, Option.map_eq_some_iff, Option.map_eq_none_iff]
  constructor
  · rintro ⟨before, x, after, hsites, ⟨fault, hfault, rfl⟩, hbefore⟩
    exact ⟨before, x, after, hsites, hfault, rfl, hbefore⟩
  · rintro ⟨before, x, after, hsites, hfault, hspan, hbefore⟩
    exact ⟨before, x, after, hsites, ⟨e.cause, hfault, by rw [hspan]⟩, hbefore⟩

/-! ### Types -/

lemma TypeExpr.errorOf?_compile (t : TypeExpr) :
    errorOf? t.compile = (Site.type t).error? := by
  rw [compile, Site.error?, Site.fault?]
  split <;> rfl

lemma FieldDecl.errorOf?_compileAll (fs : List FieldDecl) :
    errorOf? (compileAll fs) = firstError (fs.map fun f => .type f.type) := by
  induction fs with
  | nil => rfl
  | cons f fs ih =>
      rw [compileAll, errorOf?_bind fun type => errorOf?_map _ _, ih,
        TypeExpr.errorOf?_compile, List.map_cons, firstError_cons]

/-- A type definition is at fault itself, or one of the fields of its shape is. -/
lemma TypeExpr.errorOf?_compileDefinition (t : TypeExpr) :
    errorOf? t.compileDefinition = firstError t.sites := by
  rw [compileDefinition, sites, firstError_cons, Site.error?, Site.fault?]
  cases hobject : t.isObject with
  | false =>
      rw [compile, hobject]
      rfl
  | true =>
      cases t.isArray with
      | true => rfl
      | false =>
          cases t.isOptional with
          | true => rfl
          | false =>
              simp only [Bool.not_true, Bool.false_eq_true, if_false, if_true, Bool.and_false]
              rw [errorOf?_map, FieldDecl.errorOf?_compileAll]
              rfl

/-! ### Values -/

mutual

lemma Expr.errorOf?_compile (typed : Bool) (e : Expr) :
    errorOf? (e.compile typed) = firstError (e.sites typed) := by
  rw [Expr.sites, firstError_cons]
  match e with
  | .name _ _ | .literal _ _ => rfl
  | .member value name s =>
      rw [Expr.compile, errorOf?_map, Expr.errorOf?_compile false value]
      rfl
  | .object fields s =>
      cases typed with
      | false => rfl
      | true =>
          rw [Expr.compile, if_pos rfl, errorOf?_map, FieldInit.errorOf?_compileAll fields]
          rfl
  | .call callee arguments s => rfl

lemma FieldInit.errorOf?_compileAll (fs : List FieldInit) :
    errorOf? (FieldInit.compileAll fs) = firstError (FieldInit.sites true fs) := by
  match fs with
  | [] => rfl
  | ⟨name, value, s⟩ :: fs =>
      have hvalue := Expr.errorOf?_compile true value
      rw [FieldInit.compileAll, errorOf?_bind fun field => errorOf?_map _ _,
        FieldInit.errorOf?_compileAll fs, FieldInit.compile, errorOf?_map, hvalue,
        FieldInit.sites, firstError_append]
      rfl

end

lemma Expr.errorOf?_compileArguments (es : List Expr) :
    errorOf? (compileArguments es) = firstError (sitesAll es) := by
  induction es with
  | nil => rfl
  | cons e es ih =>
      rw [compileArguments, errorOf?_bind fun argument => errorOf?_map _ _, ih,
        errorOf?_compile false e, sitesAll, firstError_append]
      rfl

/-! ### Statements -/

mutual

/-- A statement that cannot be compiled is refused for its first site that is out of place. -/
lemma Stmt.errorOf?_compile (st : Stmt) : errorOf? st.compile = firstError st.sites := by
  match st with
  | .scope name body bodySpan s =>
      rw [Stmt.compile, errorOf?_map, Stmt.errorOf?_compileAll body]
      rfl
  | .typedef name type s =>
      rw [Stmt.compile, errorOf?_map, type.errorOf?_compileDefinition]
      rfl
  | .binding name type value s =>
      rw [Stmt.compile, errorOf?_bind fun declared => errorOf?_map _ _, type.errorOf?_compile,
        Stmt.sites, firstError_cons]
      cases value with
      | none => rfl
      | some e =>
          rw [Expr.compileBound, e.errorOf?_compile true, Option.toList_some,
            List.flatMap_singleton]
  | .effect (.call callee arguments callSpan) s =>
      rw [Stmt.compile, errorOf?_bind fun operands => errorOf?_map _ _,
        Expr.errorOf?_compileArguments, callee.errorOf?_compile false, ← firstError_append]
      rfl
  | .effect (.name _ _) _ | .effect (.literal _ _) _ | .effect (.object _ _) _
  | .effect (.member _ _ _) _ => rfl

lemma Stmt.errorOf?_compileAll (ss : List Stmt) :
    errorOf? (Stmt.compileAll ss) = firstError (Stmt.sitesAll ss) := by
  match ss with
  | [] => rfl
  | st :: ss =>
      rw [Stmt.compileAll, errorOf?_bind fun first => errorOf?_map _ _, Stmt.errorOf?_compile st,
        Stmt.errorOf?_compileAll ss, Stmt.sitesAll, firstError_append]

end

lemma Block.errorOf?_compile (b : Block) : errorOf? b.compile = firstError b.sites := by
  rw [compile, sites, ← Stmt.errorOf?_compileAll]
  cases Stmt.compileAll b.statements <;> rfl

/-! ## What is compiled follows the rules -/

lemma TypeExpr.isObject_of_compile {t : TypeExpr} {code : Code} (h : t.compile = .ok code) :
    t.isObject = false := by
  rw [compile] at h
  split at h
  · cases h
  · rename_i hobject
    exact eq_false_of_ne_true hobject

lemma FieldDecl.isObject_of_compileAll {fs : List FieldDecl} {code : Code}
    (h : compileAll fs = .ok code) : ∀ f ∈ fs, f.type.isObject = false := by
  induction fs generalizing code with
  | nil => exact List.forall_mem_nil _
  | cons f fs ih =>
      obtain ⟨type, rest, htype, hrest, -⟩ := compileAll_cons_ok h
      exact List.forall_mem_cons.mpr ⟨TypeExpr.isObject_of_compile htype, ih hrest⟩

lemma TypeExpr.definable_of_compileDefinition {t : TypeExpr} {code : Code}
    (h : t.compileDefinition = .ok code) : t.Definable := by
  rw [compileDefinition] at h
  split at h
  · exact .plain (isObject_of_compile h)
  · split at h
    · cases h
    · rename_i harray
      split at h
      · cases h
      · rename_i hoptional
        obtain ⟨fields, hfields, -⟩ := bind_eq_ok.mp h
        exact .shape (eq_false_of_ne_true harray) (eq_false_of_ne_true hoptional)
          (FieldDecl.isObject_of_compileAll hfields)

mutual

lemma Expr.wellFormed_of_compile {typed : Bool} (e : Expr) {code : Code}
    (h : e.compile typed = .ok code) : e.WellFormed typed := by
  match e, h with
  | .name _ _, _ => exact .name
  | .literal _ _, _ => exact .literal
  | .member value _ _, h =>
      obtain ⟨receiver, hreceiver, -⟩ := Expr.compile_member_ok h
      exact .member (Expr.wellFormed_of_compile value hreceiver)
  | .object fields _, h =>
      obtain ⟨rfl, inits, hinits, -⟩ := Expr.compile_object_ok h
      exact .object (FieldInit.wellFormed_of_compileAll fields hinits)
  | .call _ _ _, h => cases h

lemma FieldInit.wellFormed_of_compileAll (fs : List FieldInit) {code : Code}
    (h : FieldInit.compileAll fs = .ok code) : ∀ f ∈ fs, f.value.WellFormed true := by
  match fs, h with
  | [], _ => exact List.forall_mem_nil _
  | ⟨_, value, _⟩ :: fs, h =>
      obtain ⟨init, rest, hinit, hrest, -⟩ := FieldInit.compileAll_cons_ok h
      exact List.forall_mem_cons.mpr ⟨Expr.wellFormed_of_compile value hinit,
        FieldInit.wellFormed_of_compileAll fs hrest⟩

end

lemma Expr.wellFormed_of_compileArguments {es : List Expr} {code : Code}
    (h : compileArguments es = .ok code) : ∀ e ∈ es, e.WellFormed false := by
  induction es generalizing code with
  | nil => exact List.forall_mem_nil _
  | cons e es ih =>
      obtain ⟨argument, rest, hargument, hrest, -⟩ := compileArguments_cons_ok h
      exact List.forall_mem_cons.mpr ⟨wellFormed_of_compile e hargument, ih hrest⟩

mutual

/-- A statement that is compiled follows the rules. -/
lemma Stmt.wellFormed_of_compile (st : Stmt) {code : Code} (h : st.compile = .ok code) :
    st.WellFormed := by
  match st, h with
  | .scope _ body _ _, h =>
      obtain ⟨inner, hinner, -⟩ := Stmt.compile_scope_ok h
      exact .scope (Stmt.wellFormed_of_compileAll body hinner)
  | .typedef _ type _, h =>
      obtain ⟨definition, hdefinition, -⟩ := Stmt.compile_typedef_ok h
      exact .typedef (TypeExpr.definable_of_compileDefinition hdefinition)
  | .binding _ type value _, h =>
      obtain ⟨declared, bound, hdeclared, hbound, -⟩ := Stmt.compile_binding_ok h
      refine .binding (TypeExpr.isObject_of_compile hdeclared) ?_
      rintro e rfl
      exact e.wellFormed_of_compile hbound
  | .effect e _, h =>
      obtain ⟨callee, arguments, callSpan, operands, target, rfl, hoperands, htarget, -⟩ :=
        Stmt.compile_effect_ok h
      exact .effect (callee.wellFormed_of_compile htarget)
        (Expr.wellFormed_of_compileArguments hoperands)

lemma Stmt.wellFormed_of_compileAll (ss : List Stmt) {code : Code}
    (h : Stmt.compileAll ss = .ok code) : ∀ st ∈ ss, st.WellFormed := by
  match ss, h with
  | [], _ => exact List.forall_mem_nil _
  | st :: ss, h =>
      obtain ⟨first, rest, hfirst, hrest, -⟩ := Stmt.compileAll_cons_ok h
      exact List.forall_mem_cons.mpr ⟨Stmt.wellFormed_of_compile st hfirst,
        Stmt.wellFormed_of_compileAll ss hrest⟩

end

/-! ## Programs -/

/-- A program is compiled exactly if its statements follow the rules.  If it is not, the error is
that of the first site on the walk through the program that is out of place, and stands where the
node does.  If it is, every instruction has a span. -/
theorem Block.compile_iff (b : Block) :
    ((∃ c, b.compile = .ok c) ↔ ∀ st ∈ b.statements, st.WellFormed) ∧
    (∀ e, b.compile = .error e ↔ ∃ before x after, b.sites = before ++ x :: after ∧
      x.fault? = some e.cause ∧ x.span = e.span ∧ ∀ y ∈ before, y.fault? = none) ∧
    ∀ c, b.compile = .ok c → c.spans.length = c.code.length := by
  refine ⟨⟨?_, compiles_of_forall⟩, ?_, fun c hc => length_spans_of_compile hc⟩
  · rintro ⟨c, hc⟩
    obtain ⟨code, hcode, -⟩ := compile_ok hc
    exact Stmt.wellFormed_of_compileAll b.statements hcode
  · intro e
    rw [← firstError_eq_some, show firstError (sites b) = _ from (errorOf?_compile b).symm]
    cases b.compile with
    | ok c => exact ⟨nofun, nofun⟩
    | error e' => exact ⟨fun h => by cases h; rfl, fun h => by cases h; rfl⟩

end TypedConfig
