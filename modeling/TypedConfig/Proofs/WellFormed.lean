import TypedConfig.Evaluate
import TypedConfig.Proofs.Readers

/-!
# What is read can be compiled

Where a shape, a new object and a call may stand is decided twice: by the parser, which does not
look for them elsewhere, and by the compiler, which looks at the whole tree.  `WellFormed` says it
as rules for trees, apart from both.

**Between the two.** A tree that follows the rules is compiled (`Stmt.WellFormed.compiles`), and the
parser gives no other trees (`Parser.program_wellFormed`), so the compiler never finds a fault in a
text (`parsed_compiles`).

**Wherever the parser begins.** The rules do not depend on the tokens that were there before, so
they also hold for what is read behind a fault.
-/

namespace TypedConfig

/-! ## Rules -/

/-- A type that may be defined: a shape with the fields of no other shape, neither an array nor
optional, or any type that is no shape. -/
inductive TypeExpr.Definable : TypeExpr → Prop where
  | plain {t : TypeExpr} (h : t.isObject = false) : Definable t
  | shape {t : TypeExpr} (harray : t.isArray = false) (hoptional : t.isOptional = false)
      (hfields : ∀ f ∈ t.fields, f.type.isObject = false) : Definable t

/-- A value without calls in it, whose new objects stand where a type is waiting for them; `typed`
says whether one is waiting for the value itself. -/
inductive Expr.WellFormed : Bool → Expr → Prop where
  | name {typed : Bool} {name : String} {s : Span} : WellFormed typed (.name name s)
  | literal {typed : Bool} {l : Literal} {s : Span} : WellFormed typed (.literal l s)
  | member {typed : Bool} {value : Expr} {name : String} {s : Span}
      (h : WellFormed false value) : WellFormed typed (.member value name s)
  | object {fields : List FieldInit} {s : Span}
      (h : ∀ f ∈ fields, WellFormed true f.value) : WellFormed true (.object fields s)

/-- A statement whose types and values are well-formed where they stand, and whose effect, if it is
there for its effect, is a call. -/
inductive Stmt.WellFormed : Stmt → Prop where
  | scope {name : String} {body : List Stmt} {bodySpan s : Span}
      (h : ∀ st ∈ body, WellFormed st) : WellFormed (.scope name body bodySpan s)
  | typedef {name : String} {type : TypeExpr} {s : Span}
      (h : type.Definable) : WellFormed (.typedef name type s)
  | binding {name : String} {type : TypeExpr} {value : Option Expr} {s : Span}
      (htype : type.isObject = false) (hvalue : ∀ e ∈ value, e.WellFormed true) :
      WellFormed (.binding name type value s)
  | effect {callee : Expr} {arguments : List Expr} {callSpan s : Span}
      (hcallee : callee.WellFormed false) (harguments : ∀ e ∈ arguments, e.WellFormed false) :
      WellFormed (.effect (.call callee arguments callSpan) s)

/-! ## What follows the rules is compiled -/

section

variable {t : TypeExpr} {typed : Bool} {e : Expr} {st : Stmt}

lemma TypeExpr.compiles_of_plain (h : t.isObject = false) : ∃ code, t.compile = .ok code := by
  rw [compile, h]
  exact ⟨_, rfl⟩

lemma FieldDecl.compiles_of_forall {fs : List FieldDecl}
    (h : ∀ f ∈ fs, f.type.isObject = false) : ∃ code, compileAll fs = .ok code := by
  induction fs with
  | nil => exact ⟨[], rfl⟩
  | cons f fs ih =>
      rw [List.forall_mem_cons] at h
      obtain ⟨type, htype⟩ := TypeExpr.compiles_of_plain h.1
      obtain ⟨rest, hrest⟩ := ih h.2
      rw [compileAll, htype, hrest]
      exact ⟨_, rfl⟩

lemma TypeExpr.Definable.compiles (h : t.Definable) : ∃ code, t.compileDefinition = .ok code := by
  cases hobject : t.isObject with
  | false =>
      rw [compileDefinition, hobject]
      exact compiles_of_plain hobject
  | true =>
      cases h with
      | plain h => exact absurd (h.symm.trans hobject) Bool.false_ne_true
      | shape harray hoptional hfields =>
          obtain ⟨fields, hfields⟩ := FieldDecl.compiles_of_forall hfields
          rw [compileDefinition, hobject, harray, hoptional, hfields]
          exact ⟨_, rfl⟩

lemma FieldInit.compiles_of_forall {fs : List FieldInit}
    (h : ∀ f ∈ fs, ∃ code, f.value.compile true = .ok code) : ∃ code, compileAll fs = .ok code := by
  induction fs with
  | nil => exact ⟨[], rfl⟩
  | cons f fs ih =>
      obtain ⟨name, value, s⟩ := f
      rw [List.forall_mem_cons] at h
      obtain ⟨value, hvalue⟩ := h.1
      obtain ⟨rest, hrest⟩ := ih h.2
      rw [compileAll, compile, hvalue, hrest]
      exact ⟨_, rfl⟩

lemma Expr.WellFormed.compiles (h : e.WellFormed typed) : ∃ code, e.compile typed = .ok code := by
  induction h with
  | name | literal => exact ⟨_, rfl⟩
  | member _ ih =>
      obtain ⟨value, hvalue⟩ := ih
      rw [compile, hvalue]
      exact ⟨_, rfl⟩
  | object _ ih =>
      obtain ⟨fields, hfields⟩ := FieldInit.compiles_of_forall ih
      rw [compile, hfields]
      exact ⟨_, rfl⟩

lemma Expr.compiles_of_forall {es : List Expr} (h : ∀ e ∈ es, e.WellFormed false) :
    ∃ code, compileArguments es = .ok code := by
  induction es with
  | nil => exact ⟨[], rfl⟩
  | cons e es ih =>
      rw [List.forall_mem_cons] at h
      obtain ⟨argument, hargument⟩ := h.1.compiles
      obtain ⟨rest, hrest⟩ := ih h.2
      rw [compileArguments, hargument, hrest]
      exact ⟨_, rfl⟩

lemma Stmt.compiles_of_forall {ss : List Stmt} (h : ∀ st ∈ ss, ∃ code, st.compile = .ok code) :
    ∃ code, compileAll ss = .ok code := by
  induction ss with
  | nil => exact ⟨[], rfl⟩
  | cons st ss ih =>
      rw [List.forall_mem_cons] at h
      obtain ⟨first, hfirst⟩ := h.1
      obtain ⟨rest, hrest⟩ := ih h.2
      rw [compileAll, hfirst, hrest]
      exact ⟨_, rfl⟩

/-- A statement that follows the rules is compiled. -/
theorem Stmt.WellFormed.compiles (h : st.WellFormed) : ∃ code, st.compile = .ok code := by
  induction h with
  | scope _ ih =>
      obtain ⟨body, hbody⟩ := compiles_of_forall ih
      rw [compile, hbody]
      exact ⟨_, rfl⟩
  | typedef h =>
      obtain ⟨type, htype⟩ := h.compiles
      rw [compile, htype]
      exact ⟨_, rfl⟩
  | @binding _ _ value _ htype hvalue =>
      obtain ⟨type, htype⟩ := TypeExpr.compiles_of_plain htype
      obtain ⟨bound, hbound⟩ : ∃ code, Expr.compileBound value = .ok code := by
        cases value with
        | none => exact ⟨[], rfl⟩
        | some e => exact (hvalue e rfl).compiles
      rw [compile, htype, hbound]
      exact ⟨_, rfl⟩
  | effect hcallee harguments =>
      obtain ⟨callee, hcallee⟩ := hcallee.compiles
      obtain ⟨arguments, harguments⟩ := Expr.compiles_of_forall harguments
      rw [compile, harguments, hcallee]
      exact ⟨_, rfl⟩

lemma Block.compiles_of_forall {b : Block} (h : ∀ st ∈ b.statements, st.WellFormed) :
    ∃ c, b.compile = .ok c := by
  obtain ⟨code, hcode⟩ := Stmt.compiles_of_forall fun st hst => (h st hst).compiles
  rw [compile, hcode]
  exact ⟨_, rfl⟩

end

/-! ## What is read follows the rules -/

namespace Parser

variable {α : Type} {s t : TokenStream}

/-- Whether whatever a parser gives has a property. -/
def Gives (p : Parser α) (Q : α → Prop) : Prop :=
  ∀ {s t : TokenStream} {x : α}, p s = .ok x t → Q x

section

variable {item : Parser α} {Q : α → Prop}

lemma gives_itemsToBrace (hitem : item.Gives Q) (n : Nat) :
    (itemsToBrace item n).Gives fun xs => ∀ x ∈ xs, Q x := by
  induction n with
  | zero => exact fun h => (fail_ok.mp h).elim
  | succ n ih =>
      intro s t xs h
      rcases itemsToBrace_ok.mp h with ⟨-, rfl, -⟩ | ⟨-, -, x, u, ys, hx, hys, rfl⟩
      · exact List.forall_mem_nil _
      · exact List.forall_mem_cons.mpr ⟨hitem hx, ih hys⟩

lemma gives_braced (hitem : item.Gives Q) : (braced item).Gives fun xs => ∀ x ∈ xs, Q x :=
  fun h => gives_itemsToBrace hitem _ (braced_ok.mp h).2

lemma gives_itemsAfterComma (hitem : item.Gives Q) (n : Nat) :
    (itemsAfterComma item n).Gives fun xs => ∀ x ∈ xs, Q x := by
  induction n with
  | zero =>
      intro s t xs h
      obtain ⟨rfl, -⟩ := pure_ok.mp h
      exact List.forall_mem_nil _
  | succ n ih =>
      intro s t xs h
      rcases itemsAfterComma_ok.mp h with ⟨-, x, u, ys, hx, hys, rfl⟩ | ⟨-, rfl, -⟩
      · exact List.forall_mem_cons.mpr ⟨hitem hx, ih hys⟩
      · exact List.forall_mem_nil _

lemma gives_commaSeparated (hitem : item.Gives Q) :
    (commaSeparated item).Gives fun xs => ∀ x ∈ xs, Q x := by
  intro s t xs h
  obtain ⟨x, u, ys, hx, hys, rfl⟩ := commaSeparated_ok.mp h
  exact List.forall_mem_cons.mpr ⟨hitem hx, gives_itemsAfterComma hitem _ hys⟩

end

lemma gives_typedefType : typedefType.Gives TypeExpr.Definable := by
  intro s t x h
  obtain ⟨hx, hobject⟩ := typedefType_ok.mp h
  obtain ⟨isArray, n, u, -, ⟨rfl, fields, hfields, -, rfl⟩ | ⟨hn, -, rfl⟩⟩ := typeWithin_ok.mp hx
  · have hfield : ∀ {type : Parser TypeExpr}, (fieldDecl (notObject type)).Gives
        fun f => f.type.isObject = false := by
      intro type s t f h
      obtain ⟨n, x, u, -, -, hx, rfl, -⟩ := fieldDecl_ok.mp h
      exact (notObject_ok.mp hx).2
    exact .shape hobject rfl (gives_braced hfield hfields)
  · exact .plain (decide_eq_false hn)

/-- A path may stand wherever a value may. -/
lemma gives_members {start : Span} {path : Expr} (hpath : ∀ typed, path.WellFormed typed)
    (n : Nat) : (members start path n).Gives fun e => ∀ typed, e.WellFormed typed := by
  induction n generalizing path with
  | zero =>
      intro s t e h
      obtain ⟨rfl, -⟩ := pure_ok.mp h
      exact hpath
  | succ n ih =>
      intro s t e h
      rcases members_ok.mp h with ⟨-, m, -, h⟩ | ⟨-, rfl, -⟩
      · exact ih (fun _ => .member (hpath false)) h
      · exact hpath

lemma gives_path : path.Gives fun e => ∀ typed, e.WellFormed typed := by
  intro s t e h
  obtain ⟨n, -, h⟩ := path_ok.mp h
  exact gives_members (fun _ => .name) _ h

/-- A new object is only given where one is allowed, and one is always allowed in its fields. -/
lemma gives_valueWithin (allowsObject : Bool) (depth : Nat) :
    (valueWithin allowsObject depth).Gives (Expr.WellFormed allowsObject) := by
  induction depth generalizing allowsObject with
  | zero => exact fun h => (fail_ok.mp h).elim
  | succ depth ih =>
      intro s t e h
      obtain ⟨⟨l, -, rfl, -⟩ | ⟨-, rfl, fields, hfields, rfl⟩ | hpath, -⟩ := valueWithin_ok.mp h
      · exact .literal
      · have hfield : (fieldInit (valueWithin true depth)).Gives
            fun f => f.value.WellFormed true := by
          intro s t f h
          obtain ⟨n, e, u, -, -, he, rfl, -⟩ := fieldInit_ok.mp h
          exact ih true he
        exact .object (gives_braced hfield hfields)
      · exact gives_path hpath allowsObject

lemma gives_value (allowsObject : Bool) :
    (value allowsObject).Gives (Expr.WellFormed allowsObject) :=
  fun h => gives_valueWithin allowsObject _ h

lemma gives_arguments : arguments.Gives fun es => ∀ e ∈ es, e.WellFormed false := by
  intro s t es h
  obtain ⟨-, ⟨-, rfl, -⟩ | ⟨-, u, hes, -, -⟩⟩ := arguments_ok.mp h
  · exact List.forall_mem_nil _
  · exact gives_commaSeparated (gives_value false) hes

lemma gives_call : call.Gives Stmt.WellFormed := by
  intro s t st h
  obtain ⟨callee, u, es, hcallee, hes, rfl⟩ := call_ok.mp h
  exact .effect (gives_path hcallee false) (gives_arguments hes)

lemma gives_typedef : typedef.Gives Stmt.WellFormed := by
  intro s t st h
  obtain ⟨-, n, -, -, x, hx, rfl⟩ := typedef_ok.mp h
  exact .typedef (gives_typedefType hx)

lemma gives_binding : binding.Gives Stmt.WellFormed := by
  intro s t st h
  obtain ⟨-, n, -, -, x, u, hx, ⟨-, e, he, rfl⟩ | ⟨-, -, rfl⟩⟩ := binding_ok.mp h
  · refine .binding (notObject_ok.mp hx).2 fun e' he' => ?_
    cases he'
    exact gives_value true he
  · exact .binding (notObject_ok.mp hx).2 fun e' he' => by cases he'

lemma gives_statementWithin (depth : Nat) : (statementWithin depth).Gives Stmt.WellFormed := by
  induction depth with
  | zero => exact fun h => (fail_ok.mp h).elim
  | succ depth ih =>
      intro s t st h
      rcases statementWithin_ok.mp h with h | h | ⟨n, body, -, -, hbody, rfl⟩ | ⟨-, h⟩
      · exact gives_typedef h
      · exact gives_binding h
      · exact .scope (gives_braced ih hbody)
      · exact gives_call h

lemma gives_statements (n : Nat) :
    (statements n).Gives fun ss => ∀ st ∈ ss, st.WellFormed := by
  induction n with
  | zero =>
      intro s t ss h
      obtain ⟨rfl, -⟩ := pure_ok.mp h
      exact List.forall_mem_nil _
  | succ n ih =>
      intro s t ss h
      rcases statements_ok.mp h with ⟨-, rfl, -⟩ | ⟨-, st, u, rest, hst, hrest, rfl⟩
      · exact List.forall_mem_nil _
      · exact List.forall_mem_cons.mpr ⟨gives_statementWithin _ hst, ih hrest⟩

/-- A program that is read follows the rules, whatever was taken from the stream before. -/
theorem program_wellFormed : program.Gives fun b => ∀ st ∈ b.statements, st.WellFormed := by
  intro s t b h
  obtain ⟨ss, hss, rfl⟩ := program_ok.mp h
  exact gives_statements _ hss

/-- A program that is read is compiled. -/
lemma program_compiles : program.Gives fun b => ∃ c, b.compile = .ok c :=
  fun h => Block.compiles_of_forall (program_wellFormed h)

end Parser

/-! ## Programs -/

/-- What reading a program from a stream gives, and the stream that is left, also behind a fault. -/
def TokenStream.program (s : TokenStream) : Except ParseError Block × TokenStream :=
  match Parser.program s with
  | .ok b t => (.ok b, t)
  | .error e t => (.error e, t)

/-- The stream behind `k` programs and faults, one after the other. -/
def TokenStream.behind : Nat → TokenStream → TokenStream
  | 0, s => s
  | k + 1, s => behind k s.program.2

/-- What is read from the tokens when programs are asked for again and again, `k` of them or their
faults before this one. -/
def parsed (ts : List Token) (k : Nat) : Except ParseError Block :=
  ((TokenStream.ofTokens ts).behind k).program.1

lemma parsed_zero (ts : List Token) : parsed ts 0 = parseTokens ts := by
  rw [parsed, TokenStream.behind, TokenStream.program, parseTokens]
  cases Parser.program (TokenStream.ofTokens ts) <;> rfl

lemma TokenStream.program_ok {s : TokenStream} {b : Block} (h : s.program.1 = .ok b) :
    ∃ t, Parser.program s = .ok b t := by
  rw [program] at h
  cases hb : Parser.program s with
  | ok b' t =>
      rw [hb] at h
      cases h
      exact ⟨t, rfl⟩
  | error e t =>
      rw [hb] at h
      cases h

/-- A text has a fault in its characters or in the order of its tokens, or it is compiled. -/
lemma chunkOf_cases (text : String) :
    (∃ e, tokenize text = .error e ∧ chunkOf text = .error (.scan e)) ∨
      (∃ ts e, tokenize text = .ok ts ∧ parseTokens ts = .error e ∧
        chunkOf text = .error (.parse e)) ∨
      ∃ ts b c, tokenize text = .ok ts ∧ parseTokens ts = .ok b ∧ treeOf text = .ok b ∧
        b.compile = .ok c ∧ chunkOf text = .ok c := by
  rw [chunkOf, treeOf, tokensOf]
  cases htokens : tokenize text with
  | error e => exact Or.inl ⟨e, rfl, rfl⟩
  | ok ts =>
      simp only [Except.mapError, bind, Except.bind]
      cases hb : parseTokens ts with
      | error e => exact Or.inr (Or.inl ⟨ts, e, rfl, hb, rfl⟩)
      | ok b =>
          rw [← parsed_zero] at hb
          obtain ⟨t, hprogram⟩ := TokenStream.program_ok hb
          obtain ⟨c, hc⟩ := Parser.program_compiles hprogram
          rw [parsed_zero] at hb
          exact Or.inr (Or.inr ⟨ts, b, c, rfl, hb, rfl, hc, by simp only [hc]⟩)

/-- Whatever the parser reads is compiled: any program that is read from any tokens, the first one
or a later one and also behind faults, and so any text that can be read at all. -/
theorem parsed_compiles :
    (∀ (ts : List Token) (k : Nat) (b : Block), parsed ts k = .ok b → ∃ c, b.compile = .ok c) ∧
      ∀ (text : String) (e : CompileError), chunkOf text ≠ .error (.compile e) := by
  refine ⟨fun ts k b h => ?_, fun text e h => ?_⟩
  · obtain ⟨t, hb⟩ := TokenStream.program_ok h
    exact Parser.program_compiles hb
  · rcases chunkOf_cases text with ⟨_, -, hscan⟩ | ⟨_, _, -, -, hparse⟩ | ⟨_, _, c, -, -, -, -, hc⟩
    · rw [hscan] at h
      cases h
    · rw [hparse] at h
      cases h
    · rw [hc] at h
      cases h

/-- A program that is read behind a fault: `let let x: int`. -/
theorem parsed_compiles_behind_fault :
    let ts : List Token := [.keyword .letWord, .keyword .letWord, .name "x", .symbol .colon,
      .name "int"].map (⟨·, {}⟩)
    let b : Block := ⟨[.binding "x" (.named "int" {}) none {}], {}⟩
    (∃ e, parsed ts 0 = .error e) ∧ parsed ts 1 = .ok b ∧ ∃ c, b.compile = .ok c := by
  intro ts b
  have hb : parsed ts 1 = .ok b := rfl
  exact ⟨⟨_, rfl⟩, hb, parsed_compiles.1 ts 1 b hb⟩

end TypedConfig
