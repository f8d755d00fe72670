import TypedConfig.Proofs.Lists
import TypedConfig.Tree.Parse

/-!
# The grammar

What a program looks like, said without a parser.  A `Phrase` relates tokens that begin with some
construct to the tree of the construct and to the tokens that are left behind it.  No rule looks at
the tokens that are left, so the rules are those of a context-free grammar.

**Trees without spans.** The grammar does not say where in the text anything stands.  Its trees are
bare: all of their spans are empty.  `bare` makes a tree bare.

**Shapes** stand behind the name `object` and nowhere else, and `object` stands nowhere but directly
as the type of a type definition.

**What the tree keeps.** `[]T` and `[T]` are the same type, the comma that may follow a field leaves
no trace, and a path nests to the left.
-/

namespace TypedConfig

/-! ## Bare trees -/

mutual

/-- The type without spans. -/
def TypeExpr.bare : TypeExpr → TypeExpr
  | ⟨name, isArray, isOptional, fields, _⟩ =>
    ⟨name, isArray, isOptional, FieldDecl.bareAll fields, {}⟩

/-- The field without spans. -/
def FieldDecl.bare : FieldDecl → FieldDecl
  | ⟨name, type, _⟩ => ⟨name, type.bare, {}⟩

/-- The fields without spans. -/
def FieldDecl.bareAll : List FieldDecl → List FieldDecl
  | [] => []
  | f :: fs => f.bare :: FieldDecl.bareAll fs

end

mutual

/-- The expression without spans. -/
def Expr.bare : Expr → Expr
  | .name name _ => .name name {}
  | .literal l _ => .literal l {}
  | .object fields _ => .object (FieldInit.bareAll fields) {}
  | .call callee arguments _ => .call callee.bare (Expr.bareAll arguments) {}
  | .member value name _ => .member value.bare name {}

/-- The expressions without spans. -/
def Expr.bareAll : List Expr → List Expr
  | [] => []
  | e :: es => e.bare :: Expr.bareAll es

/-- The field without spans. -/
def FieldInit.bare : FieldInit → FieldInit
  | ⟨name, value, _⟩ => ⟨name, value.bare, {}⟩

/-- The fields without spans. -/
def FieldInit.bareAll : List FieldInit → List FieldInit
  | [] => []
  | f :: fs => f.bare :: FieldInit.bareAll fs

end

mutual

/-- The statement without spans. -/
def Stmt.bare : Stmt → Stmt
  | .scope name body _ _ => .scope name (Stmt.bareAll body) {} {}
  | .typedef name type _ => .typedef name type.bare {}
  | .binding name type value _ => .binding name type.bare (value.map Expr.bare) {}
  | .effect expr _ => .effect expr.bare {}

/-- The statements without spans. -/
def Stmt.bareAll : List Stmt → List Stmt
  | [] => []
  | s :: ss => s.bare :: Stmt.bareAll ss

end

lemma FieldDecl.bareAll_eq_map : ∀ fs : List FieldDecl, bareAll fs = fs.map bare :=
  eq_map_of_cons rfl fun _ _ => rfl

lemma Expr.bareAll_eq_map : ∀ es : List Expr, bareAll es = es.map bare :=
  eq_map_of_cons rfl fun _ _ => rfl

lemma FieldInit.bareAll_eq_map : ∀ fs : List FieldInit, bareAll fs = fs.map bare :=
  eq_map_of_cons rfl fun _ _ => rfl

lemma Stmt.bareAll_eq_map : ∀ ss : List Stmt, bareAll ss = ss.map bare :=
  eq_map_of_cons rfl fun _ _ => rfl

namespace Grammar

/-! ## Phrases -/

/-- Tokens that begin with a construct, its tree, and the tokens behind it. -/
abbrev Phrase (α : Type) := List TokenKind → α → List TokenKind → Prop

/-- Phrases of one kind, one after the other. -/
inductive Items {α : Type} (P : Phrase α) : Phrase (List α)
  | nil {ks} : Items P ks [] ks
  | cons {ks rest rest' x xs} : P ks x rest → Items P rest xs rest' → Items P ks (x :: xs) rest'

/-- A comma that may be there. -/
inductive Comma : List TokenKind → List TokenKind → Prop
  | absent {ks} : Comma ks ks
  | present {ks} : Comma (.symbol .comma :: ks) ks

/-! ## Types -/

/-- The name of a type, `IDENT`, or of what an array has, `[] IDENT` or `[ IDENT ]`. -/
inductive TypeName : Phrase (Bool × String)
  | plain {name rest} : TypeName (.name name :: rest) (false, name) rest
  | array {name rest} : TypeName
      (.symbol .openBracket :: .symbol .closeBracket :: .name name :: rest) (true, name) rest
  | bracketed {name rest} : TypeName
      (.symbol .openBracket :: .name name :: .symbol .closeBracket :: rest) (true, name) rest

/-- A type that is no shape, with or without `?`. -/
inductive PlainType : Phrase TypeExpr
  | required {ks rest name isArray} : name ≠ objectName → TypeName ks (isArray, name) rest →
      PlainType ks ⟨name, isArray, false, [], {}⟩ rest
  | optional {ks rest name isArray} : name ≠ objectName →
      TypeName ks (isArray, name) (.symbol .question :: rest) →
      PlainType ks ⟨name, isArray, true, [], {}⟩ rest

/-- A field of a shape: `IDENT : type ,?`. -/
inductive ShapeField : Phrase FieldDecl
  | mk {ks rest rest' name t} : PlainType ks t rest → Comma rest rest' →
      ShapeField (.name name :: .symbol .colon :: ks) ⟨name, t, {}⟩ rest'

/-- What may be defined as a type: a plain type, or `object { field* }`. -/
inductive DefinedType : Phrase TypeExpr
  | plain {ks rest t} : PlainType ks t rest → DefinedType ks t rest
  | object {ks rest fields} : Items ShapeField ks fields (.symbol .closeBrace :: rest) →
      DefinedType (.name objectName :: .symbol .openBrace :: ks) (.object fields {}) rest

/-! ## Values -/

/-- A path: `IDENT ( . IDENT )*`. -/
inductive Path : Phrase Expr
  | name {name rest} : Path (.name name :: rest) (.name name {}) rest
  | member {ks rest path name} : Path ks path (.symbol .dot :: .name name :: rest) →
      Path ks (.member path name {}) rest

mutual

/-- A literal, a path or, where it is allowed, `new { field* }`. -/
inductive Value : Bool → Phrase Expr
  | literal {allowsObject l rest} : Value allowsObject (.literal l :: rest) (.literal l {}) rest
  | path {allowsObject ks rest e} : Path ks e rest → Value allowsObject ks e rest
  | object {ks rest fields} : Items ObjectField ks fields (.symbol .closeBrace :: rest) →
      Value true (.keyword .newWord :: .symbol .openBrace :: ks) (.object fields {}) rest

/-- A field of a new object: `IDENT = value ,?`. -/
inductive ObjectField : Phrase FieldInit
  | mk {ks rest rest' name e} : Value true ks e rest → Comma rest rest' →
      ObjectField (.name name :: .symbol .equals :: ks) ⟨name, e, {}⟩ rest'

end

/-! ## Statements -/

/-- An argument behind another one: `, arg`. -/
inductive NextArgument : Phrase Expr
  | mk {ks rest e} : Value false ks e rest → NextArgument (.symbol .comma :: ks) e rest

/-- What follows the opening parenthesis of a call: `( arg ( , arg )* )? )`. -/
inductive Arguments : Phrase (List Expr)
  | none {rest} : Arguments (.symbol .closeParen :: rest) [] rest
  | some {ks rest rest' e es} : Value false ks e rest →
      Items NextArgument rest es (.symbol .closeParen :: rest') → Arguments ks (e :: es) rest'

/-- A scope, a type definition, a binding without or with a value, or a call. -/
inductive Statement : Phrase Stmt
  | scope {ks rest name body} : Items Statement ks body (.symbol .closeBrace :: rest) →
      Statement (.name name :: .symbol .openBrace :: ks) (.scope name body {} {}) rest
  | typedef {ks rest name t} : DefinedType ks t rest →
      Statement (.keyword .typeWord :: .name name :: .symbol .colon :: ks) (.typedef name t {}) rest
  | declaration {ks rest name t} : PlainType ks t rest →
      Statement (.keyword .letWord :: .name name :: .symbol .colon :: ks)
        (.binding name t Option.none {}) rest
  | binding {ks rest rest' name t e} : PlainType ks t (.symbol .equals :: rest) →
      Value true rest e rest' →
      Statement (.keyword .letWord :: .name name :: .symbol .colon :: ks)
        (.binding name t (Option.some e) {}) rest'
  | call {ks rest rest' callee arguments} : Path ks callee (.symbol .openParen :: rest) →
      Arguments rest arguments rest' → Statement ks (.effect (.call callee arguments {}) {}) rest'

/-- A whole program. -/
def Program (ks : List TokenKind) (ss : List Stmt) : Prop := Items Statement ks ss []

/-! ## Phrases take tokens -/

/-- Whether tokens are what is left of others behind at least one token. -/
def Behind (rest ks : List TokenKind) : Prop := ∃ k ks', ks = k :: ks' ∧ rest <:+ ks'

section

variable {ks rest rest' : List TokenKind}

lemma Behind.suffix (h : Behind rest ks) : rest <:+ ks := by
  obtain ⟨k, ks', rfl, h⟩ := h
  exact h.trans (List.suffix_cons k ks')

lemma Behind.length_lt (h : Behind rest ks) : rest.length < ks.length := by
  obtain ⟨k, ks', rfl, h⟩ := h
  exact Nat.lt_succ_of_le h.length_le

lemma Behind.cons (h : rest <:+ ks) (k : TokenKind) : Behind rest (k :: ks) := ⟨k, ks, rfl, h⟩

lemma Behind.of_suffix (h : Behind rest ks) (h' : rest' <:+ rest) : Behind rest' ks := by
  obtain ⟨k, ks', rfl, h⟩ := h
  exact .cons (h'.trans h) k

lemma Items.suffix {α : Type} {P : Phrase α} {xs : List α}
    (hP : ∀ {ks x rest}, P ks x rest → Behind rest ks) (h : Items P ks xs rest) : rest <:+ ks := by
  induction h with
  | nil => exact List.suffix_rfl
  | cons hx _ ih => exact ih.trans (hP hx).suffix

lemma Comma.suffix (h : Comma ks rest) : rest <:+ ks := by
  cases h with
  | absent => exact List.suffix_rfl
  | present => exact List.suffix_cons _ _

lemma TypeName.behind {x : Bool × String} (h : TypeName ks x rest) : Behind rest ks := by
  cases h with
  | plain => exact .cons List.suffix_rfl _
  | _ => exact .cons ((List.suffix_cons _ _).trans (List.suffix_cons _ _)) _

lemma PlainType.behind {t : TypeExpr} (h : PlainType ks t rest) : Behind rest ks := by
  cases h with
  | required _ hname => exact hname.behind
  | optional _ hname => exact hname.behind.of_suffix (List.suffix_cons _ _)

lemma ShapeField.behind {f : FieldDecl} (h : ShapeField ks f rest) : Behind rest ks := by
  cases h with
  | mk ht hcomma =>
      exact .cons ((hcomma.suffix.trans ht.behind.suffix).trans (List.suffix_cons _ _)) _

lemma DefinedType.behind {t : TypeExpr} (h : DefinedType ks t rest) : Behind rest ks := by
  cases h with
  | plain ht => exact ht.behind
  | object hfields =>
      have hsuffix := (List.suffix_cons _ _).trans (hfields.suffix ShapeField.behind)
      exact .cons (hsuffix.trans (List.suffix_cons _ _)) _

lemma Path.behind {e : Expr} (h : Path ks e rest) : Behind rest ks := by
  induction h with
  | name => exact .cons List.suffix_rfl _
  | member _ ih => exact ih.of_suffix ((List.suffix_cons _ _).trans (List.suffix_cons _ _))

end

mutual

lemma Value.behind_of_expr {allowsObject : Bool} {ks rest : List TokenKind} (e : Expr)
    (h : Value allowsObject ks e rest) : Behind rest ks := by
  match e, h with
  | .object fields _, .object hfields =>
      have hsuffix := (List.suffix_cons _ _).trans (ObjectField.suffix_of_fields fields hfields)
      exact .cons (hsuffix.trans (List.suffix_cons _ _)) _
  | .literal _ _, .literal => exact .cons List.suffix_rfl _
  | _, .path hpath => exact hpath.behind

lemma ObjectField.suffix_of_fields {ks rest : List TokenKind} (fs : List FieldInit)
    (h : Items ObjectField ks fs rest) : rest <:+ ks := by
  match fs, h with
  | [], .nil => exact List.suffix_rfl
  | ⟨_, e, _⟩ :: fs, .cons (.mk he hcomma) hfields =>
      have hsuffix := (ObjectField.suffix_of_fields fs hfields).trans hcomma.suffix
      have hvalue := (Value.behind_of_expr e he).suffix
      exact (hsuffix.trans hvalue).trans ((List.suffix_cons _ _).trans (List.suffix_cons _ _))

end

section

variable {ks rest : List TokenKind}

lemma Value.behind {allowsObject : Bool} {e : Expr} (h : Value allowsObject ks e rest) :
    Behind rest ks :=
  Value.behind_of_expr e h

lemma ObjectField.behind {f : FieldInit} (h : ObjectField ks f rest) : Behind rest ks := by
  cases h with
  | mk he hcomma =>
      exact .cons ((hcomma.suffix.trans he.behind.suffix).trans (List.suffix_cons _ _)) _

lemma NextArgument.behind {e : Expr} (h : NextArgument ks e rest) : Behind rest ks := by
  cases h with
  | mk he => exact .cons he.behind.suffix _

lemma Arguments.behind {es : List Expr} (h : Arguments ks es rest) : Behind rest ks := by
  cases h with
  | none => exact .cons List.suffix_rfl _
  | some he hes =>
      exact he.behind.of_suffix ((List.suffix_cons _ _).trans (hes.suffix NextArgument.behind))

end

mutual

lemma Statement.behind_of_stmt {ks rest : List TokenKind} (st : Stmt)
    (h : Statement ks st rest) : Behind rest ks := by
  have hcolon {ks rest : List TokenKind} (h : rest <:+ ks) (k k' k'' : TokenKind) :
      Behind rest (k :: k' :: k'' :: ks) :=
    .cons ((h.trans (List.suffix_cons k'' ks)).trans (List.suffix_cons k' (k'' :: ks))) k
  match st, h with
  | .scope _ body _ _, .scope hbody =>
      have hsuffix := (List.suffix_cons _ _).trans (Statement.suffix_of_stmts body hbody)
      exact .cons (hsuffix.trans (List.suffix_cons _ _)) _
  | _, .typedef ht => exact hcolon ht.behind.suffix _ _ _
  | _, .declaration ht => exact hcolon ht.behind.suffix _ _ _
  | _, .binding ht he =>
      have hsuffix := (List.suffix_cons _ _).trans ht.behind.suffix
      exact hcolon (he.behind.suffix.trans hsuffix) _ _ _
  | _, .call hcallee hes =>
      exact hcallee.behind.of_suffix (hes.behind.suffix.trans (List.suffix_cons _ _))

lemma Statement.suffix_of_stmts {ks rest : List TokenKind} (ss : List Stmt)
    (h : Items Statement ks ss rest) : rest <:+ ks := by
  match ss, h with
  | [], .nil => exact List.suffix_rfl
  | st :: ss, .cons hst hss =>
      exact (Statement.suffix_of_stmts ss hss).trans (Statement.behind_of_stmt st hst).suffix

end

lemma Statement.behind {ks rest : List TokenKind} {st : Stmt} (h : Statement ks st rest) :
    Behind rest ks :=
  Statement.behind_of_stmt st h

end Grammar

end TypedConfig
