import TypedConfig.Proofs.Readers

/-!
# The parser accepts nothing but programs

Whatever a parser takes from the stream is a phrase of the grammar, and the tree that it gives,
without its spans, is the tree of the phrase (`Parser.Takes`).

Each parser follows its phrase from the left to the right, so a proof puts together what the parts
of the phrase are.  Where a parser is given a bound, the proof is by induction on the bound.
-/

namespace TypedConfig.Parser

open Grammar

variable {α : Type} {s t : TokenStream}

/-- Whether a parser takes nothing but phrases of a kind, and gives their trees. -/
def Takes (p : Parser α) (bare : α → α) (P : Phrase α) : Prop :=
  ∀ {s t : TokenStream} {x : α}, p s = .ok x t → P s.kinds (bare x) t.kinds

/-! ## Items -/

lemma comma_past (s : TokenStream) : Comma s.kinds (s.past (.symbol .comma)).kinds := by
  rw [TokenStream.past]
  split <;> rename_i h
  · rw [TokenStream.kinds_of_kind h (by decide)]
    exact .present
  · exact .absent

/-- Items are taken up to the closing brace. -/
lemma takes_itemsToBrace {item : Parser α} {bare : α → α} {P : Phrase α}
    (hitem : item.Takes bare P) {n : Nat} {xs : List α} (h : itemsToBrace item n s = .ok xs t) :
    Items P s.kinds (xs.map bare) (.symbol .closeBrace :: t.kinds) := by
  induction n generalizing s xs with
  | zero => exact (fail_ok.mp h).elim
  | succ n ih =>
      rcases itemsToBrace_ok.mp h with ⟨hbrace, rfl, rfl⟩ | ⟨-, -, x, u, ys, hx, hys, rfl⟩
      · rw [TokenStream.kinds_of_kind hbrace nofun]
        exact .nil
      · exact .cons (hitem hx) (ih hys)

lemma takes_braced {item : Parser α} {bare : α → α} {P : Phrase α} (hitem : item.Takes bare P)
    {xs : List α} (h : braced item s = .ok xs t) :
    ∃ ks, s.kinds = .symbol .openBrace :: ks ∧
      Items P ks (xs.map bare) (.symbol .closeBrace :: t.kinds) := by
  obtain ⟨hbrace, hitems⟩ := braced_ok.mp h
  exact ⟨_, TokenStream.kinds_of_kind hbrace nofun, takes_itemsToBrace hitem hitems⟩

/-! ## Types -/

lemma takes_arrayAndName : arrayAndName.Takes id TypeName := by
  intro s t x h
  rcases arrayAndName_ok.mp h with ⟨hopen, hclose, n, hname, rfl, rfl⟩ |
    ⟨hopen, hclose, n, hname, rfl, rfl⟩ | ⟨n, hname, rfl, rfl⟩
  · rw [TokenStream.kinds_of_kind hopen nofun, TokenStream.kinds_of_kind hclose nofun,
      TokenStream.kinds_of_kind hname nofun]
    exact .array
  · rw [TokenStream.kinds_of_kind hopen nofun, TokenStream.kinds_of_kind hname nofun,
      TokenStream.kinds_of_kind hclose nofun]
    exact .bracketed
  · rw [TokenStream.kinds_of_kind hname nofun]
    exact .plain

lemma takes_fieldDecl {type : Parser TypeExpr} (htype : type.Takes TypeExpr.bare PlainType) :
    (fieldDecl type).Takes FieldDecl.bare ShapeField := by
  intro s t f h
  obtain ⟨n, x, u, hname, hcolon, hx, rfl, rfl⟩ := fieldDecl_ok.mp h
  rw [TokenStream.kinds_of_kind hname nofun, TokenStream.kinds_of_kind hcolon nofun]
  exact .mk (htype hx) (comma_past u)

/-- What the next token says is read, or it is not there. -/
lemma takes_question {isArray : Bool} {n : String} {u : TokenStream} (hn : n ≠ objectName)
    (h : TypeName s.kinds (isArray, n) u.kinds) :
    PlainType s.kinds ⟨n, isArray, decide (u.kind = .symbol .question), [], {}⟩
      (u.past (.symbol .question)).kinds := by
  rw [TokenStream.past]
  split <;> rename_i hquestion
  · rw [TokenStream.kinds_of_kind hquestion (by decide)] at h
    rw [decide_eq_true hquestion]
    exact .optional hn h
  · rw [decide_eq_false hquestion]
    exact .required hn h

/-- A type is plain if it is not a shape, and a shape may be defined as a type unless it stands in
an array. -/
lemma takes_typeWithin {depth : Nat} {x : TypeExpr} (h : typeWithin depth s = .ok x t) :
    (x.isObject = false → PlainType s.kinds x.bare t.kinds) ∧
      ((x.isObject && x.isArray) = false → DefinedType s.kinds x.bare t.kinds) := by
  induction depth generalizing s t x with
  | zero => exact (fail_ok.mp h).elim
  | succ depth ih =>
      have hplain : (notObject (typeWithin depth)).Takes TypeExpr.bare PlainType := by
        intro s t x h
        obtain ⟨hx, hobject⟩ := notObject_ok.mp h
        exact (ih hx).1 hobject
      obtain ⟨isArray, n, u, hname, h⟩ := typeWithin_ok.mp h
      replace hname := takes_arrayAndName hname
      rcases h with ⟨rfl, fields, hfields, -, rfl⟩ | ⟨hn, rfl, rfl⟩
      · obtain ⟨ks, hks, hitems⟩ := takes_braced (takes_fieldDecl hplain) hfields
        refine ⟨nofun, fun harray => ?_⟩
        obtain rfl : isArray = false := harray
        rw [hks] at hname
        generalize s.kinds = ks₀ at hname
        cases hname
        rw [TypeExpr.bare, FieldDecl.bareAll_eq_map]
        exact .object hitems
      · have hname := takes_question hn hname
        exact ⟨fun _ => hname, fun _ => .plain hname⟩

lemma takes_plainType : (notObject anyType).Takes TypeExpr.bare PlainType := by
  intro s t x h
  obtain ⟨hx, hobject⟩ := notObject_ok.mp h
  exact (takes_typeWithin hx).1 hobject

lemma takes_typedefType : typedefType.Takes TypeExpr.bare DefinedType := by
  intro s t x h
  obtain ⟨hx, hobject⟩ := typedefType_ok.mp h
  exact (takes_typeWithin hx).2 hobject

/-! ## Values -/

/-- Members are taken as long as there are any; the path before them grows to the left. -/
lemma takes_members {ks : List TokenKind} {start : Span} {path e : Expr} {n : Nat}
    (hpath : Path ks path.bare s.kinds) (h : members start path n s = .ok e t) :
    Path ks e.bare t.kinds := by
  induction n generalizing s path with
  | zero =>
      obtain ⟨rfl, rfl⟩ := pure_ok.mp h
      exact hpath
  | succ n ih =>
      rcases members_ok.mp h with ⟨hdot, m, hname, h⟩ | ⟨-, rfl, rfl⟩
      · rw [TokenStream.kinds_of_kind hdot nofun, TokenStream.kinds_of_kind hname nofun] at hpath
        refine ih ?_ h
        exact .member hpath
      · exact hpath

lemma takes_path : path.Takes Expr.bare Path := by
  intro s t e h
  obtain ⟨n, hname, h⟩ := path_ok.mp h
  refine takes_members ?_ h
  rw [TokenStream.kinds_of_kind hname nofun]
  exact .name

lemma takes_fieldInit {value : Parser Expr} (hvalue : value.Takes Expr.bare (Value true)) :
    (fieldInit value).Takes FieldInit.bare ObjectField := by
  intro s t f h
  obtain ⟨n, e, u, hname, hequals, he, rfl, rfl⟩ := fieldInit_ok.mp h
  rw [TokenStream.kinds_of_kind hname nofun, TokenStream.kinds_of_kind hequals nofun]
  exact .mk (hvalue he) (comma_past u)

lemma takes_valueWithin (allowsObject : Bool) (depth : Nat) :
    (valueWithin allowsObject depth).Takes Expr.bare (Value allowsObject) := by
  induction depth generalizing allowsObject with
  | zero => exact fun h => (fail_ok.mp h).elim
  | succ depth ih =>
      intro s t e h
      obtain ⟨⟨l, hliteral, rfl, rfl⟩ | ⟨hnew, rfl, fields, hfields, rfl⟩ | hpath, -⟩ :=
        valueWithin_ok.mp h
      · rw [TokenStream.kinds_of_kind hliteral nofun]
        exact .literal
      · obtain ⟨ks, hks, hitems⟩ := takes_braced (takes_fieldInit (ih true)) hfields
        rw [TokenStream.kinds_of_kind hnew nofun, hks, Expr.bare, FieldInit.bareAll_eq_map]
        exact .object hitems
      · exact .path (takes_path hpath)

lemma takes_value (allowsObject : Bool) :
    (value allowsObject).Takes Expr.bare (Value allowsObject) :=
  fun h => takes_valueWithin allowsObject _ h

/-! ## Statements -/

lemma takes_itemsAfterComma {n : Nat} {es : List Expr}
    (h : itemsAfterComma (value false) n s = .ok es t) :
    Items NextArgument s.kinds (es.map Expr.bare) t.kinds := by
  induction n generalizing s es with
  | zero =>
      obtain ⟨rfl, rfl⟩ := pure_ok.mp h
      exact .nil
  | succ n ih =>
      rcases itemsAfterComma_ok.mp h with ⟨hcomma, e, u, rest, he, hrest, rfl⟩ | ⟨-, rfl, rfl⟩
      · rw [TokenStream.kinds_of_kind hcomma nofun]
        exact .cons (.mk (takes_value false he)) (ih hrest)
      · exact .nil

lemma takes_arguments {es : List Expr} (h : arguments s = .ok es t) :
    ∃ ks, s.kinds = .symbol .openParen :: ks ∧ Arguments ks (es.map Expr.bare) t.kinds := by
  obtain ⟨hopen, ⟨hclose, rfl, rfl⟩ | ⟨-, u, hes, hclose, rfl⟩⟩ := arguments_ok.mp h
  · refine ⟨_, TokenStream.kinds_of_kind hopen nofun, ?_⟩
    rw [TokenStream.kinds_of_kind hclose nofun]
    exact .none
  · obtain ⟨e, v, rest, he, hrest, rfl⟩ := commaSeparated_ok.mp hes
    refine ⟨_, TokenStream.kinds_of_kind hopen nofun, ?_⟩
    have hnext := takes_itemsAfterComma hrest
    rw [TokenStream.kinds_of_kind hclose nofun] at hnext
    exact .some (takes_value false he) hnext

lemma takes_call : call.Takes Stmt.bare Statement := by
  intro s t st h
  obtain ⟨callee, u, es, hcallee, hes, rfl⟩ := call_ok.mp h
  obtain ⟨ks, hks, harguments⟩ := takes_arguments hes
  have hpath := takes_path hcallee
  rw [hks] at hpath
  rw [Stmt.bare, Expr.bare, Expr.bareAll_eq_map]
  exact .call hpath harguments

lemma takes_typedef : typedef.Takes Stmt.bare Statement := by
  intro s t st h
  obtain ⟨htype, n, hname, hcolon, x, hx, rfl⟩ := typedef_ok.mp h
  rw [TokenStream.kinds_of_kind htype nofun, TokenStream.kinds_of_kind hname nofun,
    TokenStream.kinds_of_kind hcolon nofun]
  exact .typedef (takes_typedefType hx)

lemma takes_binding : binding.Takes Stmt.bare Statement := by
  intro s t st h
  obtain ⟨hlet, n, hname, hcolon, x, u, hx, h⟩ := binding_ok.mp h
  rw [TokenStream.kinds_of_kind hlet nofun, TokenStream.kinds_of_kind hname nofun,
    TokenStream.kinds_of_kind hcolon nofun]
  have htype := takes_plainType hx
  rcases h with ⟨hequals, e, he, rfl⟩ | ⟨-, rfl, rfl⟩
  · rw [TokenStream.kinds_of_kind hequals nofun] at htype
    exact .binding htype (takes_value true he)
  · exact .declaration htype

lemma takes_statementWithin (depth : Nat) :
    (statementWithin depth).Takes Stmt.bare Statement := by
  induction depth with
  | zero => exact fun h => (fail_ok.mp h).elim
  | succ depth ih =>
      intro s t st h
      rcases statementWithin_ok.mp h with h | h | ⟨n, body, hname, -, hbody, rfl⟩ | ⟨-, h⟩
      · exact takes_typedef h
      · exact takes_binding h
      · obtain ⟨ks, hks, hitems⟩ := takes_braced ih hbody
        rw [TokenStream.kinds_of_kind hname nofun, hks, Stmt.bare, Stmt.bareAll_eq_map]
        exact .scope hitems
      · exact takes_call h

/-- Statements are taken up to the end of the input: the bound is never reached before. -/
lemma takes_statements {n : Nat} {ss : List Stmt} (hn : s.kinds.length ≤ n)
    (h : statements n s = .ok ss t) :
    Items Statement s.kinds (ss.map Stmt.bare) t.kinds ∧ t.kind = .endOfInput := by
  induction n generalizing s ss with
  | zero =>
      obtain ⟨rfl, rfl⟩ := pure_ok.mp h
      have hnil : s.kinds = [] := List.eq_nil_of_length_eq_zero (by omega)
      refine ⟨.nil, ?_⟩
      rw [TokenStream.kind_eq, hnil]
      rfl
  | succ n ih =>
      rcases statements_ok.mp h with ⟨hend, rfl, rfl⟩ | ⟨-, st, u, rest, hst, hrest, rfl⟩
      · exact ⟨.nil, hend⟩
      · have hstatement := takes_statementWithin _ hst
        have hshorter := hstatement.behind.length_lt
        obtain ⟨hitems, hend⟩ := ih (by omega) hrest
        exact ⟨.cons hstatement hitems, hend⟩

end TypedConfig.Parser
