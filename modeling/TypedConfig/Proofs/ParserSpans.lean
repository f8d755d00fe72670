import TypedConfig.Proofs.Readers
import TypedConfig.Proofs.Spelling

/-!
# Where nodes stand

Whatever the parser gives is spelled by the tokens that it takes (`Parser.Spells`): it gives every
node the place from the first of its tokens to the last one, and the parts of a node are made of
tokens of the node, one behind the other.

**Tokens in order.** The place of a call begins with the place of its path instead of its first
token.  That makes no difference where tokens stand in the order in which they are read, as they do
when they come from a text; so this is assumed of the stream.
-/

namespace TypedConfig

/-! ## Taken tokens -/

/-- Whether a stream is what another one is behind the given tokens. -/
structure TokenStream.Took (s : TokenStream) (ts : List Token) (t : TokenStream) : Prop where
  rest : s.rest = ts ++ t.rest
  stop : t.stop = s.stop
  last : t.last = (ts.getLast?.map (·.span)).getD s.last

namespace TokenStream

variable {s t u : TokenStream} {ts us : List Token}

namespace Took

lemma refl (s : TokenStream) : s.Took [] s := ⟨rfl, rfl, rfl⟩

lemma trans (h : s.Took ts t) (h' : t.Took us u) : s.Took (ts ++ us) u := by
  refine ⟨?_, h'.stop.trans h.stop, ?_⟩
  · rw [h.rest, h'.rest, List.append_assoc]
  · rw [h'.last, h.last, List.getLast?_append]
    cases us.getLast? <;> rfl

lemma last_eq (h : s.Took ts t) (hts : ts ≠ []) : t.last = (ts.getLast hts).span := by
  rw [h.last, List.getLast?_eq_some_getLast hts]
  rfl

/-- What is left of tokens in order is in order, and so are the tokens that have been taken. -/
lemma inOrder (h : s.Took ts t) (hs : InOrder s.rest) : InOrder ts ∧ InOrder t.rest := by
  rw [h.rest] at hs
  exact ⟨hs.left, hs.right⟩

/-- The place from where the stream has stood to the last token taken is the cover of the tokens. -/
lemma merge (h : s.Took ts t) (hts : ts ≠ []) : s.span.merge t.last = coverOf ts := by
  have hspan : s.span = (ts.head hts).span := by
    obtain ⟨a, ts, rfl⟩ := List.exists_cons_of_ne_nil hts
    rw [span, h.rest]
    rfl
  rw [h.last_eq hts, hspan, coverOf_eq hts]

/-- For tokens in order this is their extent. -/
lemma extent (h : s.Took ts t) (hs : InOrder s.rest) (hts : ts ≠ []) :
    s.span.merge t.last = TypedConfig.extent ts := by
  rw [(h.inOrder hs).1.extent_eq, h.merge hts]

end Took

lemma inOrder_tail (hs : InOrder s.rest) : InOrder s.tail.rest := by
  obtain ⟨_ | ⟨token, rest⟩, stop, last⟩ := s
  · exact hs
  · exact (List.pairwise_cons.mp hs).2

/-- The next token may be taken if it is not the end of the input. -/
lemma took_kind {k : TokenKind} (h : s.kind = k) (hk : k ≠ .endOfInput) :
    s.Took [⟨k, s.span⟩] s.tail := by
  obtain ⟨_ | ⟨⟨kind, span⟩, rest⟩, stop, last⟩ := s
  · exact absurd h.symm hk
  · obtain rfl : kind = k := h
    exact ⟨rfl, rfl, rfl⟩

lemma took_comma (s : TokenStream) : ∃ cs, s.Took cs (s.past (.symbol .comma)) ∧ MaybeComma cs := by
  rw [past]
  split
  · rename_i hcomma
    exact ⟨_, took_kind hcomma (by simp), .present⟩
  · exact ⟨[], .refl s, .absent⟩

end TokenStream

namespace Parser

open Outline (CutFrom)

variable {α : Type} {s t u : TokenStream}

/-- Whether a parser gives what the tokens that it takes spell, when these stand in order. -/
def Spells (p : Parser α) (P : α → List Token → Prop) : Prop :=
  ∀ {s t : TokenStream} {x : α}, InOrder s.rest → p s = .ok x t → ∃ ts, s.Took ts t ∧ P x ts

/-- Whether the outlines of what a parser gives are cut from the tokens that it takes, when these
stand in order. -/
def Cuts (p : Parser α) (outlines : α → List Outline) : Prop :=
  ∀ {s t : TokenStream} {x : α}, InOrder s.rest → p s = .ok x t →
    ∃ ts, s.Took ts t ∧ CutFrom ts (outlines x)

/-! ## Items -/

section

variable {item : Parser α} {P : α → List Token → Prop}

lemma spells_itemsToBrace (hitem : item.Spells P) (n : Nat) :
    (itemsToBrace item n).Spells fun xs us =>
      ∃ ts s, us = ts ++ [⟨.symbol .closeBrace, s⟩] ∧ InTurn P xs ts := by
  induction n with
  | zero => exact fun _ h => (fail_ok.mp h).elim
  | succ n ih =>
      intro s t xs hs h
      rcases itemsToBrace_ok.mp h with ⟨hbrace, rfl, rfl⟩ | ⟨-, -, x, u, ys, hx, hys, rfl⟩
      · exact ⟨_, TokenStream.took_kind hbrace nofun, [], _, rfl, .nil⟩
      · obtain ⟨ts, htook, hspelled⟩ := hitem hs hx
        obtain ⟨_, htook', us, s', rfl, hitems⟩ := ih (htook.inOrder hs).2 hys
        exact ⟨_, htook.trans htook', ts ++ us, s', (List.append_assoc ..).symm,
          .cons hspelled hitems⟩

lemma spells_braced (hitem : item.Spells P) :
    (braced item).Spells fun xs us => ∃ ts s s', InTurn P xs ts ∧
      us = ⟨.symbol .openBrace, s⟩ :: (ts ++ [⟨.symbol .closeBrace, s'⟩]) := by
  intro s t xs hs h
  obtain ⟨hbrace, hitems⟩ := braced_ok.mp h
  have hopen := TokenStream.took_kind hbrace nofun
  obtain ⟨_, htook, ts, s', rfl, hspelled⟩ :=
    spells_itemsToBrace hitem _ (hopen.inOrder hs).2 hitems
  exact ⟨_, hopen.trans htook, ts, s.span, s', hspelled, rfl⟩

/-- Behind an item, tokens go on with what has been read so far. -/
lemma spells_itemsAfterComma (hitem : item.Spells P) (n : Nat) :
    (itemsAfterComma item n).Spells fun xs us =>
      ∀ {x ts}, P x ts → BetweenCommas P (x :: xs) (ts ++ us) := by
  have hnone {s : TokenStream} : ∃ us, s.Took us s ∧
      ∀ {x ts}, P x ts → BetweenCommas P [x] (ts ++ us) := by
    refine ⟨[], .refl s, fun {x ts} hx => ?_⟩
    rw [List.append_nil]
    exact .one hx
  induction n with
  | zero =>
      intro s t xs _ h
      obtain ⟨rfl, rfl⟩ := pure_ok.mp h
      exact hnone
  | succ n ih =>
      intro s t xs hs h
      rcases itemsAfterComma_ok.mp h with ⟨hcomma, x, u, ys, hx, hys, rfl⟩ | ⟨-, rfl, rfl⟩
      · have hfirst := TokenStream.took_kind hcomma nofun
        obtain ⟨ts, htook, hspelled⟩ := hitem (hfirst.inOrder hs).2 hx
        have htook := hfirst.trans htook
        obtain ⟨us, htook', hitems⟩ := ih (htook.inOrder hs).2 hys
        exact ⟨_, htook.trans htook', fun hx' => .cons hx' (hitems hspelled)⟩
      · exact hnone

lemma spells_commaSeparated (hitem : item.Spells P) :
    (commaSeparated item).Spells (BetweenCommas P) := by
  intro s t xs hs h
  obtain ⟨x, u, ys, hx, hys, rfl⟩ := commaSeparated_ok.mp h
  obtain ⟨ts, htook, hspelled⟩ := hitem hs hx
  obtain ⟨us, htook', hitems⟩ := spells_itemsAfterComma hitem _ (htook.inOrder hs).2 hys
  exact ⟨_, htook.trans htook', hitems hspelled⟩

end

/-- A field is a name, some symbol and what the field has; the comma behind it does not belong
to it. -/
lemma took_field {n : String} {k : TokenKind} {ts : List Token} (hs : InOrder s.rest)
    (hname : s.kind = .name n) (hk : s.tail.kind = k) (hend : k ≠ .endOfInput)
    (htook : s.tail.tail.Took ts u) :
    ∃ us cs s' s'', us = ⟨.name n, s'⟩ :: ⟨k, s''⟩ :: ts ∧
      s.Took (us ++ cs) (u.past (.symbol .comma)) ∧ MaybeComma cs ∧
      s.span.merge u.last = extent us := by
  have hhead := (TokenStream.took_kind hname nofun).trans (TokenStream.took_kind hk hend)
  have hfield := hhead.trans htook
  obtain ⟨cs, hcs, hcomma⟩ := u.took_comma
  exact ⟨_, cs, _, _, rfl, hfield.trans hcs, hcomma, hfield.extent hs (List.cons_ne_nil _ _)⟩

/-! ## Types -/

lemma spells_arrayAndName {x : Bool × String} (h : arrayAndName s = .ok x t) :
    ∃ ts, s.Took ts t ∧ SpellsName x.1 x.2 ts := by
  rcases arrayAndName_ok.mp h with ⟨hopen, hclose, n, hname, rfl, rfl⟩ |
    ⟨hopen, hclose, n, hname, rfl, rfl⟩ | ⟨n, hname, rfl, rfl⟩
  · exact ⟨_, ((TokenStream.took_kind hopen nofun).trans (TokenStream.took_kind hclose nofun)).trans
      (TokenStream.took_kind hname nofun), .array⟩
  · exact ⟨_, ((TokenStream.took_kind hopen nofun).trans (TokenStream.took_kind hname nofun)).trans
      (TokenStream.took_kind hclose nofun), .bracketed⟩
  · exact ⟨_, TokenStream.took_kind hname nofun, .plain⟩

lemma spells_notObject {type : Parser TypeExpr} (htype : type.Spells TypeExpr.Spelled) :
    (notObject type).Spells TypeExpr.Spelled :=
  fun hs h => htype hs (notObject_ok.mp h).1

lemma spells_fieldDecl {type : Parser TypeExpr} (htype : type.Spells TypeExpr.Spelled) :
    (fieldDecl type).Spells (WithComma FieldDecl.Spelled) := by
  intro s t f hs h
  obtain ⟨n, x, u, hname, hcolon, hx, rfl, rfl⟩ := fieldDecl_ok.mp h
  obtain ⟨ts, htook, hspelled⟩ := htype (TokenStream.inOrder_tail (TokenStream.inOrder_tail hs)) hx
  obtain ⟨us, cs, s', s'', hus, hfield, hcomma, hspan⟩ := took_field hs hname hcolon nofun htook
  rw [hspan]
  exact ⟨_, hfield, .mk (.mk hspelled hus) hcomma⟩

lemma spells_typeWithin (depth : Nat) : (typeWithin depth).Spells TypeExpr.Spelled := by
  induction depth with
  | zero => exact fun _ h => (fail_ok.mp h).elim
  | succ depth ih =>
      intro s t x hs h
      obtain ⟨isArray, n, u, hname, h⟩ := typeWithin_ok.mp h
      obtain ⟨ts, htook, hspelled⟩ := spells_arrayAndName hname
      rcases h with ⟨rfl, fields, hfields, -, rfl⟩ | ⟨hn, rfl, rfl⟩
      · obtain ⟨_, htook', fs, s', s'', hitems, rfl⟩ :=
          spells_braced (spells_fieldDecl (spells_notObject ih)) (htook.inOrder hs).2 hfields
        have htype := htook.trans htook'
        rw [htype.extent hs (by simp)]
        exact ⟨_, htype, .shape hspelled hitems.withCommas rfl⟩
      · rw [TokenStream.past]
        split
        · rename_i hquestion
          have htype := htook.trans (TokenStream.took_kind hquestion (by simp))
          rw [htype.extent hs (by simp), decide_eq_true hquestion]
          exact ⟨_, htype, .optional hn hspelled rfl⟩
        · rename_i hquestion
          rw [htook.extent hs hspelled.ne_nil, decide_eq_false hquestion]
          exact ⟨ts, htook, .required hn hspelled⟩

lemma spells_anyType : anyType.Spells TypeExpr.Spelled := fun hs h => spells_typeWithin _ hs h

lemma spells_typedefType : typedefType.Spells TypeExpr.Spelled :=
  fun hs h => spells_anyType hs (typedefType_ok.mp h).1

/-! ## Values -/

/-- A path that is read so far, from where `s₀` has stood, and the members that follow. -/
lemma spells_members {s₀ : TokenStream} {path e : Expr} {n : Nat} {ts : List Token}
    (hs : InOrder s₀.rest) (htook : s₀.Took ts s) (hpath : path.Spelled ts)
    (h : members s₀.span path n s = .ok e t) : ∃ us, s₀.Took us t ∧ e.Spelled us := by
  induction n generalizing s path ts with
  | zero =>
      obtain ⟨rfl, rfl⟩ := pure_ok.mp h
      exact ⟨ts, htook, hpath⟩
  | succ n ih =>
      rcases members_ok.mp h with ⟨hdot, m, hname, h⟩ | ⟨-, rfl, rfl⟩
      · have hmember := htook.trans
          ((TokenStream.took_kind hdot nofun).trans (TokenStream.took_kind hname nofun))
        rw [hmember.extent hs (by simp)] at h
        exact ih hmember (.member hpath rfl) h
      · exact ⟨ts, htook, hpath⟩

lemma spells_path : path.Spells Expr.Spelled := by
  intro s t e hs h
  obtain ⟨n, hname, h⟩ := path_ok.mp h
  exact spells_members hs (TokenStream.took_kind hname nofun) .name h

lemma spells_fieldInit {value : Parser Expr} (hvalue : value.Spells Expr.Spelled) :
    (fieldInit value).Spells (WithComma FieldInit.Spelled) := by
  intro s t f hs h
  obtain ⟨n, e, u, hname, hequals, he, rfl, rfl⟩ := fieldInit_ok.mp h
  obtain ⟨ts, htook, hspelled⟩ := hvalue (TokenStream.inOrder_tail (TokenStream.inOrder_tail hs)) he
  obtain ⟨us, cs, s', s'', hus, hfield, hcomma, hspan⟩ := took_field hs hname hequals nofun htook
  rw [hspan]
  exact ⟨_, hfield, .mk (.mk hspelled hus) hcomma⟩

lemma spells_valueWithin (allowsObject : Bool) (depth : Nat) :
    (valueWithin allowsObject depth).Spells Expr.Spelled := by
  induction depth generalizing allowsObject with
  | zero => exact fun _ h => (fail_ok.mp h).elim
  | succ depth ih =>
      intro s t e hs h
      obtain ⟨⟨l, hliteral, rfl, rfl⟩ | ⟨hnew, -, fields, hfields, rfl⟩ | hpath, -⟩ :=
        valueWithin_ok.mp h
      · exact ⟨_, TokenStream.took_kind hliteral nofun, .literal⟩
      · have hfirst := TokenStream.took_kind hnew nofun
        obtain ⟨_, htook, fs, s', s'', hitems, rfl⟩ :=
          spells_braced (spells_fieldInit (ih true)) (hfirst.inOrder hs).2 hfields
        have hobject := hfirst.trans htook
        rw [hobject.extent hs (List.cons_ne_nil _ _)]
        exact ⟨_, hobject, .object hitems.withCommas rfl⟩
      · exact spells_path hs hpath

lemma spells_value (allowsObject : Bool) : (value allowsObject).Spells Expr.Spelled :=
  fun hs h => spells_valueWithin allowsObject _ hs h

/-! ## Statements -/

lemma spells_arguments : arguments.Spells fun es us =>
    ∃ ts s s', BetweenCommas Expr.Spelled es ts ∧
      us = ⟨.symbol .openParen, s⟩ :: (ts ++ [⟨.symbol .closeParen, s'⟩]) := by
  intro s t es hs h
  obtain ⟨hopen, h⟩ := arguments_ok.mp h
  have hfirst := TokenStream.took_kind hopen nofun
  rcases h with ⟨hclose, rfl, rfl⟩ | ⟨-, u, hes, hclose, rfl⟩
  · exact ⟨_, hfirst.trans (TokenStream.took_kind hclose nofun), [], _, _, .nil, rfl⟩
  · obtain ⟨ts, htook, hspelled⟩ :=
      spells_commaSeparated (spells_value false) (hfirst.inOrder hs).2 hes
    exact ⟨_, hfirst.trans (htook.trans (TokenStream.took_kind hclose nofun)), ts, _, _, hspelled,
      rfl⟩

/-- The place of a call begins with that of its path, which begins with the first token. -/
lemma spells_call : call.Spells Stmt.Spelled := by
  intro s t st hs h
  obtain ⟨callee, u, es, hcallee, hes, rfl⟩ := call_ok.mp h
  obtain ⟨ts, htook, hspelled⟩ := spells_path hs hcallee
  obtain ⟨us, htook', es', s', s'', hitems, hus⟩ := spells_arguments (htook.inOrder hs).2 hes
  have hne : us ≠ [] := by simp [hus]
  have hcall := htook.trans htook'
  have horder := (hcall.inOrder hs).1
  -- the only place that is not put together from a first and a last token
  have hspan : callee.span.merge t.last = extent (ts ++ us) := by
    rw [hspelled.span_eq, horder.left.extent_eq, horder.extent_eq, htook'.last_eq hne,
      horder.merge_coverOf hspelled.ne_nil hne]
  rw [hspan, hcall.extent hs (List.append_ne_nil_of_right_ne_nil ts hne)]
  exact ⟨_, hcall, .effect (.call hspelled hitems (by rw [hus]))⟩

/-- A type definition and a binding begin with a keyword, a name and a colon. -/
lemma took_heading {w : Keyword} {n : String} (hword : s.kind = .keyword w)
    (hname : s.tail.kind = .name n) (hcolon : s.tail.tail.kind = .symbol .colon) :
    s.Took [⟨.keyword w, s.span⟩, ⟨.name n, s.tail.span⟩, ⟨.symbol .colon, s.tail.tail.span⟩]
      s.tail.tail.tail :=
  ((TokenStream.took_kind hword nofun).trans (TokenStream.took_kind hname nofun)).trans
    (TokenStream.took_kind hcolon nofun)

lemma spells_typedef : typedef.Spells Stmt.Spelled := by
  intro s t st hs h
  obtain ⟨htype, n, hname, hcolon, x, hx, rfl⟩ := typedef_ok.mp h
  have hhead := took_heading htype hname hcolon
  obtain ⟨ts, htook, hspelled⟩ := spells_typedefType (hhead.inOrder hs).2 hx
  have htypedef := hhead.trans htook
  rw [htypedef.extent hs (List.cons_ne_nil _ _)]
  exact ⟨_, htypedef, .typedef hspelled rfl⟩

lemma spells_binding : binding.Spells Stmt.Spelled := by
  intro s t st hs h
  obtain ⟨hlet, n, hname, hcolon, x, u, hx, h⟩ := binding_ok.mp h
  have hhead := took_heading hlet hname hcolon
  obtain ⟨ts, htook, hspelled⟩ := spells_notObject spells_anyType (hhead.inOrder hs).2 hx
  have htyped := hhead.trans htook
  rcases h with ⟨hequals, e, he, rfl⟩ | ⟨-, rfl, rfl⟩
  · have hequals := TokenStream.took_kind hequals nofun
    obtain ⟨us, htook', hvalue⟩ :=
      spells_value true ((htyped.trans hequals).inOrder hs).2 he
    have hbinding := hhead.trans (htook.trans (hequals.trans htook'))
    rw [hbinding.extent hs (List.cons_ne_nil _ _)]
    exact ⟨_, hbinding, .binding hspelled hvalue rfl⟩
  · rw [htyped.extent hs (List.cons_ne_nil _ _)]
    exact ⟨_, htyped, .declaration hspelled rfl⟩

lemma spells_statementWithin (depth : Nat) : (statementWithin depth).Spells Stmt.Spelled := by
  induction depth with
  | zero => exact fun _ h => (fail_ok.mp h).elim
  | succ depth ih =>
      intro s t st hs h
      rcases statementWithin_ok.mp h with h | h | ⟨n, body, hname, -, hbody, rfl⟩ | ⟨-, h⟩
      · exact spells_typedef hs h
      · exact spells_binding hs h
      · have hfirst := TokenStream.took_kind hname nofun
        have horder := (hfirst.inOrder hs).2
        obtain ⟨bs, htook, ts, s', s'', hitems, rfl⟩ := spells_braced ih horder hbody
        have hscope := hfirst.trans htook
        rw [htook.extent horder (List.cons_ne_nil _ _), hscope.extent hs (List.cons_ne_nil _ _)]
        exact ⟨_, hscope, .scope hitems rfl rfl⟩
      · exact spells_call hs h

lemma spells_statements (n : Nat) : (statements n).Spells (InTurn Stmt.Spelled) := by
  induction n with
  | zero =>
      intro s t ss _ h
      obtain ⟨rfl, rfl⟩ := pure_ok.mp h
      exact ⟨[], .refl s, .nil⟩
  | succ n ih =>
      intro s t ss hs h
      rcases statements_ok.mp h with ⟨-, rfl, rfl⟩ | ⟨-, st, u, rest, hst, hrest, rfl⟩
      · exact ⟨[], .refl s, .nil⟩
      · obtain ⟨ts, htook, hspelled⟩ := spells_statementWithin _ hs hst
        obtain ⟨us, htook', hitems⟩ := ih (htook.inOrder hs).2 hrest
        exact ⟨_, htook.trans htook', .cons hspelled hitems⟩

/-- The statements of a program are spelled by its tokens. -/
theorem spells_program : program.Spells fun b => InTurn Stmt.Spelled b.statements := by
  intro s t b hs h
  obtain ⟨ss, hss, rfl⟩ := program_ok.mp h
  exact spells_statements _ hs hss

/-- The statements of a program are cut from its tokens. -/
theorem cuts_program : program.Cuts fun b => b.statements.map Stmt.outline := by
  intro s t b hs h
  obtain ⟨ts, htook, hspelled⟩ := spells_program hs h
  have hcut := Stmt.Spelled.cutFrom_all b.statements hspelled (htook.inOrder hs).1
  rw [Stmt.outlines_eq_map] at hcut
  exact ⟨ts, htook, hcut⟩

end Parser

end TypedConfig
