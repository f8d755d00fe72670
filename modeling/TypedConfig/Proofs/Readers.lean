import TypedConfig.Proofs.Grammar

/-!
# When a parser succeeds

For each parser, one lemma says when it gives a result: what the next tokens must be, which parsers
must succeed on what is left, and what the result is made of.  Proofs about parsers follow these
lemmas and do not look into the parsers.

**Tokens without spans.** `TokenStream.kinds` is what the tokens of a stream say; nothing else of
them decides whether a parser succeeds.
-/

namespace TypedConfig

namespace TokenStream

variable {s : TokenStream} {k : TokenKind} {ks : List TokenKind}

/-- What the tokens of a stream say. -/
def kinds (s : TokenStream) : List TokenKind := s.rest.map (·.kind)

/-- The stream behind the next token if that is the given one. -/
def past (k : TokenKind) (s : TokenStream) : TokenStream := if s.kind = k then s.tail else s

lemma length_kinds (s : TokenStream) : s.kinds.length = s.rest.length := List.length_map ..

lemma kind_eq (s : TokenStream) : s.kind = s.kinds.head?.getD .endOfInput := by
  rw [kind, kinds, List.head?_map]

lemma kinds_tail (s : TokenStream) : s.tail.kinds = s.kinds.tail := by
  obtain ⟨rest, stop, last⟩ := s
  cases rest <;> rfl

lemma length_tail_le (s : TokenStream) : s.tail.rest.length ≤ s.rest.length := by
  obtain ⟨rest, stop, last⟩ := s
  cases rest with
  | nil => exact Nat.le_refl _
  | cons token rest => exact Nat.le_succ _

lemma kind_of_kinds (h : s.kinds = k :: ks) : s.kind = k := by
  rw [kind_eq, h]
  rfl

lemma tail_of_kinds (h : s.kinds = k :: ks) : s.tail.kinds = ks := by
  rw [kinds_tail, h]
  rfl

lemma kinds_of_kind (h : s.kind = k) (hk : k ≠ .endOfInput) : s.kinds = k :: s.tail.kinds := by
  rw [kind_eq] at h
  rw [kinds_tail]
  cases hs : s.kinds with
  | nil =>
      rw [hs] at h
      exact absurd h.symm hk
  | cons k' ks =>
      rw [hs] at h
      rw [show k' = k from h, List.tail_cons]

end TokenStream

namespace Parser

variable {α β : Type} {s t : TokenStream}

/-! ## Primitives -/

lemma bind_ok {x : Parser α} {f : α → Parser β} {b : β} :
    (x >>= f) s = .ok b t ↔ ∃ a u, x s = .ok a u ∧ f a u = .ok b t := by
  cases h : x s <;> simp [bind, EStateM.bind, h]

lemma pure_ok {a b : α} : (pure a : Parser α) s = .ok b t ↔ a = b ∧ s = t := by
  simp [pure, EStateM.pure]

lemma throw_ok {e : ParseError} {a : α} : (throw e : Parser α) s = .ok a t ↔ False := by
  exact iff_of_false nofun id

lemma get_bind (f : TokenStream → Parser β) : (get >>= f) s = f s s := rfl

lemma peek_bind (f : TokenKind → Parser β) : (peek >>= f) s = f s.kind s := rfl

lemma here_bind (f : Span → Parser β) : (here >>= f) s = f s.span s := rfl

lemma spanFrom_bind (start : Span) (f : Span → Parser β) :
    (spanFrom start >>= f) s = f (start.merge s.last) s := rfl

lemma advance_bind (f : Unit → Parser β) : (advance >>= f) s = f () s.tail := rfl

lemma fail_ok {fault : ParseFault} {a : α} : fail fault s = .ok a t ↔ False := by
  rw [fail, here_bind, throw_ok]

lemma unexpected_ok {expected : String} {a : α} : unexpected expected s = .ok a t ↔ False := by
  rw [unexpected, peek_bind]
  cases s.kind <;> exact fail_ok

lemma fail_bind {fault : ParseFault} {f : α → Parser β} {b : β} :
    (fail fault >>= f) s = .ok b t ↔ False := by
  simp only [bind_ok, fail_ok, false_and, exists_false]

lemma throw_bind {e : ParseError} {f : α → Parser β} {b : β} :
    (throw e >>= f) s = .ok b t ↔ False := by
  simp only [bind_ok, throw_ok, false_and, exists_false]

lemma ite_ok {c : Prop} [Decidable c] {x y : Parser α} {a : α} :
    (if c then x else y) s = .ok a t ↔ (c ∧ x s = .ok a t) ∨ (¬ c ∧ y s = .ok a t) := by
  split <;> simp [*]

lemma accept_bind {k : TokenKind} {f : Bool → Parser β} {b : β} :
    (accept k >>= f) s = .ok b t ↔
      (s.kind = k ∧ f true s.tail = .ok b t) ∨ (s.kind ≠ k ∧ f false s = .ok b t) := by
  rw [accept, bind_assoc, peek_bind]
  split <;> rename_i h <;> simp [h, advance_bind]

lemma accept_skip (k : TokenKind) (f : Parser β) : (accept k >>= fun _ => f) s = f (s.past k) := by
  rw [accept, bind_assoc, peek_bind, TokenStream.past]
  split <;> rfl

lemma expect_bind {k : TokenKind} {f : Unit → Parser β} {b : β} :
    (expect k >>= f) s = .ok b t ↔ s.kind = k ∧ f () s.tail = .ok b t := by
  rw [expect, bind_assoc, peek_bind]
  split <;> rename_i h
  · simp [advance_bind, h]
  · simp [bind_ok, unexpected_ok, h]

lemma name_bind {f : String → Parser β} {b : β} :
    (name >>= f) s = .ok b t ↔ ∃ n, s.kind = .name n ∧ f n s.tail = .ok b t := by
  rw [name, bind_assoc, peek_bind]
  cases s.kind <;> simp [bind_ok, unexpected_ok, advance_bind]

/-! ## Items -/

lemma itemsToBrace_ok {item : Parser α} {n : Nat} {xs : List α} :
    itemsToBrace item (n + 1) s = .ok xs t ↔
      (s.kind = .symbol .closeBrace ∧ [] = xs ∧ s.tail = t) ∨
      (s.kind ≠ .symbol .closeBrace ∧ s.kind ≠ .endOfInput ∧ ∃ x u ys, item s = .ok x u ∧
        itemsToBrace item n u = .ok ys t ∧ x :: ys = xs) := by
  rw [itemsToBrace, peek_bind]
  generalize s.kind = k
  split
  · simp [advance_bind, pure_ok]
  · simp [fail_ok]
  · rename_i hbrace hend
    simp only [bind_ok, pure_ok]
    constructor
    · rintro ⟨x, u, hx, ys, v, hys, hxs, rfl⟩
      exact Or.inr ⟨hbrace, hend, x, u, ys, hx, hys, hxs⟩
    · rintro (⟨h, -⟩ | ⟨-, -, x, u, ys, hx, hys, hxs⟩)
      · exact absurd h hbrace
      · exact ⟨x, u, hx, ys, t, hys, hxs, rfl⟩

lemma braced_ok {item : Parser α} {xs : List α} :
    braced item s = .ok xs t ↔ s.kind = .symbol .openBrace ∧
      itemsToBrace item (s.tail.rest.length + 1) s.tail = .ok xs t := by
  rw [braced, expect_bind]
  rfl

lemma itemsAfterComma_ok {item : Parser α} {n : Nat} {xs : List α} :
    itemsAfterComma item (n + 1) s = .ok xs t ↔
      (s.kind = .symbol .comma ∧ ∃ x u ys, item s.tail = .ok x u ∧
        itemsAfterComma item n u = .ok ys t ∧ x :: ys = xs) ∨
      (s.kind ≠ .symbol .comma ∧ [] = xs ∧ s = t) := by
  simp only [itemsAfterComma, accept_bind, if_true, Bool.false_eq_true, if_false,
    bind_ok (x := item), bind_ok (x := itemsAfterComma _ _), pure_ok]
  grind

lemma commaSeparated_ok {item : Parser α} {xs : List α} :
    commaSeparated item s = .ok xs t ↔ ∃ x u ys, item s = .ok x u ∧
      itemsAfterComma item u.rest.length u = .ok ys t ∧ x :: ys = xs := by
  rw [commaSeparated]
  simp only [bind_ok, get_bind, pure_ok]
  grind

/-! ## Types -/

lemma arrayAndName_ok {x : Bool × String} :
    arrayAndName s = .ok x t ↔
      (s.kind = .symbol .openBracket ∧ s.tail.kind = .symbol .closeBracket ∧
        ∃ n, s.tail.tail.kind = .name n ∧ (true, n) = x ∧ s.tail.tail.tail = t) ∨
      (s.kind = .symbol .openBracket ∧ s.tail.tail.kind = .symbol .closeBracket ∧
        ∃ n, s.tail.kind = .name n ∧ (true, n) = x ∧ s.tail.tail.tail = t) ∨
      ∃ n, s.kind = .name n ∧ (false, n) = x ∧ s.tail = t := by
  simp only [arrayAndName, accept_bind, if_true, Bool.false_eq_true, if_false, name_bind,
    expect_bind, pure_ok]
  grind

lemma notObject_ok {type : Parser TypeExpr} {x : TypeExpr} :
    notObject type s = .ok x t ↔ type s = .ok x t ∧ x.isObject = false := by
  simp only [notObject, bind_ok (x := type), ite_ok, throw_bind, pure_ok]
  grind

lemma fieldDecl_ok {type : Parser TypeExpr} {f : FieldDecl} :
    fieldDecl type s = .ok f t ↔ ∃ n x u, s.kind = .name n ∧ s.tail.kind = .symbol .colon ∧
      type s.tail.tail = .ok x u ∧ ⟨n, x, s.span.merge u.last⟩ = f ∧
      u.past (.symbol .comma) = t := by
  simp only [fieldDecl, here_bind, name_bind, expect_bind, bind_ok (x := type), spanFrom_bind,
    accept_skip, pure_ok]
  grind

lemma typeWithin_ok {depth : Nat} {x : TypeExpr} :
    typeWithin (depth + 1) s = .ok x t ↔ ∃ isArray n u, arrayAndName s = .ok (isArray, n) u ∧
      ((n = objectName ∧ ∃ fields,
          braced (fieldDecl (notObject (typeWithin depth))) u = .ok fields t ∧
          t.kind ≠ .symbol .question ∧ ⟨n, isArray, false, fields, s.span.merge t.last⟩ = x) ∨
        (n ≠ objectName ∧ u.past (.symbol .question) = t ∧
          ⟨n, isArray, decide (u.kind = .symbol .question), [], s.span.merge t.last⟩ = x)) := by
  simp only [typeWithin, here_bind, bind_ok (x := arrayAndName), Prod.exists]
  refine exists_congr fun isArray => exists_congr fun n => exists_congr fun u =>
    and_congr_right fun _ => ?_
  simp only [ite_ok, bind_ok (x := braced _), spanFrom_bind, peek_bind, fail_bind, accept_bind,
    pure_ok, TokenStream.past]
  by_cases hquestion : u.kind = .symbol .question <;> grind

lemma typedefType_ok {x : TypeExpr} :
    typedefType s = .ok x t ↔ anyType s = .ok x t ∧ (x.isObject && x.isArray) = false := by
  simp only [typedefType, bind_ok (x := anyType), ite_ok, throw_bind, pure_ok]
  grind

/-! ## Values -/

lemma members_ok {start : Span} {path e : Expr} {n : Nat} :
    members start path (n + 1) s = .ok e t ↔
      (s.kind = .symbol .dot ∧ ∃ m, s.tail.kind = .name m ∧
        members start (.member path m (start.merge s.tail.tail.last)) n s.tail.tail = .ok e t) ∨
      (s.kind ≠ .symbol .dot ∧ path = e ∧ s = t) := by
  simp only [members, accept_bind, if_true, Bool.false_eq_true, if_false, name_bind, spanFrom_bind,
    pure_ok]

lemma path_ok {e : Expr} :
    path s = .ok e t ↔ ∃ n, s.kind = .name n ∧
      members s.span (.name n s.span) s.tail.rest.length s.tail = .ok e t := by
  simp only [path, here_bind, name_bind, get_bind]

lemma fieldInit_ok {value : Parser Expr} {f : FieldInit} :
    fieldInit value s = .ok f t ↔ ∃ n e u, s.kind = .name n ∧ s.tail.kind = .symbol .equals ∧
      value s.tail.tail = .ok e u ∧ ⟨n, e, s.span.merge u.last⟩ = f ∧
      u.past (.symbol .comma) = t := by
  simp only [fieldInit, here_bind, name_bind, expect_bind, bind_ok (x := value), spanFrom_bind,
    accept_skip, pure_ok]
  grind

lemma valueWithin_ok {allowsObject : Bool} {depth : Nat} {e : Expr} :
    valueWithin allowsObject (depth + 1) s = .ok e t ↔
      ((∃ l, s.kind = .literal l ∧ .literal l s.span = e ∧ s.tail = t) ∨
        (s.kind = .keyword .newWord ∧ allowsObject = true ∧ ∃ fields,
          braced (fieldInit (valueWithin true depth)) s.tail = .ok fields t ∧
          .object fields (s.span.merge t.last) = e) ∨
        path s = .ok e t) ∧ t.kind ≠ .symbol .openParen := by
  simp only [valueWithin, here_bind, peek_bind, path_ok]
  cases hk : s.kind with
  | literal l =>
      simp only [advance_bind, pure_bind, peek_bind, ite_ok, fail_bind, pure_ok]
      grind
  | keyword w =>
      cases w with
      | newWord =>
          simp only [ite_ok, advance_bind, bind_ok (x := braced _), spanFrom_bind, pure_bind,
            peek_bind, fail_bind, pure_ok]
          grind
      | _ =>
          simp only [bind_ok, unexpected_ok]
          grind
  | name n =>
      simp only [bind_ok (x := path), peek_bind, ite_ok, fail_bind, pure_ok, path_ok]
      grind
  | _ =>
      simp only [bind_ok, unexpected_ok]
      grind

/-! ## Statements -/

lemma arguments_ok {es : List Expr} :
    arguments s = .ok es t ↔ s.kind = .symbol .openParen ∧
      ((s.tail.kind = .symbol .closeParen ∧ [] = es ∧ s.tail.tail = t) ∨
        (s.tail.kind ≠ .symbol .closeParen ∧ ∃ u,
          commaSeparated (value false) s.tail = .ok es u ∧ u.kind = .symbol .closeParen ∧
          u.tail = t)) := by
  simp only [arguments, expect_bind, accept_bind, if_true, Bool.false_eq_true, if_false,
    bind_ok (x := commaSeparated _), pure_ok]
  grind

lemma call_ok {st : Stmt} :
    call s = .ok st t ↔ ∃ callee u es, path s = .ok callee u ∧ arguments u = .ok es t ∧
      .effect (.call callee es (callee.span.merge t.last)) (s.span.merge t.last) = st := by
  simp only [call, here_bind, bind_ok (x := path), peek_bind, ite_ok, fail_bind,
    bind_ok (x := arguments), spanFrom_bind, pure_ok]
  grind [arguments_ok]

lemma typedef_ok {st : Stmt} :
    typedef s = .ok st t ↔ s.kind = .keyword .typeWord ∧ ∃ n, s.tail.kind = .name n ∧
      s.tail.tail.kind = .symbol .colon ∧ ∃ x, typedefType s.tail.tail.tail = .ok x t ∧
      .typedef n x (s.span.merge t.last) = st := by
  simp only [typedef, here_bind, expect_bind, name_bind, bind_ok (x := typedefType), spanFrom_bind,
    pure_ok]
  grind

lemma binding_ok {st : Stmt} :
    binding s = .ok st t ↔ s.kind = .keyword .letWord ∧ ∃ n, s.tail.kind = .name n ∧
      s.tail.tail.kind = .symbol .colon ∧ ∃ x u, notObject anyType s.tail.tail.tail = .ok x u ∧
      ((u.kind = .symbol .equals ∧ ∃ e, value true u.tail = .ok e t ∧
          .binding n x (some e) (s.span.merge t.last) = st) ∨
        (u.kind ≠ .symbol .equals ∧ u = t ∧ .binding n x none (s.span.merge t.last) = st)) := by
  simp only [binding, here_bind, expect_bind, name_bind, bind_ok (x := notObject _), accept_bind,
    if_true, Bool.false_eq_true, if_false, map_eq_pure_bind, bind_assoc, pure_bind,
    bind_ok (x := value _), spanFrom_bind, pure_ok]
  grind

lemma beginsScope_iff :
    beginsScope s = true ↔ (∃ n, s.kind = .name n) ∧ s.tail.kind = .symbol .openBrace := by
  obtain ⟨_ | ⟨⟨k, span⟩, _ | ⟨⟨k', span'⟩, ts⟩⟩, stop, last⟩ := s
  · simp [beginsScope, TokenStream.kind]
  · simp [beginsScope, TokenStream.kind, TokenStream.tail]
  · cases k <;> cases k' <;> simp [beginsScope, TokenStream.kind, TokenStream.tail]
    rename_i c
    cases c <;> simp

lemma statementWithin_ok {depth : Nat} {st : Stmt} :
    statementWithin (depth + 1) s = .ok st t ↔
      typedef s = .ok st t ∨ binding s = .ok st t ∨
      (∃ n body, s.kind = .name n ∧ s.tail.kind = .symbol .openBrace ∧
        braced (statementWithin depth) s.tail = .ok body t ∧
        .scope n body (s.tail.span.merge t.last) (s.span.merge t.last) = st) ∨
      (s.tail.kind ≠ .symbol .openBrace ∧ call s = .ok st t) := by
  simp only [statementWithin, peek_bind, typedef_ok, binding_ok, call_ok, path_ok]
  cases hk : s.kind with
  | keyword w =>
      cases w with
      | typeWord =>
          simp only [typedef_ok]
          grind
      | letWord =>
          simp only [binding_ok]
          grind
      | newWord =>
          simp only [unexpected_ok]
          grind
  | name n =>
      simp only [get_bind, ite_ok, beginsScope_iff, here_bind, name_bind, bind_ok (x := braced _),
        spanFrom_bind, pure_ok, call_ok, path_ok]
      grind
  | _ =>
      simp only [unexpected_ok]
      grind

lemma statements_ok {n : Nat} {ss : List Stmt} :
    statements (n + 1) s = .ok ss t ↔
      (s.kind = .endOfInput ∧ [] = ss ∧ s = t) ∨
      (s.kind ≠ .endOfInput ∧ ∃ st u rest, statementWithin (s.rest.length + 1) s = .ok st u ∧
        statements n u = .ok rest t ∧ st :: rest = ss) := by
  simp only [statements, peek_bind]
  generalize hk : s.kind = k
  split
  · simp [pure_ok]
  · simp only [get_bind, bind_ok (x := statementWithin _), bind_ok (x := statements _), pure_ok]
    grind

lemma program_ok {b : Block} :
    program s = .ok b t ↔ ∃ ss, statements s.rest.length s = .ok ss t ∧
      ⟨ss, s.span.merge t.span⟩ = b := by
  simp only [program, here_bind, get_bind, bind_ok (x := statements _), pure_ok]
  grind

end Parser

end TypedConfig
