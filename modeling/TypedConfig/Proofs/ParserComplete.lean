import TypedConfig.Proofs.ParserSound

/-!
# The parser accepts every program

Where a phrase of the grammar comes next, the parser finds it and takes exactly its tokens, unless
the tokens behind it could still belong to it (`Parser.Finds`).  With soundness this says that the
parser accepts a list of tokens if and only if the grammar derives it, and gives the tree of the
derivation (`parseTokens_iff_program`).

**What follows.** A path ends before anything but a dot, a type before anything but a question mark
and a value before anything but a dot and a parenthesis.  Fields and statements end before the next
one and before a closing brace (`Resumes`).

**Bounds.** A phrase takes tokens, so a bound that is as large as the number of tokens is never
reached.

**No tree but one.** The parser gives one tree, so the grammar derives one at most.
-/

namespace TypedConfig

namespace Grammar

/-! ## How phrases begin -/

/-- Whether tokens begin with a name or a keyword, as fields and statements do. -/
inductive Starts : List TokenKind → Prop
  | name {name ks} : Starts (.name name :: ks)
  | keyword {word ks} : Starts (.keyword word :: ks)

/-- Whether nothing follows, a closing brace, or another field or statement. -/
inductive Resumes : List TokenKind → Prop
  | nil : Resumes []
  | brace {ks} : Resumes (.symbol .closeBrace :: ks)
  | item {ks} : Starts ks → Resumes ks

variable {ks rest : List TokenKind}

lemma Resumes.head_ne {c : Symbol} (h : Resumes ks) (hc : c ≠ .closeBrace) :
    ks.head? ≠ some (.symbol c) := by
  rintro heq
  cases h with
  | nil => cases heq
  | brace => exact hc (by cases heq; rfl)
  | item h => cases h <;> cases heq

lemma Path.starts {e : Expr} (h : Path ks e rest) : Starts ks := by
  induction h with
  | name => exact .name
  | member _ ih => exact ih

/-- Behind the first name of a path comes a dot, or what follows the path. -/
lemma Path.second {e : Expr} (h : Path ks e rest) :
    ∃ n ks', ks = .name n :: ks' ∧ (ks' = rest ∨ ks'.head? = some (.symbol .dot)) := by
  induction h with
  | name => exact ⟨_, _, rfl, Or.inl rfl⟩
  | member _ ih =>
      obtain ⟨n, ks', rfl, rfl | hdot⟩ := ih
      · exact ⟨n, _, rfl, Or.inr rfl⟩
      · exact ⟨n, ks', rfl, Or.inr hdot⟩

lemma Value.head_ne {allowsObject : Bool} {e : Expr} (h : Value allowsObject ks e rest)
    (c : Symbol) : ks.head? ≠ some (.symbol c) := by
  cases h with
  | literal => exact nofun
  | object => exact nofun
  | path hpath => cases hpath.starts <;> exact nofun

lemma ShapeField.starts {f : FieldDecl} (h : ShapeField ks f rest) : Starts ks := by
  cases h
  exact .name

lemma ObjectField.starts {f : FieldInit} (h : ObjectField ks f rest) : Starts ks := by
  cases h
  exact .name

lemma Statement.starts {st : Stmt} (h : Statement ks st rest) : Starts ks := by
  cases h with
  | call hcallee _ => exact hcallee.starts
  | scope _ => exact .name
  | _ => exact .keyword

lemma Items.resumes {α : Type} {P : Phrase α} {xs : List α}
    (hP : ∀ {ks x rest}, P ks x rest → Starts ks) (h : Items P ks xs rest) (hrest : Resumes rest) :
    Resumes ks := by
  cases h with
  | nil => exact hrest
  | cons hx _ => exact .item (hP hx)

/-- Behind an argument comes a comma or the closing parenthesis. -/
lemma Items.endsArgument {es : List Expr}
    (h : Items NextArgument ks es (.symbol .closeParen :: rest)) :
    ks.head? ≠ some (.symbol .dot) ∧ ks.head? ≠ some (.symbol .openParen) := by
  cases h with
  | nil => exact ⟨nofun, nofun⟩
  | cons hx _ =>
      cases hx
      exact ⟨nofun, nofun⟩

lemma PlainType.isObject {t : TypeExpr} (h : PlainType ks t rest) : t.isObject = false := by
  cases h with
  | required hn _ => exact decide_eq_false hn
  | optional hn _ => exact decide_eq_false hn

lemma DefinedType.no_array {t : TypeExpr} (h : DefinedType ks t rest) :
    (t.isObject && t.isArray) = false := by
  cases h with
  | plain ht => rw [ht.isObject, Bool.false_and]
  | object => rfl

/-- The comma behind a field is no question mark, and neither is what comes behind the field. -/
lemma Comma.head_ne (h : Comma ks rest) (hrest : Resumes rest) {c : Symbol} (hc : c ≠ .comma)
    (hbrace : c ≠ .closeBrace) : ks.head? ≠ some (.symbol c) := by
  cases h with
  | absent => exact hrest.head_ne hbrace
  | present =>
      rintro ⟨⟩
      exact hc rfl

end Grammar

lemma TypeExpr.isObject_bare (t : TypeExpr) : t.bare.isObject = t.isObject := by
  cases t
  rfl

lemma TypeExpr.isArray_bare (t : TypeExpr) : t.bare.isArray = t.isArray := by
  cases t
  rfl

lemma TokenStream.kind_ne {s : TokenStream} {c : Symbol}
    (h : s.kinds.head? ≠ some (.symbol c)) : s.kind ≠ .symbol c := by
  intro hkind
  rw [TokenStream.kinds_of_kind hkind nofun] at h
  exact h rfl

namespace Parser

open Grammar TokenStream

variable {α : Type} {s : TokenStream}

/-- Whether a parser finds the phrases of a kind that begin where the stream is, if they are
followed as they should be. -/
def Finds (p : Parser α) (bare : α → α) (P : Phrase α) (Follow : List TokenKind → Prop)
    (s : TokenStream) : Prop :=
  ∀ {y : α} {rest : List TokenKind}, P s.kinds y rest → Follow rest →
    ∃ x t, p s = .ok x t ∧ t.kinds = rest ∧ bare x = y

/-! ## Items -/

lemma kinds_past_comma {rest : List TokenKind} (h : Comma s.kinds rest) (hrest : Resumes rest) :
    (s.past (.symbol .comma)).kinds = rest := by
  generalize hs : s.kinds = ks at h
  cases h with
  | absent =>
      have hcomma := kind_ne (hs.symm ▸ hrest.head_ne (c := .comma) nofun)
      rw [past, if_neg hcomma, hs]
  | present => rw [past, if_pos (kind_of_kinds hs), tail_of_kinds hs]

/-- Items are found up to the closing brace, if each of them is. -/
lemma finds_itemsToBrace {item : Parser α} {bare : α → α} {P : Phrase α} {bound n : Nat}
    (hitem : ∀ s, s.kinds.length ≤ bound → item.Finds bare P Resumes s)
    (hstarts : ∀ {ks x rest}, P ks x rest → Starts ks)
    (hbehind : ∀ {ks x rest}, P ks x rest → Behind rest ks)
    {ys : List α} {rest : List TokenKind} (h : Items P s.kinds ys (.symbol .closeBrace :: rest))
    (hbound : s.kinds.length ≤ bound) (hn : s.kinds.length < n) :
    ∃ xs t, itemsToBrace item n s = .ok xs t ∧ t.kinds = rest ∧ xs.map bare = ys := by
  induction n generalizing s ys with
  | zero => exact absurd hn (Nat.not_lt_zero _)
  | succ n ih =>
      generalize hs : s.kinds = ks at h
      cases h with
      | nil =>
          have hbrace := kind_of_kinds hs
          exact ⟨[], s.tail, itemsToBrace_ok.mpr (Or.inl ⟨hbrace, rfl, rfl⟩), tail_of_kinds hs, rfl⟩
      | cons hx hys =>
          obtain ⟨x, u, hrun, hu, rfl⟩ :=
            hitem s hbound (hs.symm ▸ hx) (hys.resumes hstarts .brace)
          have hshorter := (hbehind hx).length_lt
          rw [← hs, ← hu] at hshorter
          obtain ⟨xs, t, hxs, ht, rfl⟩ := ih (hu.symm ▸ hys) (by omega) (by omega)
          have hkind : s.kind ≠ .symbol .closeBrace ∧ s.kind ≠ .endOfInput := by
            have hstart := hstarts hx
            rw [kind_eq, hs]
            cases hstart <;> exact ⟨nofun, nofun⟩
          refine ⟨x :: xs, t, ?_, ht, rfl⟩
          exact itemsToBrace_ok.mpr (Or.inr ⟨hkind.1, hkind.2, x, u, xs, hrun, hxs, rfl⟩)

lemma finds_braced {item : Parser α} {bare : α → α} {P : Phrase α} {ks : List TokenKind}
    (hitem : ∀ s, s.kinds.length ≤ ks.length → item.Finds bare P Resumes s)
    (hstarts : ∀ {ks x rest}, P ks x rest → Starts ks)
    (hbehind : ∀ {ks x rest}, P ks x rest → Behind rest ks)
    {ys : List α} {rest : List TokenKind} (hs : s.kinds = .symbol .openBrace :: ks)
    (h : Items P ks ys (.symbol .closeBrace :: rest)) :
    ∃ xs t, braced item s = .ok xs t ∧ t.kinds = rest ∧ xs.map bare = ys := by
  have htail := tail_of_kinds hs
  have hbound : s.tail.kinds.length ≤ ks.length := Nat.le_of_eq (congrArg List.length htail)
  have hn : s.tail.kinds.length < s.tail.rest.length + 1 := by
    rw [length_kinds]
    omega
  obtain ⟨xs, t, hxs, ht, hbare⟩ :=
    finds_itemsToBrace hitem hstarts hbehind (htail.symm ▸ h) hbound hn
  exact ⟨xs, t, braced_ok.mpr ⟨kind_of_kinds hs, hxs⟩, ht, hbare⟩

/-! ## Types -/

lemma finds_arrayAndName {x : Bool × String} {rest : List TokenKind}
    (h : TypeName s.kinds x rest) : ∃ t, arrayAndName s = .ok x t ∧ t.kinds = rest := by
  generalize hs : s.kinds = ks at h
  cases h with
  | plain =>
      exact ⟨s.tail, arrayAndName_ok.mpr (Or.inr (Or.inr ⟨_, kind_of_kinds hs, rfl, rfl⟩)),
        tail_of_kinds hs⟩
  | array =>
      have htail := tail_of_kinds hs
      have htail' := tail_of_kinds htail
      refine ⟨s.tail.tail.tail, arrayAndName_ok.mpr (Or.inl ?_), tail_of_kinds htail'⟩
      exact ⟨kind_of_kinds hs, kind_of_kinds htail, _, kind_of_kinds htail', rfl, rfl⟩
  | bracketed =>
      have htail := tail_of_kinds hs
      have htail' := tail_of_kinds htail
      refine ⟨s.tail.tail.tail, arrayAndName_ok.mpr (Or.inr (Or.inl ?_)), tail_of_kinds htail'⟩
      exact ⟨kind_of_kinds hs, kind_of_kinds htail', _, kind_of_kinds htail, rfl, rfl⟩

/-- What may follow a type. -/
abbrev EndsType (rest : List TokenKind) : Prop := rest.head? ≠ some (.symbol .question)

/-- A plain type holds no other types, so any depth will do. -/
lemma finds_typeWithin_plain (depth : Nat) (s : TokenStream) :
    (typeWithin (depth + 1)).Finds TypeExpr.bare PlainType EndsType s := by
  intro y rest h hrest
  cases h with
  | required hn hname =>
      obtain ⟨u, hu, rfl⟩ := finds_arrayAndName hname
      have hquestion := kind_ne hrest
      refine ⟨_, u.past (.symbol .question),
        typeWithin_ok.mpr ⟨_, _, u, hu, Or.inr ⟨hn, rfl, rfl⟩⟩, ?_, ?_⟩
      · rw [past, if_neg hquestion]
      · rw [decide_eq_false hquestion]
        rfl
  | optional hn hname =>
      obtain ⟨u, hu, hkinds⟩ := finds_arrayAndName hname
      have hquestion := kind_of_kinds hkinds
      refine ⟨_, u.past (.symbol .question),
        typeWithin_ok.mpr ⟨_, _, u, hu, Or.inr ⟨hn, rfl, rfl⟩⟩, ?_, ?_⟩
      · rw [past, if_pos hquestion, tail_of_kinds hkinds]
      · rw [decide_eq_true hquestion]
        rfl

lemma finds_notObject {type : Parser TypeExpr}
    (htype : type.Finds TypeExpr.bare PlainType EndsType s) :
    (notObject type).Finds TypeExpr.bare PlainType EndsType s := by
  intro y rest h hrest
  obtain ⟨x, t, hx, ht, rfl⟩ := htype h hrest
  exact ⟨x, t, notObject_ok.mpr ⟨hx, x.isObject_bare ▸ h.isObject⟩, ht, rfl⟩

lemma finds_fieldDecl {type : Parser TypeExpr}
    (htype : type.Finds TypeExpr.bare PlainType EndsType s.tail.tail) :
    (fieldDecl type).Finds FieldDecl.bare ShapeField Resumes s := by
  intro y rest h hrest
  generalize hs : s.kinds = ks at h
  cases h with
  | mk ht hcomma =>
      have htail := tail_of_kinds hs
      rw [← tail_of_kinds htail] at ht
      obtain ⟨x, u, hx, hu, rfl⟩ := htype ht (hcomma.head_ne hrest nofun nofun)
      rw [← hu] at hcomma
      refine ⟨_, _, fieldDecl_ok.mpr ⟨_, x, u, kind_of_kinds hs, kind_of_kinds htail, hx, rfl, rfl⟩,
        kinds_past_comma hcomma hrest, rfl⟩

/-- A shape holds plain types, so a depth of two will do. -/
lemma finds_typeWithin_defined (depth : Nat) (s : TokenStream) :
    (typeWithin (depth + 2)).Finds TypeExpr.bare DefinedType EndsType s := by
  intro y rest h hrest
  generalize hs : s.kinds = ks at h
  cases h with
  | plain ht => exact finds_typeWithin_plain _ s (hs.symm ▸ ht) hrest
  | object hfields =>
      have hname : TypeName s.kinds (false, objectName) s.tail.kinds := by
        rw [tail_of_kinds hs, hs]
        exact .plain
      obtain ⟨u, hu, hkinds⟩ := finds_arrayAndName hname
      rw [tail_of_kinds hs] at hkinds
      obtain ⟨fields, t, hrun, rfl, rfl⟩ :=
        finds_braced (fun s _ => finds_fieldDecl (finds_notObject (finds_typeWithin_plain depth _)))
          ShapeField.starts ShapeField.behind hkinds hfields
      refine ⟨_, t, typeWithin_ok.mpr ⟨_, _, u, hu, Or.inl ⟨rfl, fields, hrun, ?_, rfl⟩⟩, rfl, ?_⟩
      · exact kind_ne hrest
      · rw [TypeExpr.bare, FieldDecl.bareAll_eq_map]
        rfl

lemma finds_plainType (s : TokenStream) :
    (notObject anyType).Finds TypeExpr.bare PlainType EndsType s := by
  refine finds_notObject fun h hrest => ?_
  exact finds_typeWithin_plain s.rest.length s h hrest

lemma finds_typedefType (s : TokenStream) :
    typedefType.Finds TypeExpr.bare DefinedType EndsType s := by
  intro y rest h hrest
  obtain ⟨depth, hdepth⟩ : ∃ depth, s.rest.length = depth + 1 := by
    have hlength := h.behind.length_lt
    rw [length_kinds] at hlength
    exact ⟨_, (Nat.succ_pred_eq_of_pos (by omega)).symm⟩
  obtain ⟨x, t, hx, ht, rfl⟩ := finds_typeWithin_defined depth s h hrest
  refine ⟨x, t, typedefType_ok.mpr ⟨?_, ?_⟩, ht, rfl⟩
  · change typeWithin (s.rest.length + 1) s = .ok x t
    rw [hdepth]
    exact hx
  · rw [← x.isObject_bare, ← x.isArray_bare]
    exact h.no_array

/-! ## Values -/

/-- What may follow a path. -/
abbrev EndsPath (rest : List TokenKind) : Prop := rest.head? ≠ some (.symbol .dot)

/-- What may follow a value. -/
abbrev EndsValue (rest : List TokenKind) : Prop :=
  EndsPath rest ∧ rest.head? ≠ some (.symbol .openParen)

/-- The members of a path are taken one by one.  However many have been taken, the result is what
comes of going on from there, and the bound has not been reached. -/
lemma members_of_path {ks rest : List TokenKind} {y : Expr} (h : Path ks y rest) (hs : s.kinds = ks)
    (start : Span) {bound : Nat} (hbound : s.tail.kinds.length ≤ bound) :
    ∃ n e t left, s.kind = .name n ∧ t.kinds = rest ∧ e.bare = y ∧ t.kinds.length ≤ left ∧
      ∀ {e' t'}, members start e left t = .ok e' t' →
        members start (.name n start) bound s.tail = .ok e' t' := by
  induction h with
  | name => exact ⟨_, _, s.tail, bound, kind_of_kinds hs, tail_of_kinds hs, rfl, hbound, id⟩
  | @member ks rest path m _ ih =>
      obtain ⟨n, e, t, left, hname, ht, rfl, hleft, hrun⟩ := ih hs
      have htail := tail_of_kinds ht
      rw [ht, List.length_cons, List.length_cons] at hleft
      obtain ⟨left, rfl⟩ : ∃ left', left = left' + 1 :=
        ⟨_, (Nat.succ_pred_eq_of_pos (by omega)).symm⟩
      refine ⟨n, .member e m (start.merge t.tail.tail.last), t.tail.tail, left, hname,
        tail_of_kinds htail, rfl, ?_, fun h => hrun ?_⟩
      · rw [tail_of_kinds htail]
        omega
      · exact members_ok.mpr (Or.inl ⟨kind_of_kinds ht, m, kind_of_kinds htail, h⟩)

lemma finds_path (s : TokenStream) : path.Finds Expr.bare Path EndsPath s := by
  intro y rest h hrest
  have hbound : s.tail.kinds.length ≤ s.tail.rest.length := Nat.le_of_eq (length_kinds _)
  obtain ⟨n, e, t, left, hname, ht, rfl, -, hrun⟩ := members_of_path h rfl s.span hbound
  refine ⟨e, t, path_ok.mpr ⟨n, hname, hrun ?_⟩, ht, rfl⟩
  cases left with
  | zero => rfl
  | succ left => exact members_ok.mpr (Or.inr ⟨kind_ne (ht.symm ▸ hrest), rfl, rfl⟩)

lemma finds_fieldInit {value : Parser Expr}
    (hvalue : value.Finds Expr.bare (Value true) EndsValue s.tail.tail) :
    (fieldInit value).Finds FieldInit.bare ObjectField Resumes s := by
  intro y rest h hrest
  generalize hs : s.kinds = ks at h
  cases h with
  | mk he hcomma =>
      have htail := tail_of_kinds hs
      rw [← tail_of_kinds htail] at he
      obtain ⟨e, u, hrun, hu, rfl⟩ :=
        hvalue he ⟨hcomma.head_ne hrest nofun nofun, hcomma.head_ne hrest nofun nofun⟩
      rw [← hu] at hcomma
      exact ⟨_, _,
        fieldInit_ok.mpr ⟨_, e, u, kind_of_kinds hs, kind_of_kinds htail, hrun, rfl, rfl⟩,
        kinds_past_comma hcomma hrest, rfl⟩

lemma finds_valueWithin {allowsObject : Bool} {depth : Nat} (hdepth : s.kinds.length < depth) :
    (valueWithin allowsObject depth).Finds Expr.bare (Value allowsObject) EndsValue s := by
  induction depth generalizing s allowsObject with
  | zero => exact absurd hdepth (Nat.not_lt_zero _)
  | succ depth ih =>
      intro y rest h hrest
      generalize hs : s.kinds = ks at h
      cases h with
      | @literal _ l =>
          have ht := tail_of_kinds hs
          refine ⟨.literal l s.span, s.tail, valueWithin_ok.mpr ⟨Or.inl ?_, ?_⟩, ht, rfl⟩
          · exact ⟨l, kind_of_kinds hs, rfl, rfl⟩
          · exact kind_ne (ht.symm ▸ hrest.2)
      | path hpath =>
          obtain ⟨e, t, he, ht, rfl⟩ := finds_path s (hs.symm ▸ hpath) hrest.1
          refine ⟨e, t, valueWithin_ok.mpr ⟨Or.inr (Or.inr he), ?_⟩, ht, rfl⟩
          exact kind_ne (ht.symm ▸ hrest.2)
      | @object ks _ _ hfields =>
          have htail := tail_of_kinds hs
          have hitem (u : TokenStream) (hu : u.kinds.length ≤ ks.length) :
              (fieldInit (valueWithin true depth)).Finds FieldInit.bare ObjectField Resumes u := by
            refine finds_fieldInit (ih ?_)
            rw [kinds_tail, kinds_tail, List.length_tail, List.length_tail]
            rw [hs, List.length_cons, List.length_cons] at hdepth
            omega
          obtain ⟨fields, t, hrun, ht, rfl⟩ :=
            finds_braced hitem ObjectField.starts ObjectField.behind htail hfields
          refine ⟨.object fields (s.span.merge t.last), t,
            valueWithin_ok.mpr ⟨Or.inr (Or.inl ?_), ?_⟩, ht, ?_⟩
          · exact ⟨kind_of_kinds hs, rfl, fields, hrun, rfl⟩
          · exact kind_ne (ht.symm ▸ hrest.2)
          · rw [Expr.bare, FieldInit.bareAll_eq_map]

lemma finds_value (allowsObject : Bool) (s : TokenStream) :
    (value allowsObject).Finds Expr.bare (Value allowsObject) EndsValue s := by
  have hdepth : s.kinds.length < s.rest.length + 1 := by
    rw [length_kinds]
    omega
  intro y rest h hrest
  exact finds_valueWithin hdepth h hrest

/-! ## Statements -/

lemma finds_itemsAfterComma {n : Nat} {ys : List Expr} {rest : List TokenKind}
    (h : Items NextArgument s.kinds ys (.symbol .closeParen :: rest)) (hn : s.kinds.length ≤ n) :
    ∃ es t, itemsAfterComma (value false) n s = .ok es t ∧ t.kinds = .symbol .closeParen :: rest ∧
      es.map Expr.bare = ys := by
  induction n generalizing s ys with
  | zero =>
      have hle := (h.suffix NextArgument.behind).length_le
      simp only [List.length_cons] at hle
      omega
  | succ n ih =>
      generalize hs : s.kinds = ks at h
      cases h with
      | nil =>
          have hcomma : s.kind ≠ .symbol .comma := by
            rw [kind_of_kinds hs]
            exact nofun
          exact ⟨[], s, itemsAfterComma_ok.mpr (Or.inr ⟨hcomma, rfl, rfl⟩), hs, rfl⟩
      | cons hx hys =>
          cases hx with
          | mk he =>
              have hrest : EndsValue _ := hys.endsArgument
              obtain ⟨e, u, hrun, hu, rfl⟩ :=
                finds_value false s.tail ((tail_of_kinds hs).symm ▸ he) hrest
              have hshorter := he.behind.length_lt
              rw [hs, List.length_cons] at hn
              obtain ⟨es, t, hes, ht, rfl⟩ := ih (hu.symm ▸ hys) (by rw [hu]; omega)
              refine ⟨e :: es, t, itemsAfterComma_ok.mpr (Or.inl ?_), ht, rfl⟩
              exact ⟨kind_of_kinds hs, e, u, es, hrun, hes, rfl⟩

lemma finds_arguments {ks rest : List TokenKind} {ys : List Expr}
    (hs : s.kinds = .symbol .openParen :: ks) (h : Arguments ks ys rest) :
    ∃ es t, arguments s = .ok es t ∧ t.kinds = rest ∧ es.map Expr.bare = ys := by
  have htail := tail_of_kinds hs
  cases h with
  | none =>
      refine ⟨[], s.tail.tail, arguments_ok.mpr ⟨kind_of_kinds hs, Or.inl ?_⟩,
        tail_of_kinds htail, rfl⟩
      exact ⟨kind_of_kinds htail, rfl, rfl⟩
  | some he hes =>
      obtain ⟨e, u, hrun, hu, rfl⟩ := finds_value false s.tail (htail.symm ▸ he) hes.endsArgument
      have hbound : u.kinds.length ≤ u.rest.length := Nat.le_of_eq (length_kinds u)
      obtain ⟨es, t, hrest, ht, rfl⟩ := finds_itemsAfterComma (hu.symm ▸ hes) hbound
      have hclose := kind_ne (htail.symm ▸ he.head_ne .closeParen)
      refine ⟨e :: es, t.tail, arguments_ok.mpr ⟨kind_of_kinds hs, Or.inr ?_⟩,
        tail_of_kinds ht, rfl⟩
      exact ⟨hclose, t, commaSeparated_ok.mpr ⟨e, u, es, hrun, hrest, rfl⟩, kind_of_kinds ht, rfl⟩

lemma finds_typedef {n : String} {ks rest : List TokenKind} {y : TypeExpr}
    (hs : s.kinds = .keyword .typeWord :: .name n :: .symbol .colon :: ks)
    (h : DefinedType ks y rest) (hrest : EndsType rest) :
    ∃ st t, typedef s = .ok st t ∧ t.kinds = rest ∧ st.bare = .typedef n y {} := by
  have htail := tail_of_kinds hs
  have htail' := tail_of_kinds htail
  rw [← tail_of_kinds htail'] at h
  obtain ⟨x, t, hx, ht, rfl⟩ := finds_typedefType _ h hrest
  refine ⟨.typedef n x (s.span.merge t.last), t, typedef_ok.mpr ?_, ht, rfl⟩
  exact ⟨kind_of_kinds hs, n, kind_of_kinds htail, kind_of_kinds htail', x, hx, rfl⟩

lemma finds_declaration {n : String} {ks rest : List TokenKind} {y : TypeExpr}
    (hs : s.kinds = .keyword .letWord :: .name n :: .symbol .colon :: ks)
    (h : PlainType ks y rest) (hrest : Resumes rest) :
    ∃ st t, binding s = .ok st t ∧ t.kinds = rest ∧ st.bare = .binding n y none {} := by
  have htail := tail_of_kinds hs
  have htail' := tail_of_kinds htail
  rw [← tail_of_kinds htail'] at h
  obtain ⟨x, t, hx, ht, rfl⟩ := finds_plainType _ h (hrest.head_ne nofun)
  have hequals := kind_ne (ht.symm ▸ hrest.head_ne (c := .equals) nofun)
  refine ⟨.binding n x none (s.span.merge t.last), t, binding_ok.mpr ?_, ht, rfl⟩
  exact ⟨kind_of_kinds hs, n, kind_of_kinds htail, kind_of_kinds htail', x, t, hx,
    Or.inr ⟨hequals, rfl, rfl⟩⟩

lemma finds_binding {n : String} {ks ls rest : List TokenKind} {y : TypeExpr} {z : Expr}
    (hs : s.kinds = .keyword .letWord :: .name n :: .symbol .colon :: ks)
    (h : PlainType ks y (.symbol .equals :: ls)) (hvalue : Value true ls z rest)
    (hrest : EndsValue rest) :
    ∃ st t, binding s = .ok st t ∧ t.kinds = rest ∧ st.bare = .binding n y (some z) {} := by
  have htail := tail_of_kinds hs
  have htail' := tail_of_kinds htail
  rw [← tail_of_kinds htail'] at h
  obtain ⟨x, u, hx, hu, rfl⟩ := finds_plainType _ h nofun
  rw [← tail_of_kinds hu] at hvalue
  obtain ⟨e, t, he, ht, rfl⟩ := finds_value true _ hvalue hrest
  refine ⟨.binding n x (some e) (s.span.merge t.last), t, binding_ok.mpr ?_, ht, rfl⟩
  exact ⟨kind_of_kinds hs, n, kind_of_kinds htail, kind_of_kinds htail', x, u, hx,
    Or.inl ⟨kind_of_kinds hu, e, he, rfl⟩⟩

lemma finds_call {ks rest : List TokenKind} {y : Expr} {ys : List Expr}
    (hcallee : Path s.kinds y (.symbol .openParen :: ks)) (h : Arguments ks ys rest) :
    ∃ st t, call s = .ok st t ∧ t.kinds = rest ∧ st.bare = .effect (.call y ys {}) {} := by
  obtain ⟨callee, u, hrun, hu, rfl⟩ := finds_path s hcallee nofun
  obtain ⟨es, t, hes, ht, rfl⟩ := finds_arguments hu h
  refine ⟨.effect (.call callee es (callee.span.merge t.last)) (s.span.merge t.last), t,
    call_ok.mpr ⟨callee, u, es, hrun, hes, rfl⟩, ht, ?_⟩
  rw [Stmt.bare, Expr.bare, Expr.bareAll_eq_map]

/-- A call does not look like a scope. -/
lemma tail_kind_of_call {ks : List TokenKind} {y : Expr}
    (hcallee : Path s.kinds y (.symbol .openParen :: ks)) :
    s.tail.kind ≠ .symbol .openBrace := by
  obtain ⟨n, ks', hks, hnext⟩ := hcallee.second
  refine kind_ne ?_
  rw [tail_of_kinds hks]
  rcases hnext with rfl | hdot
  · exact nofun
  · rw [hdot]
    exact nofun

lemma finds_statementWithin {depth : Nat} (hdepth : s.kinds.length < depth) :
    (statementWithin depth).Finds Stmt.bare Statement Resumes s := by
  induction depth generalizing s with
  | zero => exact absurd hdepth (Nat.not_lt_zero _)
  | succ depth ih =>
      intro y rest h hrest
      generalize hs : s.kinds = ks at h
      cases h with
      | @scope ks _ n _ hbody =>
          have htail := tail_of_kinds hs
          have hitem (u : TokenStream) (hu : u.kinds.length ≤ ks.length) :
              (statementWithin depth).Finds Stmt.bare Statement Resumes u := by
            refine ih ?_
            rw [hs, List.length_cons, List.length_cons] at hdepth
            omega
          obtain ⟨body, t, hrun, ht, rfl⟩ :=
            finds_braced hitem Statement.starts Statement.behind htail hbody
          refine ⟨.scope n body (s.tail.span.merge t.last) (s.span.merge t.last), t,
            statementWithin_ok.mpr (Or.inr (Or.inr (Or.inl ?_))), ht, ?_⟩
          · exact ⟨n, body, kind_of_kinds hs, kind_of_kinds htail, hrun, rfl⟩
          · rw [Stmt.bare, Stmt.bareAll_eq_map]
      | typedef hx =>
          obtain ⟨st, t, hrun, ht⟩ := finds_typedef hs hx (hrest.head_ne (by decide))
          exact ⟨st, t, statementWithin_ok.mpr (Or.inl hrun), ht⟩
      | declaration hx =>
          obtain ⟨st, t, hrun, ht⟩ := finds_declaration hs hx hrest
          exact ⟨st, t, statementWithin_ok.mpr (Or.inr (Or.inl hrun)), ht⟩
      | binding hx he =>
          have hends : EndsValue _ := ⟨hrest.head_ne (by decide), hrest.head_ne (by decide)⟩
          obtain ⟨st, t, hrun, ht⟩ := finds_binding hs hx he hends
          exact ⟨st, t, statementWithin_ok.mpr (Or.inr (Or.inl hrun)), ht⟩
      | call hcallee hes =>
          subst hs
          obtain ⟨st, t, hrun, ht⟩ := finds_call hcallee hes
          have hbrace := tail_kind_of_call hcallee
          exact ⟨st, t, statementWithin_ok.mpr (Or.inr (Or.inr (Or.inr ⟨hbrace, hrun⟩))), ht⟩

lemma finds_statements {n : Nat} {ys : List Stmt} (h : Items Statement s.kinds ys [])
    (hn : s.kinds.length ≤ n) :
    ∃ ss t, statements n s = .ok ss t ∧ ss.map Stmt.bare = ys := by
  induction n generalizing s ys with
  | zero =>
      cases ys with
      | nil => exact ⟨[], s, rfl, rfl⟩
      | cons y ys =>
          cases h with
          | cons hst _ =>
              have hlength := hst.behind.length_lt
              omega
  | succ n ih =>
      generalize hs : s.kinds = ks at h
      cases h with
      | nil =>
          have hend : s.kind = .endOfInput := by
            rw [kind_eq, hs]
            rfl
          exact ⟨[], s, statements_ok.mpr (Or.inl ⟨hend, rfl, rfl⟩), rfl⟩
      | cons hst hss =>
          have hshorter := hst.behind.length_lt
          have hdepth : s.kinds.length < s.rest.length + 1 := by
            rw [length_kinds]
            omega
          have hkind : s.kind ≠ .endOfInput := by
            have hstart := hst.starts
            rw [kind_eq, hs]
            cases hstart <;> exact nofun
          obtain ⟨st, u, hrun, hu, rfl⟩ := finds_statementWithin hdepth (hs.symm ▸ hst)
            (hss.resumes Statement.starts .nil)
          rw [← hs, ← hu] at hshorter
          obtain ⟨ss, t, hrest, rfl⟩ := ih (hu.symm ▸ hss) (by omega)
          refine ⟨st :: ss, t, statements_ok.mpr (Or.inr ⟨hkind, st, u, ss, hrun, hrest, rfl⟩), rfl⟩

end Parser

/-! ## Programs -/

section

variable {body : List Token} {b : Block} {ss : List Stmt}

/-- The stream of tokens that end where the input does, and nowhere before. -/
lemma TokenStream.ofTokens_eq (hbody : ∀ t ∈ body, t.kind ≠ .endOfInput) (stop : Span) :
    TokenStream.ofTokens (body ++ [⟨.endOfInput, stop⟩]) = ⟨body, stop, stop⟩ := by
  have hall : ∀ t ∈ body, decide (t.kind ≠ .endOfInput) = true :=
    fun t ht => decide_eq_true (hbody t ht)
  have hnone : body.find? (·.kind = .endOfInput) = none := by simpa using hbody
  rw [ofTokens, List.takeWhile_append_of_pos hall, List.find?_append, hnone]
  simp

lemma TokenStream.kinds_ofTokens (hbody : ∀ t ∈ body, t.kind ≠ .endOfInput) (stop : Span) :
    (TokenStream.ofTokens (body ++ [⟨.endOfInput, stop⟩])).kinds = body.map (·.kind) := by
  rw [ofTokens_eq hbody]
  rfl

lemma parseTokens_ok {ts : List Token} :
    parseTokens ts = .ok b ↔ ∃ t, Parser.program (TokenStream.ofTokens ts) = .ok b t := by
  rw [parseTokens]
  cases Parser.program (TokenStream.ofTokens ts) <;> simp

/-- A program that the parser gives is one that the grammar derives, and it takes all tokens. -/
lemma Parser.takes_program (hbody : ∀ t ∈ body, t.kind ≠ .endOfInput) {stop : Span}
    {t : TokenStream} (h : program (.ofTokens (body ++ [⟨.endOfInput, stop⟩])) = .ok b t) :
    Grammar.Program (body.map (·.kind)) (Stmt.bareAll b.statements) ∧ t.kinds = [] := by
  obtain ⟨ss, hss, rfl⟩ := Parser.program_ok.mp h
  obtain ⟨hitems, hend⟩ := Parser.takes_statements (Nat.le_of_eq (TokenStream.length_kinds _)) hss
  rw [TokenStream.kinds_ofTokens hbody] at hitems
  -- the parser has stopped at the end of the input, so no token of the body is left
  have hnil : t.kinds = [] := by
    cases hks : t.kinds with
    | nil => rfl
    | cons k ks =>
        have hk := (hitems.suffix Grammar.Statement.behind).mem (hks ▸ List.mem_cons_self)
        rw [TokenStream.kind_of_kinds hks] at hend
        obtain ⟨token, htoken, rfl⟩ := List.mem_map.mp hk
        exact absurd hend (hbody token htoken)
  rw [Stmt.bareAll_eq_map, Grammar.Program]
  exact ⟨hnil ▸ hitems, hnil⟩

lemma program_of_parseTokens (hbody : ∀ t ∈ body, t.kind ≠ .endOfInput) {stop : Span}
    (h : parseTokens (body ++ [⟨.endOfInput, stop⟩]) = .ok b) :
    Grammar.Program (body.map (·.kind)) (Stmt.bareAll b.statements) := by
  obtain ⟨t, hprogram⟩ := parseTokens_ok.mp h
  exact (Parser.takes_program hbody hprogram).1

/-- The parser gives every program that the grammar derives. -/
lemma parseTokens_of_program (hbody : ∀ t ∈ body, t.kind ≠ .endOfInput) (stop : Span)
    (h : Grammar.Program (body.map (·.kind)) ss) :
    ∃ b, parseTokens (body ++ [⟨.endOfInput, stop⟩]) = .ok b ∧ Stmt.bareAll b.statements = ss := by
  rw [Grammar.Program, ← TokenStream.kinds_ofTokens hbody stop] at h
  obtain ⟨ss, t, hss, rfl⟩ :=
    Parser.finds_statements h (Nat.le_of_eq (TokenStream.length_kinds _))
  refine ⟨_, parseTokens_ok.mpr ⟨t, Parser.program_ok.mpr ⟨ss, hss, rfl⟩⟩, ?_⟩
  exact Stmt.bareAll_eq_map ss

end

/-- For any list of tokens whose only end of input is the last one:

* the parser gives a program whose statements, without their spans, are `ss` if and only if the
  grammar derives `ss` from what the tokens before the end say;
* so it succeeds if and only if the grammar derives anything from them;
* and the grammar derives no two programs from the same tokens. -/
theorem parseTokens_iff_program {body : List Token} (hbody : ∀ t ∈ body, t.kind ≠ .endOfInput)
    (stop : Span) :
    (∀ ss, (∃ b, parseTokens (body ++ [⟨.endOfInput, stop⟩]) = .ok b ∧
        Stmt.bareAll b.statements = ss) ↔ Grammar.Program (body.map (·.kind)) ss) ∧
      ((∃ b, parseTokens (body ++ [⟨.endOfInput, stop⟩]) = .ok b) ↔
        ∃ ss, Grammar.Program (body.map (·.kind)) ss) ∧
      ∀ ss ss', Grammar.Program (body.map (·.kind)) ss →
        Grammar.Program (body.map (·.kind)) ss' → ss = ss' := by
  refine ⟨fun ss => ⟨?_, parseTokens_of_program hbody stop⟩, ⟨?_, ?_⟩, ?_⟩
  · rintro ⟨b, hb, rfl⟩
    exact program_of_parseTokens hbody hb
  · rintro ⟨b, hb⟩
    exact ⟨_, program_of_parseTokens hbody hb⟩
  · rintro ⟨ss, hss⟩
    obtain ⟨b, hb, -⟩ := parseTokens_of_program hbody stop hss
    exact ⟨b, hb⟩
  · intro ss ss' hss hss'
    obtain ⟨b, hb, rfl⟩ := parseTokens_of_program hbody stop hss
    obtain ⟨b', hb', rfl⟩ := parseTokens_of_program hbody stop hss'
    rw [hb] at hb'
    cases hb'
    rfl

/-- The tokens of a program with a shape, an array, an optional type, a new object with a comma and
a call in a scope: `type T: object { b: [int]? } s { let a: T = new { b = x.y, } f(1) }`. -/
def sampleTokens : List Token :=
  [.keyword .typeWord, .name "T", .symbol .colon, .name "object", .symbol .openBrace, .name "b",
    .symbol .colon, .symbol .openBracket, .name "int", .symbol .closeBracket, .symbol .question,
    .symbol .closeBrace, .name "s", .symbol .openBrace, .keyword .letWord, .name "a",
    .symbol .colon, .name "T", .symbol .equals, .keyword .newWord, .symbol .openBrace, .name "b",
    .symbol .equals, .name "x", .symbol .dot, .name "y", .symbol .comma, .symbol .closeBrace,
    .name "f", .symbol .openParen, .literal (.integer 1), .symbol .closeParen,
    .symbol .closeBrace].map (⟨·, {}⟩)

/-- Its tokens are read as the program that they are meant as. -/
theorem parseTokens_iff_program_sample : (∀ t ∈ sampleTokens, t.kind ≠ .endOfInput) ∧
    Grammar.Program (sampleTokens.map (·.kind)) [
      Stmt.typedef "T" (.object [⟨"b", ⟨"int", true, true, [], {}⟩, {}⟩] {}) {},
      .scope "s" [
        .binding "a" (.named "T" {})
          (some (.object [⟨"b", .member (.name "x" {}) "y" {}, {}⟩] {})) {},
        .effect (.call (.name "f" {}) [.literal (.integer 1) {}] {}) {}] {} {}] := by
  have hbody : ∀ t ∈ sampleTokens, t.kind ≠ .endOfInput := by decide
  exact ⟨hbody, ((parseTokens_iff_program hbody {}).1 _).mp ⟨_, rfl, rfl⟩⟩

end TypedConfig
