import TypedConfig.Proofs.Covers

/-!
# Which tokens a node is made of

`Stmt.Spelled`, `Expr.Spelled` and `TypeExpr.Spelled` say which tokens, from the first one to the
last one, a node is made of.  There is one rule for each way to write a node, and the rules leave no
choice for the places: every node stands where its tokens do (`extent`).

**Commas.** A comma may follow a field.  It belongs to what is around the field, not to the field.

**From the left.** A path is spelled by the path ahead of its last member, a dot and a name.

**Outlines.** So the outline of a node is cut from the tokens of the node.
-/

namespace TypedConfig

open Outline (CutFrom)

/-! ## Lists -/

/-- One after the other. -/
inductive InTurn {α : Type} (P : α → List Token → Prop) : List α → List Token → Prop
  | nil : InTurn P [] []
  | cons {x xs ts us} (hx : P x ts) (hxs : InTurn P xs us) : InTurn P (x :: xs) (ts ++ us)

/-- A comma, or nothing. -/
inductive MaybeComma : List Token → Prop
  | absent : MaybeComma []
  | present {s} : MaybeComma [⟨.symbol .comma, s⟩]

/-- One after the other, each with a comma behind it or without. -/
inductive WithCommas {α : Type} (P : α → List Token → Prop) : List α → List Token → Prop
  | nil : WithCommas P [] []
  | cons {x xs ts cs us} (hx : P x ts) (hcs : MaybeComma cs) (hxs : WithCommas P xs us) :
      WithCommas P (x :: xs) (ts ++ cs ++ us)

/-- Something with a comma behind it or without. -/
inductive WithComma {α : Type} (P : α → List Token → Prop) : α → List Token → Prop
  | mk {x ts cs} (hx : P x ts) (hcs : MaybeComma cs) : WithComma P x (ts ++ cs)

lemma InTurn.withCommas {α : Type} {P : α → List Token → Prop} {xs : List α} {ts : List Token}
    (h : InTurn (WithComma P) xs ts) : WithCommas P xs ts := by
  induction h with
  | nil => exact .nil
  | cons hx _ ih =>
      cases hx with
      | mk hx hcs => exact .cons hx hcs ih

/-- One after the other, with a comma between any two. -/
inductive BetweenCommas {α : Type} (P : α → List Token → Prop) : List α → List Token → Prop
  | nil : BetweenCommas P [] []
  | one {x ts} (hx : P x ts) : BetweenCommas P [x] ts
  | cons {x y xs ts us s} (hx : P x ts) (hxs : BetweenCommas P (y :: xs) us) :
      BetweenCommas P (x :: y :: xs) (ts ++ ⟨.symbol .comma, s⟩ :: us)

/-! ## Types -/

/-- The name of a type, and whether it is an array, which is written `[]T` or `[T]`. -/
inductive SpellsName : Bool → String → List Token → Prop
  | plain {n s} : SpellsName false n [⟨.name n, s⟩]
  | array {n s s' s''} : SpellsName true n
      [⟨.symbol .openBracket, s⟩, ⟨.symbol .closeBracket, s'⟩, ⟨.name n, s''⟩]
  | bracketed {n s s' s''} : SpellsName true n
      [⟨.symbol .openBracket, s⟩, ⟨.name n, s'⟩, ⟨.symbol .closeBracket, s''⟩]

mutual

/-- A type: `T`, `T?` or `object { field* }`. -/
inductive TypeExpr.Spelled : TypeExpr → List Token → Prop
  | required {n isArray ts} (hn : n ≠ objectName) (hname : SpellsName isArray n ts) :
      TypeExpr.Spelled ⟨n, isArray, false, [], extent ts⟩ ts
  | optional {n isArray ts us s} (hn : n ≠ objectName) (hname : SpellsName isArray n ts)
      (hus : us = ts ++ [⟨.symbol .question, s⟩]) :
      TypeExpr.Spelled ⟨n, isArray, true, [], extent us⟩ us
  | shape {isArray fields ts fs us s s'} (hname : SpellsName isArray objectName ts)
      (hfields : WithCommas FieldDecl.Spelled fields fs)
      (hus : us = ts ++ ⟨.symbol .openBrace, s⟩ :: (fs ++ [⟨.symbol .closeBrace, s'⟩])) :
      TypeExpr.Spelled ⟨objectName, isArray, false, fields, extent us⟩ us

/-- A field of a shape: `name: type`. -/
inductive FieldDecl.Spelled : FieldDecl → List Token → Prop
  | mk {n type ts us s s'} (htype : TypeExpr.Spelled type ts)
      (hus : us = ⟨.name n, s⟩ :: ⟨.symbol .colon, s'⟩ :: ts) :
      FieldDecl.Spelled ⟨n, type, extent us⟩ us

end

/-! ## Expressions -/

mutual

/-- An expression: a name, a literal, `value.name`, `new { field* }` or `path( arguments )`. -/
inductive Expr.Spelled : Expr → List Token → Prop
  | name {n s} : Expr.Spelled (.name n s) [⟨.name n, s⟩]
  | literal {l s} : Expr.Spelled (.literal l s) [⟨.literal l, s⟩]
  | member {value n ts us s s'} (hvalue : Expr.Spelled value ts)
      (hus : us = ts ++ [⟨.symbol .dot, s⟩, ⟨.name n, s'⟩]) :
      Expr.Spelled (.member value n (extent us)) us
  | object {fields fs us s s' s''} (hfields : WithCommas FieldInit.Spelled fields fs)
      (hus : us = ⟨.keyword .newWord, s⟩ :: ⟨.symbol .openBrace, s'⟩ ::
        (fs ++ [⟨.symbol .closeBrace, s''⟩])) : Expr.Spelled (.object fields (extent us)) us
  | call {callee arguments ts es us s s'} (hcallee : Expr.Spelled callee ts)
      (harguments : BetweenCommas Expr.Spelled arguments es)
      (hus : us = ts ++ ⟨.symbol .openParen, s⟩ :: (es ++ [⟨.symbol .closeParen, s'⟩])) :
      Expr.Spelled (.call callee arguments (extent us)) us

/-- A field of a new object: `name = value`. -/
inductive FieldInit.Spelled : FieldInit → List Token → Prop
  | mk {n value ts us s s'} (hvalue : Expr.Spelled value ts)
      (hus : us = ⟨.name n, s⟩ :: ⟨.symbol .equals, s'⟩ :: ts) :
      FieldInit.Spelled ⟨n, value, extent us⟩ us

end

/-! ## Statements -/

/-- A statement: a scope, a type definition, a binding without or with a value, or a call.  What
stands between the braces of a scope is a block with a place of its own, the braces included. -/
inductive Stmt.Spelled : Stmt → List Token → Prop
  | scope {n body ts bs us s s' s''} (hbody : InTurn Stmt.Spelled body ts)
      (hbs : bs = ⟨.symbol .openBrace, s⟩ :: (ts ++ [⟨.symbol .closeBrace, s'⟩]))
      (hus : us = ⟨.name n, s''⟩ :: bs) : Stmt.Spelled (.scope n body (extent bs) (extent us)) us
  | typedef {n type ts us s s' s''} (htype : type.Spelled ts)
      (hus : us = ⟨.keyword .typeWord, s⟩ :: ⟨.name n, s'⟩ :: ⟨.symbol .colon, s''⟩ :: ts) :
      Stmt.Spelled (.typedef n type (extent us)) us
  | declaration {n type ts us s s' s''} (htype : type.Spelled ts)
      (hus : us = ⟨.keyword .letWord, s⟩ :: ⟨.name n, s'⟩ :: ⟨.symbol .colon, s''⟩ :: ts) :
      Stmt.Spelled (.binding n type none (extent us)) us
  | binding {n type value ts vs us s s' s'' s'''} (htype : type.Spelled ts)
      (hvalue : value.Spelled vs)
      (hus : us = ⟨.keyword .letWord, s⟩ :: ⟨.name n, s'⟩ :: ⟨.symbol .colon, s''⟩ ::
        (ts ++ ⟨.symbol .equals, s'''⟩ :: vs)) :
      Stmt.Spelled (.binding n type (some value) (extent us)) us
  | effect {e us} (he : e.Spelled us) : Stmt.Spelled (.effect e (extent us)) us

/-- A program: its statements and then the end of the input, at which the place of the program
ends. -/
inductive Block.Spelled : Block → List Token → Prop
  | mk {ss ts us s} (hss : InTurn Stmt.Spelled ss ts) (hus : us = ts ++ [⟨.endOfInput, s⟩]) :
      Block.Spelled ⟨ss, extent us⟩ us

/-! ## Nodes are cut from their tokens -/

lemma SpellsName.ne_nil {isArray : Bool} {n : String} {ts : List Token}
    (h : SpellsName isArray n ts) : ts ≠ [] := by
  cases h <;> exact List.cons_ne_nil _ _

mutual

lemma TypeExpr.Spelled.cutFrom {ts : List Token} (t : TypeExpr) (h : t.Spelled ts)
    (hts : InOrder ts) : CutFrom ts [t.outline] := by
  match t, h with
  | ⟨_, _, _, _, _⟩, .required _ hname => exact CutFrom.nil.node_extent hname.ne_nil hts
  | ⟨_, _, _, _, _⟩, .optional _ _ hus =>
      exact CutFrom.nil.node_extent (by simp [hus]) hts
  | ⟨_, _, _, fields, _⟩, .shape _ hfields hus =>
      subst hus
      have hfields := FieldDecl.Spelled.cutFrom_all fields hfields hts.right.tail.left
      exact (((hfields.before _).behind [_]).behind _).node_extent (by simp) hts

lemma FieldDecl.Spelled.cutFrom_all {ts : List Token} (fs : List FieldDecl)
    (h : WithCommas FieldDecl.Spelled fs ts) (hts : InOrder ts) :
    CutFrom ts (FieldDecl.outlines fs) := by
  match fs, h with
  | [], .nil => exact .nil
  | ⟨_, type, _⟩ :: fs, .cons (.mk htype hus) _ hfs =>
      subst hus
      have htype := TypeExpr.Spelled.cutFrom type htype hts.left.left.tail.tail
      have hfield := (htype.behind [_, _]).node_extent (List.cons_ne_nil _ _) hts.left.left
      exact (hfield.before _).append (FieldDecl.Spelled.cutFrom_all fs hfs hts.right)

end

lemma Expr.Spelled.ne_nil {e : Expr} {ts : List Token} (h : e.Spelled ts) : ts ≠ [] := by
  cases h <;> simp [*]

lemma Expr.Spelled.span_eq {e : Expr} {ts : List Token} (h : e.Spelled ts) :
    e.span = extent ts := by
  cases h <;> rfl

mutual

lemma Expr.Spelled.cutFrom {ts : List Token} (e : Expr) (h : e.Spelled ts) (hts : InOrder ts) :
    CutFrom ts [e.outline] := by
  match e, h with
  | .name _ _, .name => exact CutFrom.nil.node_extent (List.cons_ne_nil _ _) hts
  | .literal _ _, .literal => exact CutFrom.nil.node_extent (List.cons_ne_nil _ _) hts
  | .member value _ _, .member hvalue hus =>
      subst hus
      have hvalue := Expr.Spelled.cutFrom value hvalue hts.left
      exact (hvalue.before _).node_extent (by simp) hts
  | .object fields _, .object hfields hus =>
      subst hus
      have hfields := FieldInit.Spelled.cutFrom_all fields hfields hts.tail.tail.left
      exact ((hfields.before _).behind [_, _]).node_extent (List.cons_ne_nil _ _) hts
  | .call callee arguments _, .call hcallee harguments hus =>
      subst hus
      have hcallee := Expr.Spelled.cutFrom callee hcallee hts.left
      have harguments := Expr.Spelled.cutFrom_all arguments harguments hts.right.tail.left
      exact (hcallee.append ((harguments.before _).behind [_])).node_extent (by simp) hts

lemma Expr.Spelled.cutFrom_all {ts : List Token} (es : List Expr)
    (h : BetweenCommas Expr.Spelled es ts) (hts : InOrder ts) : CutFrom ts (Expr.outlines es) := by
  match es, h with
  | [], .nil => exact .nil
  | [e], .one he => exact Expr.Spelled.cutFrom e he hts
  | e :: e' :: es, .cons he hes =>
      have he := Expr.Spelled.cutFrom e he hts.left
      exact he.append ((Expr.Spelled.cutFrom_all (e' :: es) hes hts.right.tail).behind [_])

lemma FieldInit.Spelled.cutFrom_all {ts : List Token} (fs : List FieldInit)
    (h : WithCommas FieldInit.Spelled fs ts) (hts : InOrder ts) :
    CutFrom ts (FieldInit.outlines fs) := by
  match fs, h with
  | [], .nil => exact .nil
  | ⟨_, value, _⟩ :: fs, .cons (.mk hvalue hus) _ hfs =>
      subst hus
      have hvalue := Expr.Spelled.cutFrom value hvalue hts.left.left.tail.tail
      have hfield := (hvalue.behind [_, _]).node_extent (List.cons_ne_nil _ _) hts.left.left
      exact (hfield.before _).append (FieldInit.Spelled.cutFrom_all fs hfs hts.right)

end

mutual

lemma Stmt.Spelled.cutFrom {ts : List Token} (st : Stmt) (h : st.Spelled ts) (hts : InOrder ts) :
    CutFrom ts [st.outline] := by
  match st, h with
  | .scope _ body _ _, .scope hbody hbs hus =>
      subst hus hbs
      have hbody := Stmt.Spelled.cutFrom_all body hbody hts.tail.tail.left
      have hbraces := ((hbody.before _).behind [_]).node_extent (List.cons_ne_nil _ _) hts.tail
      exact (hbraces.behind [_]).node_extent (List.cons_ne_nil _ _) hts
  | .typedef _ type _, .typedef htype hus =>
      subst hus
      have htype := TypeExpr.Spelled.cutFrom type htype hts.tail.tail.tail
      exact (htype.behind [_, _, _]).node_extent (List.cons_ne_nil _ _) hts
  | .binding _ type none _, .declaration htype hus =>
      subst hus
      have htype := TypeExpr.Spelled.cutFrom type htype hts.tail.tail.tail
      exact (htype.behind [_, _, _]).node_extent (List.cons_ne_nil _ _) hts
  | .binding _ type (some value) _, .binding htype hvalue hus =>
      subst hus
      have htype := TypeExpr.Spelled.cutFrom type htype hts.tail.tail.tail.left
      have hvalue := Expr.Spelled.cutFrom value hvalue hts.tail.tail.tail.right.tail
      exact ((htype.append (hvalue.behind [_])).behind [_, _, _]).node_extent
        (List.cons_ne_nil _ _) hts
  | .effect e _, .effect he =>
      exact (Expr.Spelled.cutFrom e he hts).node_extent he.ne_nil hts

lemma Stmt.Spelled.cutFrom_all {ts : List Token} (ss : List Stmt) (h : InTurn Stmt.Spelled ss ts)
    (hts : InOrder ts) : CutFrom ts (Stmt.outlines ss) := by
  match ss, h with
  | [], .nil => exact .nil
  | st :: ss, .cons hst hss =>
      have hst := Stmt.Spelled.cutFrom st hst hts.left
      exact hst.append (Stmt.Spelled.cutFrom_all ss hss hts.right)

end

lemma Block.Spelled.cutFrom {b : Block} {ts : List Token} (h : b.Spelled ts) (hts : InOrder ts) :
    CutFrom ts [b.outline] := by
  obtain ⟨hss, rfl⟩ := h
  have hss := Stmt.Spelled.cutFrom_all _ hss hts.left
  exact (hss.before _).node_extent (by simp) hts

end TypedConfig
