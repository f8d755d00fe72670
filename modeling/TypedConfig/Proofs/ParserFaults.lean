import TypedConfig.Proofs.Readers

/-!
# Where the parser finds faults

The parser makes up no places.  A fault is at the next token, at the end of the input or at a type
that has been read, and a place that is not that of a token is put together from places of tokens.
So whatever holds of the places of the tokens, and of two places together when it holds of both,
holds of the places of faults (`Parser.keeps_program`).
-/

namespace TypedConfig

/-- Whether something holds of all places that a stream knows. -/
structure TokenStream.Stands (M : Span → Prop) (s : TokenStream) : Prop where
  rest : ∀ t ∈ s.rest, M t.span
  stop : M s.stop
  last : M s.last

namespace TokenStream.Stands

variable {M : Span → Prop} {s : TokenStream}

lemma span (h : s.Stands M) : M s.span := by
  obtain ⟨_ | ⟨token, rest⟩, stop, last⟩ := s
  · exact h.stop
  · exact h.rest token List.mem_cons_self

lemma tail (h : s.Stands M) : s.tail.Stands M := by
  obtain ⟨_ | ⟨token, rest⟩, stop, last⟩ := s
  · exact h
  · exact ⟨fun t ht => h.rest t (List.mem_cons_of_mem _ ht), h.stop,
      h.rest token List.mem_cons_self⟩

end TokenStream.Stands

namespace Parser

variable {α β : Type} {M : Span → Prop}

/-- Whether a parser, as long as something holds of all places that the stream knows, keeps it so
and gives something with a property, or finds a fault at such a place. -/
def Keeps (M : Span → Prop) (p : Parser α) (Q : α → Prop) : Prop :=
  ∀ s : TokenStream, s.Stands M → match p s with
    | .ok x t => t.Stands M ∧ Q x
    | .error e _ => M e.span

namespace Keeps

variable {p : Parser α} {Q : α → Prop} {R : β → Prop}

lemma pure {a : α} (h : Q a) : Keeps M (Pure.pure a) Q := fun _ hs => ⟨hs, h⟩

lemma bind {f : α → Parser β} (hp : Keeps M p Q) (hf : ∀ a, Q a → Keeps M (f a) R) :
    Keeps M (p >>= f) R := by
  intro s hs
  have hps := hp s hs
  simp only [Bind.bind, EStateM.bind]
  cases hrun : p s with
  | ok a t =>
      rw [hrun] at hps
      exact hf a hps.2 t hps.1
  | error e t =>
      rw [hrun] at hps
      exact hps

lemma map {f : α → β} (hp : Keeps M p Q) : Keeps M (f <$> p) fun _ => True := by
  rw [map_eq_pure_bind]
  exact .bind hp fun _ _ => .pure trivial

lemma throw {e : ParseError} (h : M e.span) : Keeps M (MonadExcept.throw e) Q := fun _ _ => h

lemma ite {c : Prop} [Decidable c] {q : Parser α} (hp : c → Keeps M p Q) (hq : ¬ c → Keeps M q Q) :
    Keeps M (if c then p else q) Q := by
  split
  · exact hp ‹_›
  · exact hq ‹_›

lemma get : Keeps M MonadState.get (TokenStream.Stands M) := fun _ hs => ⟨hs, hs⟩

lemma peek : Keeps M peek fun _ => True := fun _ hs => ⟨hs, trivial⟩

lemma here : Keeps M here M := fun _ hs => ⟨hs, hs.span⟩

lemma advance : Keeps M advance fun _ => True := fun _ hs => ⟨hs.tail, trivial⟩

lemma fail {fault : ParseFault} : Keeps M (fail fault) Q := .bind here fun _ h => .throw h

/-- Nothing follows a fault. -/
lemma throw_bind {e : ParseError} {f : β → Parser α} (h : M e.span) :
    Keeps M (MonadExcept.throw e >>= f) Q := fun _ _ => h

lemma fail_bind {fault : ParseFault} {f : β → Parser α} : Keeps M (Parser.fail fault >>= f) Q :=
  fun _ hs => hs.span

lemma unexpected {expected : String} : Keeps M (unexpected expected) Q := by
  refine .bind peek fun k _ => ?_
  split <;> exact .fail

lemma accept (k : TokenKind) : Keeps M (accept k) fun _ => True :=
  .bind peek fun _ _ => .ite (fun _ => .bind advance fun _ _ => .pure trivial)
    fun _ => .pure trivial

lemma expect (k : TokenKind) : Keeps M (expect k) fun _ => True :=
  .bind peek fun _ _ => .ite (fun _ => advance) fun _ => .unexpected

lemma name : Keeps M name fun _ => True := by
  refine .bind peek fun k _ => ?_
  split
  · exact .bind advance fun _ _ => .pure trivial
  · exact .unexpected

lemma spanFrom (hM : ∀ a b, M a → M b → M (a.merge b)) {start : Span} (h : M start) :
    Keeps M (spanFrom start) M :=
  .bind get fun _ hs => .pure (hM _ _ h hs.last)

/-! ## Items -/

lemma itemsToBrace {item : Parser α} (hitem : Keeps M item Q) (n : Nat) :
    Keeps M (itemsToBrace item n) fun _ => True := by
  induction n with
  | zero => exact .fail
  | succ n ih =>
      refine .bind peek fun k _ => ?_
      split
      · exact .bind advance fun _ _ => .pure trivial
      · exact .fail
      · exact .bind hitem fun _ _ => .bind ih fun _ _ => .pure trivial

lemma braced {item : Parser α} (hitem : Keeps M item Q) :
    Keeps M (braced item) fun _ => True :=
  .bind (.expect _) fun _ _ => .bind get fun _ _ => itemsToBrace hitem _

lemma itemsAfterComma {item : Parser α} (hitem : Keeps M item Q) (n : Nat) :
    Keeps M (itemsAfterComma item n) fun _ => True := by
  induction n with
  | zero => exact .pure trivial
  | succ n ih =>
      exact .bind (accept _) fun _ _ => .ite
        (fun _ => .bind hitem fun _ _ => .bind ih fun _ _ => .pure trivial) fun _ => .pure trivial

lemma commaSeparated {item : Parser α} (hitem : Keeps M item Q) :
    Keeps M (commaSeparated item) fun _ => True :=
  .bind hitem fun _ _ => .bind get fun _ _ => .bind (itemsAfterComma hitem _) fun _ _ =>
    .pure trivial

end Keeps

variable (hM : ∀ a b, M a → M b → M (a.merge b))
include hM

/-! ## Types -/

omit hM in
lemma keeps_notObject {type : Parser TypeExpr} (htype : Keeps M type fun x => M x.span) :
    Keeps M (notObject type) fun x => M x.span := by
  refine .bind htype fun x hx => ?_
  split
  · exact .throw_bind hx
  · exact .pure hx

lemma keeps_fieldDecl {type : Parser TypeExpr} {Q : TypeExpr → Prop} (htype : Keeps M type Q) :
    Keeps M (fieldDecl type) fun _ => True := by
  refine .bind .here fun start hstart => ?_
  refine .bind .name fun _ _ => .bind (.expect _) fun _ _ => ?_
  refine .bind htype fun _ _ => .bind (.spanFrom hM hstart) fun _ _ => ?_
  exact .bind (.accept _) fun _ _ => .pure trivial

omit hM in
lemma keeps_arrayAndName : Keeps M arrayAndName fun _ => True := by
  refine .bind (.accept _) fun _ _ => .ite (fun _ => ?_) fun _ => ?_
  · refine .bind (.accept _) fun _ _ => .ite (fun _ => ?_) fun _ => ?_
    · exact .bind .name fun _ _ => .pure trivial
    · exact .bind .name fun _ _ => .bind (.expect _) fun _ _ => .pure trivial
  · exact .bind .name fun _ _ => .pure trivial

lemma keeps_typeWithin (depth : Nat) : Keeps M (typeWithin depth) fun x => M x.span := by
  induction depth with
  | zero => exact .fail
  | succ depth ih =>
      refine .bind .here fun start hstart => .bind keeps_arrayAndName fun x _ => ?_
      refine .ite (fun _ => ?_) fun _ => ?_
      · refine .bind (.braced (keeps_fieldDecl hM (keeps_notObject ih))) fun _ _ => ?_
        refine .bind (.spanFrom hM hstart) fun span hspan => .bind .peek fun _ _ => ?_
        split
        · exact .fail_bind
        · exact .pure hspan
      · refine .bind (.accept _) fun _ _ => ?_
        exact .bind (.spanFrom hM hstart) fun span hspan => .pure hspan

lemma keeps_anyType : Keeps M anyType fun x => M x.span :=
  .bind .get fun _ _ => keeps_typeWithin hM _

lemma keeps_typedefType : Keeps M typedefType fun x => M x.span := by
  refine .bind (keeps_anyType hM) fun x hx => ?_
  split
  · exact .throw_bind hx
  · exact .pure hx

/-! ## Values -/

lemma keeps_members {start : Span} (hstart : M start) {path : Expr} (hpath : M path.span)
    (n : Nat) : Keeps M (members start path n) fun e => M e.span := by
  induction n generalizing path with
  | zero => exact .pure hpath
  | succ n ih =>
      refine .bind (.accept _) fun _ _ => .ite (fun _ => ?_) fun _ => .pure hpath
      refine .bind .name fun m _ => .bind (.spanFrom hM hstart) fun span hspan => ?_
      have hmember : M (Expr.member path m span).span := hspan
      exact ih hmember

lemma keeps_path : Keeps M path fun e => M e.span := by
  refine .bind .here fun start hstart => .bind .name fun n _ => .bind .get fun _ _ => ?_
  have hname : M (Expr.name n start).span := hstart
  exact keeps_members hM hstart hname _

lemma keeps_fieldInit {value : Parser Expr} {Q : Expr → Prop} (hvalue : Keeps M value Q) :
    Keeps M (fieldInit value) fun _ => True := by
  refine .bind .here fun start hstart => ?_
  refine .bind .name fun _ _ => .bind (.expect _) fun _ _ => ?_
  refine .bind hvalue fun _ _ => .bind (.spanFrom hM hstart) fun _ _ => ?_
  exact .bind (.accept _) fun _ _ => .pure trivial

lemma keeps_valueWithin (allowsObject : Bool) (depth : Nat) :
    Keeps M (valueWithin allowsObject depth) fun _ => True := by
  induction depth generalizing allowsObject with
  | zero => exact .fail
  | succ depth ih =>
      refine .bind .here fun start hstart => .bind .peek fun k _ => ?_
      have hend (e : Expr) : Keeps M (do
          if (← Parser.peek) = .symbol .openParen then Parser.fail .callAsValue
          return e) fun _ => True := by
        refine .bind .peek fun _ _ => .ite (fun _ => .fail_bind) fun _ => .pure trivial
      split
      · exact .bind .advance fun _ _ => hend _
      · refine .ite (fun _ => ?_) fun _ => .fail_bind
        refine .bind .advance fun _ _ => ?_
        refine .bind (.braced (keeps_fieldInit hM (ih true))) fun fields _ => ?_
        exact .bind (.spanFrom hM hstart) fun span _ => hend _
      · exact .bind (keeps_path hM) fun e _ => hend e
      · exact .bind (.unexpected (Q := fun _ => True)) fun e _ => hend e

lemma keeps_value (allowsObject : Bool) : Keeps M (value allowsObject) fun _ => True :=
  .bind .get fun _ _ => keeps_valueWithin hM allowsObject _

/-! ## Statements -/

lemma keeps_arguments : Keeps M arguments fun _ => True := by
  refine .bind (.expect _) fun _ _ => .bind (.accept _) fun _ _ => ?_
  refine .ite (fun _ => .pure trivial) fun _ => ?_
  refine .bind (.commaSeparated (keeps_value hM false)) fun _ _ => ?_
  exact .bind (.expect _) fun _ _ => .pure trivial

lemma keeps_call : Keeps M call fun _ => True := by
  refine .bind .here fun start hstart => .bind (keeps_path hM) fun callee hcallee => ?_
  refine .bind .peek fun k _ => ?_
  refine .ite (fun _ => .bind .peek fun _ _ => .fail_bind) fun _ => ?_
  refine .bind (keeps_arguments hM) fun _ _ => .bind (.spanFrom hM hcallee) fun _ _ => ?_
  exact .bind (.spanFrom hM hstart) fun _ _ => .pure trivial

lemma keeps_typedef : Keeps M typedef fun _ => True := by
  refine .bind .here fun start hstart => .bind (.expect _) fun _ _ => ?_
  refine .bind .name fun _ _ => .bind (.expect _) fun _ _ => ?_
  refine .bind (keeps_typedefType hM) fun _ _ => ?_
  exact .bind (.spanFrom hM hstart) fun _ _ => .pure trivial

lemma keeps_binding : Keeps M binding fun _ => True := by
  refine .bind .here fun start hstart => .bind (.expect _) fun _ _ => ?_
  refine .bind .name fun _ _ => .bind (.expect _) fun _ _ => ?_
  refine .bind (keeps_notObject (keeps_anyType hM)) fun _ _ => .bind (.accept _) fun _ _ => ?_
  refine .ite (fun _ => ?_) fun _ => ?_
  · refine .bind (.map (keeps_value hM true)) fun _ _ => ?_
    exact .bind (.spanFrom hM hstart) fun _ _ => .pure trivial
  · refine .bind (Q := fun _ => True) (.pure trivial) fun _ _ => ?_
    exact .bind (.spanFrom hM hstart) fun _ _ => .pure trivial

lemma keeps_statementWithin (depth : Nat) : Keeps M (statementWithin depth) fun _ => True := by
  induction depth with
  | zero => exact .fail
  | succ depth ih =>
      refine .bind .peek fun k _ => ?_
      split
      · exact keeps_typedef hM
      · exact keeps_binding hM
      · refine .bind .get fun _ _ => .ite (fun _ => ?_) fun _ => keeps_call hM
        refine .bind .here fun start hstart => .bind .name fun _ _ => ?_
        refine .bind .here fun bodyStart hbodyStart => .bind (.braced ih) fun _ _ => ?_
        refine .bind (.spanFrom hM hbodyStart) fun _ _ => ?_
        exact .bind (.spanFrom hM hstart) fun _ _ => .pure trivial
      · exact .unexpected

lemma keeps_statements (n : Nat) : Keeps M (statements n) fun _ => True := by
  induction n with
  | zero => exact .pure trivial
  | succ n ih =>
      refine .bind .peek fun k _ => ?_
      split
      · exact .pure trivial
      · refine .bind .get fun _ _ => .bind (keeps_statementWithin hM _) fun _ _ => ?_
        exact .bind ih fun _ _ => .pure trivial

/-- A fault in a program is at a place that is put together from those of its tokens and of its
end. -/
theorem keeps_program : Keeps M program fun _ => True := by
  refine .bind .here fun start hstart => .bind .get fun _ _ => ?_
  refine .bind (keeps_statements hM _) fun _ _ => ?_
  exact .bind .here fun _ _ => .pure trivial

end Parser

end TypedConfig
