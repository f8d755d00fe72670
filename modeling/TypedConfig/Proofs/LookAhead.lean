import TypedConfig.Proofs.ParserSound

/-!
# What the parser does not look at

The parser decides by the next token.  Only where a statement begins with a name does it look at one
more token, and then it takes the name, whatever the other token is.  So when it stops before a
token, with a result or with a fault, it has seen nothing of what stands behind that token.

**Two runs.** Two streams that begin with the same tokens are twins (`TokenStream.Twins`).  As long
as one of these tokens is left, a parser does the same on both (`Parser.Local`).

**Bounds.** The bounds of the two runs may differ, since they are numbers of tokens that are left.
A bound is never reached before the common tokens are taken if it is not less than their number.
-/

namespace TypedConfig

/-- Whether two streams begin with the same tokens, at least one, and go on with `b` and `b'`. -/
def TokenStream.Twins (b b' : List Token) (s s' : TokenStream) : Prop :=
  ∃ c ≠ [], s.rest = c ++ b ∧ s'.rest = c ++ b' ∧ s.last = s'.last

namespace TokenStream.Twins

variable {b b' : List Token} {s s' : TokenStream}

lemma kind (h : Twins b b' s s') : s.kind = s'.kind := by
  obtain ⟨_ | ⟨token, c⟩, hc, hs, hs', -⟩ := h
  · exact absurd rfl hc
  · rw [TokenStream.kind, TokenStream.kind, hs, hs']
    rfl

lemma rest_ne (h : Twins b b' s s') : s.rest ≠ [] := by
  obtain ⟨c, hc, hs, -⟩ := h
  rw [hs]
  exact fun hnil => hc (List.append_eq_nil_iff.mp hnil).1

lemma span (h : Twins b b' s s') : s.span = s'.span := by
  obtain ⟨_ | ⟨token, c⟩, hc, hs, hs', -⟩ := h
  · exact absurd rfl hc
  · rw [TokenStream.span, TokenStream.span, hs, hs']
    rfl

/-- One token is taken from both, and then no common one may be left. -/
lemma tail (h : Twins b b' s s') :
    s.tail.rest.length + 1 = s.rest.length ∧
      (b.length < s.tail.rest.length → Twins b b' s.tail s'.tail) := by
  obtain ⟨rest, stop, last⟩ := s
  obtain ⟨rest', stop', last'⟩ := s'
  obtain ⟨_ | ⟨token, c⟩, hc, hs, hs', -⟩ := h
  · exact absurd rfl hc
  · obtain rfl : rest = token :: (c ++ b) := hs
    obtain rfl : rest' = token :: (c ++ b') := hs'
    refine ⟨rfl, fun hlength => ⟨c, ?_, rfl, rfl, rfl⟩⟩
    rintro rfl
    exact absurd hlength (Nat.lt_irrefl _)

end TokenStream.Twins

namespace Parser

variable {α β : Type}

/-- The stream that a run leaves. -/
def left : EStateM.Result ParseError TokenStream α → TokenStream
  | .ok _ t | .error _ t => t

/-- Whether the second run ends as the first one does, with the same result or the same fault,
unless the first one leaves none of the tokens before `b`. -/
def Alike (b b' : List Token) : EStateM.Result ParseError TokenStream α →
    EStateM.Result ParseError TokenStream α → Prop
  | .ok x t, r' => b.length < t.rest.length → ∃ t', r' = .ok x t' ∧ t.Twins b b' t'
  | .error e t, r' => b.length < t.rest.length → ∃ t', r' = .error e t' ∧ t.Twins b b' t'

/-- Nothing is said of the second run if no token before `b` is left. -/
lemma alike_of_le {b b' : List Token} {r r' : EStateM.Result ParseError TokenStream α}
    (h : (left r).rest.length ≤ b.length) : Alike b b' r r' := by
  cases r <;> exact fun hlength => absurd hlength (Nat.not_lt_of_le h)

/-- Whether a parser takes tokens at most, and another one does the same on a twin of the stream if
no more than `n` tokens are common. -/
structure Local (n : Nat) (p p' : Parser α) : Prop where
  shrinks : ∀ s, (left (p s)).rest.length ≤ s.rest.length
  alike : ∀ {b b' : List Token} {s s' : TokenStream}, s.Twins b b' s' →
    s.rest.length ≤ n + b.length → Alike b b' (p s) (p' s')

/-- Whether a parser takes a token whenever it gives a result. -/
def TakesSome (p : Parser α) : Prop :=
  ∀ {s t : TokenStream} {x : α}, p s = .ok x t → t.rest.length < s.rest.length

lemma takesSome_of_takes {p : Parser α} {bare : α → α} {P : Grammar.Phrase α} (hp : p.Takes bare P)
    (hP : ∀ {ks x rest}, P ks x rest → Grammar.Behind rest ks) : p.TakesSome := by
  intro s t x h
  have hlength := (hP (hp h)).length_lt
  rwa [TokenStream.length_kinds, TokenStream.length_kinds] at hlength

lemma takesSome_arrayAndName : arrayAndName.TakesSome := fun h =>
  takesSome_of_takes takes_arrayAndName Grammar.TypeName.behind h

lemma takesSome_fieldDecl (d : Nat) : (fieldDecl (notObject (typeWithin d))).TakesSome := by
  have hplain : (notObject (typeWithin d)).Takes TypeExpr.bare Grammar.PlainType := by
    intro s t x h
    obtain ⟨hx, hobject⟩ := notObject_ok.mp h
    exact (takes_typeWithin hx).1 hobject
  intro s t x h
  exact takesSome_of_takes (takes_fieldDecl hplain) Grammar.ShapeField.behind h

lemma takesSome_path : path.TakesSome := fun h =>
  takesSome_of_takes takes_path Grammar.Path.behind h

lemma takesSome_fieldInit (d : Nat) : (fieldInit (valueWithin true d)).TakesSome := fun h =>
  takesSome_of_takes (takes_fieldInit (takes_valueWithin true d)) Grammar.ObjectField.behind h

lemma takesSome_statementWithin (d : Nat) : (statementWithin d).TakesSome := fun h =>
  takesSome_of_takes (takes_statementWithin d) Grammar.Statement.behind h

namespace Local

variable {n m : Nat} {p p' q q' : Parser α} {f f' : α → Parser β}

lemma mono (h : Local n p p') (hm : m ≤ n) : Local m p p' where
  shrinks := h.shrinks
  alike hs hlength := h.alike hs (by omega)

/-- If no tokens are common, nothing is said of the other parser. -/
lemma of_zero (h : Local 0 p q) : Local 0 p p' where
  shrinks := h.shrinks
  alike hs hlength := by
    obtain ⟨c, hc, hrest, -⟩ := hs
    rw [hrest, List.length_append] at hlength
    exact absurd (List.eq_nil_of_length_eq_zero (by omega)) hc

lemma pure (a : α) : Local n (Pure.pure a) (Pure.pure a) where
  shrinks _ := Nat.le_refl _
  alike hs _ _ := ⟨_, rfl, hs⟩

lemma throw (e : ParseError) : Local n (MonadExcept.throw e : Parser α) (MonadExcept.throw e) where
  shrinks _ := Nat.le_refl _
  alike hs _ _ := ⟨_, rfl, hs⟩

/-- What comes first may take common tokens, so that no more than `m` are left to what comes behind
it. -/
lemma bind_of_le (hp : Local n p p')
    (hle : ∀ {s t : TokenStream} {x : α}, s.rest ≠ [] → p s = .ok x t →
      t.rest.length + n ≤ s.rest.length + m)
    (hf : ∀ x, Local m (f x) (f' x)) : Local n (p >>= f) (p' >>= f') where
  shrinks s := by
    have hfirst := hp.shrinks s
    simp only [Bind.bind, EStateM.bind]
    cases hrun : p s with
    | ok x t =>
        rw [hrun] at hfirst
        exact Nat.le_trans ((hf x).shrinks t) hfirst
    | error e t =>
        rw [hrun] at hfirst
        exact hfirst
  alike {b b' s s'} hs hlength := by
    have hfirst := hp.alike hs hlength
    simp only [Bind.bind, EStateM.bind]
    cases hrun : p s with
    | error e t =>
        rw [hrun] at hfirst
        intro ht
        obtain ⟨t', hrun', htwins⟩ := hfirst ht
        rw [hrun']
        exact ⟨t', rfl, htwins⟩
    | ok x t =>
        rw [hrun] at hfirst
        have hshorter := hle hs.rest_ne hrun
        by_cases ht : b.length < t.rest.length
        · obtain ⟨t', hrun', htwins⟩ := hfirst ht
          rw [hrun']
          exact (hf x).alike htwins (by omega)
        · -- the common tokens are taken already, and no parser gives them back
          exact alike_of_le (Nat.le_trans ((hf x).shrinks t) (Nat.le_of_not_lt ht))

lemma bind (hp : Local n p p') (hf : ∀ x, Local n (f x) (f' x)) :
    Local n (p >>= f) (p' >>= f') := by
  refine hp.bind_of_le (fun {s t x} _ hrun => ?_) hf
  have hshrinks := hp.shrinks s
  rw [hrun] at hshrinks
  exact Nat.add_le_add_right hshrinks n

/-- What takes a token leaves one common token less. -/
lemma bind_lt (hp : Local n p p')
    (hlt : ∀ {s t : TokenStream} {x : α}, s.rest ≠ [] → p s = .ok x t →
      t.rest.length < s.rest.length)
    (hf : ∀ x, Local (n - 1) (f x) (f' x)) : Local n (p >>= f) (p' >>= f') := by
  refine hp.bind_of_le (fun hs hrun => ?_) hf
  have hshorter := hlt hs hrun
  omega

lemma ite {c : Prop} [Decidable c] (hp : c → Local n p p') (hq : ¬ c → Local n q q') :
    Local n (if c then p else q) (if c then p' else q') := by
  split
  · exact hp ‹_›
  · exact hq ‹_›

/-! ## Primitives -/

lemma peek : Local n peek peek where
  shrinks _ := Nat.le_refl _
  alike {b b' s s'} hs _ _ := ⟨s', by rw [hs.kind]; rfl, hs⟩

lemma here : Local n here here where
  shrinks _ := Nat.le_refl _
  alike {b b' s s'} hs _ _ := ⟨s', by rw [hs.span]; rfl, hs⟩

lemma spanFrom (start : Span) : Local n (spanFrom start) (spanFrom start) where
  shrinks _ := Nat.le_refl _
  alike {b b' s s'} hs _ _ := by
    obtain ⟨c, hc, hrest, hrest', hlast⟩ := hs
    exact ⟨s', by rw [hlast]; rfl, c, hc, hrest, hrest', hlast⟩

lemma advance : Local n advance advance where
  shrinks s := s.length_tail_le
  alike hs _ ht := ⟨_, rfl, hs.tail.2 ht⟩

lemma fail (fault : ParseFault) : Local n (fail fault : Parser α) (fail fault) :=
  here.bind fun _ => .throw _

lemma unexpected (expected : String) : Local n (unexpected expected : Parser α)
    (unexpected expected) := by
  refine peek.bind fun k => ?_
  split <;> exact .fail _

/-- Behind a token that has been taken one common token less is left. -/
lemma bind_advance {f f' : Unit → Parser β} (hf : Local (n - 1) (f ()) (f' ())) :
    Local n (Parser.advance >>= f) (Parser.advance >>= f') := by
  refine advance.bind_lt (fun {s t x} hs hrun => ?_) fun _ => hf
  obtain ⟨_ | ⟨token, rest⟩, stop, last⟩ := s
  · exact absurd rfl hs
  · cases hrun
    exact Nat.lt_succ_self _

lemma bind_accept {k : TokenKind} {f f' : Bool → Parser β}
    (htrue : Local (n - 1) (f true) (f' true)) (hfalse : Local n (f false) (f' false)) :
    Local n (accept k >>= f) (accept k >>= f') := by
  simp only [accept, bind_assoc]
  refine peek.bind fun k' => ?_
  split
  · simp only [bind_assoc, pure_bind]
    exact bind_advance htrue
  · simp only [pure_bind]
    exact hfalse

/-- What comes behind a token that may be there. -/
lemma accept_ite {k : TokenKind} (hp : Local (n - 1) p p') (hq : Local n q q') :
    Local n (accept k >>= fun there => if there then p else q)
      (accept k >>= fun there => if there then p' else q') := by
  refine bind_accept ?_ ?_
  · simpa only [if_true] using hp
  · simpa only [Bool.false_eq_true, if_false] using hq

lemma bind_expect {k : TokenKind} {f f' : Unit → Parser β} (hf : Local (n - 1) (f ()) (f' ())) :
    Local n (expect k >>= f) (expect k >>= f') := by
  simp only [expect, bind_assoc]
  refine peek.bind fun k' => ?_
  split
  · exact bind_advance hf
  · exact (Local.unexpected _).bind_lt (fun _ h => (unexpected_ok.mp h).elim) fun _ => hf

lemma bind_name {f f' : String → Parser β} (hf : ∀ x, Local (n - 1) (f x) (f' x)) :
    Local n (name >>= f) (name >>= f') := by
  simp only [name, bind_assoc]
  refine peek.bind fun k => ?_
  split
  · simp only [bind_assoc, pure_bind]
    exact bind_advance (hf _)
  · exact (Local.unexpected _).bind_lt (fun _ h => (unexpected_ok.mp h).elim) fun _ => hf _

/-- The number of tokens that are left is not less than that of common ones, and nothing else is
known of it. -/
lemma bind_length {f g : Nat → Parser α}
    (hf : ∀ m l l', m ≤ n → m ≤ l → m ≤ l' → Local m (f l) (g l')) :
    Local n (get >>= fun s => f s.rest.length) (get >>= fun s => g s.rest.length) where
  shrinks s := (hf 0 s.rest.length 0 (Nat.zero_le _) (Nat.zero_le _) (Nat.zero_le _)).shrinks s
  alike {b b' s s'} hs hlength := by
    obtain ⟨c, -, hrest, hrest', -⟩ := id hs
    have hs' : s.rest.length = c.length + b.length := by rw [hrest, List.length_append]
    have hs'' : s'.rest.length = c.length + b'.length := by rw [hrest', List.length_append]
    refine (hf c.length s.rest.length s'.rest.length ?_ ?_ ?_).alike hs (Nat.le_of_eq hs') <;> omega

/-- Parsers with a bound on the number of their steps are local if each step is, as long as it takes
a token before the next one. -/
lemma of_steps {ι : Type} {p q : ι → Nat → Parser α} (hzero : ∀ i, Local 0 (p i 0) (p i 0))
    (hstep : ∀ m l l', m ≤ n → (∀ i, Local (m - 1) (p i l) (q i l')) →
      ∀ i, Local m (p i (l + 1)) (q i (l' + 1)))
    (i : ι) {l l' : Nat} (hl : n ≤ l) (hl' : n ≤ l') : Local n (p i l) (q i l') := by
  have hsteps (m : Nat) (hm : m ≤ n) (hl : m ≤ l) (hl' : m ≤ l') : Local m (p i l) (q i l') := by
    clear * - hzero hstep hm hl hl'
    induction l generalizing i m l' with
    | zero =>
        obtain rfl : m = 0 := Nat.le_zero.mp hl
        exact (hzero i).of_zero
    | succ l ih =>
        cases l' with
        | zero =>
            obtain rfl : m = 0 := Nat.le_zero.mp hl'
            refine (hstep 0 l 0 hm (fun i => ?_) i).of_zero
            exact ih i 0 hm (Nat.zero_le _) (Nat.zero_le _)
        | succ l' =>
            refine hstep m l l' hm (fun i => ?_) i
            exact ih i (m - 1) (by omega) (by omega) (by omega)
  exact hsteps n (Nat.le_refl n) hl hl'

/-! ## Items -/

/-- Items are as local as each of them. -/
lemma itemsToBrace {item item' : Parser α} (hsome : item.TakesSome)
    (hitem : Local n item item') {l l' : Nat} (hl : n ≤ l) (hl' : n ≤ l') :
    Local n (itemsToBrace item l) (itemsToBrace item' l') := by
  refine of_steps (p := fun _ => Parser.itemsToBrace item)
    (q := fun _ => Parser.itemsToBrace item') (fun _ => .fail _) ?_ () hl hl'
  intro m l l' hm ih _
  refine peek.bind fun kind => ?_
  split
  · exact bind_advance (.pure [])
  · exact .fail _
  · exact (hitem.mono hm).bind_lt (fun _ => hsome) fun x => (ih ()).bind fun xs => .pure _

lemma braced {item item' : Parser α} (hsome : item.TakesSome)
    (hitem : Local (n - 1) item item') : Local n (braced item) (braced item') := by
  refine bind_expect (bind_length (f := fun l => Parser.itemsToBrace item (l + 1))
    (g := fun l => Parser.itemsToBrace item' (l + 1)) fun m l l' hm hl hl' => ?_)
  exact itemsToBrace hsome (hitem.mono hm) (Nat.le_succ_of_le hl) (Nat.le_succ_of_le hl')

lemma itemsAfterComma {item : Parser α} (hitem : Local n item item) {l l' : Nat} (hl : n ≤ l)
    (hl' : n ≤ l') : Local n (itemsAfterComma item l) (itemsAfterComma item l') := by
  refine of_steps (p := fun _ => Parser.itemsAfterComma item)
    (q := fun _ => Parser.itemsAfterComma item) (fun _ => .pure []) ?_ () hl hl'
  intro m l l' hm ih _
  refine accept_ite ((hitem.mono ?_).bind fun x => (ih ()).bind fun xs => .pure _) (.pure [])
  exact Nat.le_trans (Nat.sub_le m 1) hm

lemma commaSeparated {item : Parser α} (hitem : Local n item item) :
    Local n (commaSeparated item) (commaSeparated item) := by
  refine hitem.bind fun x => bind_length (f := fun l => do
    let xs ← Parser.itemsAfterComma item l
    return x :: xs) (g := fun l => do
    let xs ← Parser.itemsAfterComma item l
    return x :: xs) fun m l l' hm hl hl' => ?_
  exact (itemsAfterComma (hitem.mono hm) hl hl').bind fun xs => .pure _

end Local

/-! ## Types -/

variable {n l l' : Nat}

lemma local_notObject {type type' : Parser TypeExpr} (h : Local n type type') :
    Local n (notObject type) (notObject type') := by
  refine h.bind fun t => ?_
  split
  · exact (Local.throw _).bind fun _ => .pure t
  · exact .pure t

lemma local_fieldDecl {type type' : Parser TypeExpr} (h : Local n type type') :
    Local n (fieldDecl type) (fieldDecl type') := by
  refine Local.here.bind fun start => .bind_name fun name => .bind_expect ?_
  refine (h.mono (by omega)).bind fun t => (Local.spanFrom start).bind fun span => ?_
  exact .bind_accept (.pure _) (.pure _)

lemma local_arrayAndName : Local n arrayAndName arrayAndName := by
  refine .accept_ite (.accept_ite ?_ ?_) (.bind_name fun name => .pure _)
  · exact .bind_name fun name => .pure _
  · exact .bind_name fun name => .bind_expect (.pure _)

lemma local_typeWithin (hl : n ≤ l) (hl' : n ≤ l') : Local n (typeWithin l) (typeWithin l') := by
  refine Local.of_steps (p := fun _ => typeWithin) (q := fun _ => typeWithin) (fun _ => .fail _) ?_
    () hl hl'
  intro m l l' _ ih _
  refine Local.here.bind fun start => ?_
  refine local_arrayAndName.bind_lt (fun _ => takesSome_arrayAndName) fun x => ?_
  refine .ite (fun _ => ?_) fun _ => ?_
  · refine (Local.braced (takesSome_fieldDecl l) ?_).bind fun fields => (Local.spanFrom start).bind fun span => ?_
    · exact (local_fieldDecl (local_notObject (ih ()))).mono (Nat.sub_le _ _)
    · refine Local.peek.bind fun k => ?_
      split
      · exact (Local.fail _).bind fun _ => .pure _
      · exact .pure _
  · exact .bind_accept ((Local.spanFrom start).bind fun span => .pure _)
      ((Local.spanFrom start).bind fun span => .pure _)

lemma local_anyType : Local n anyType anyType :=
  .bind_length (f := fun l => typeWithin (l + 1)) (g := fun l => typeWithin (l + 1))
    fun _ _ _ _ hl hl' => local_typeWithin (Nat.le_succ_of_le hl) (Nat.le_succ_of_le hl')

lemma local_typedefType : Local n typedefType typedefType := by
  refine local_anyType.bind fun t => ?_
  split
  · exact (Local.throw _).bind fun _ => .pure t
  · exact .pure t

/-! ## Values -/

lemma local_members {start : Span} {path : Expr} (hl : n ≤ l) (hl' : n ≤ l') :
    Local n (members start path l) (members start path l') := by
  refine Local.of_steps (p := members start) (q := members start) (fun path => .pure path) ?_ path
    hl hl'
  intro m l l' _ ih path
  refine .accept_ite ?_ (.pure path)
  refine .bind_name fun name => (Local.spanFrom start).bind fun span => ?_
  exact (ih _).mono (Nat.sub_le _ _)

/-- What follows the first name of a path. -/
lemma local_membersOf (start : Span) (name : String) :
    Local n (do members start (.name name start) (← get).rest.length)
      (do members start (.name name start) (← get).rest.length) :=
  .bind_length (f := members start (.name name start)) (g := members start (.name name start))
    fun _ _ _ _ hl hl' => local_members hl hl'

lemma local_path : Local n path path :=
  Local.here.bind fun start => .bind_name fun name => local_membersOf start name

lemma local_fieldInit {value value' : Parser Expr} (h : Local n value value') :
    Local n (fieldInit value) (fieldInit value') := by
  refine Local.here.bind fun start => .bind_name fun name => .bind_expect ?_
  refine (h.mono (by omega)).bind fun v => (Local.spanFrom start).bind fun span => ?_
  exact .bind_accept (.pure _) (.pure _)

lemma local_valueWithin {allowsObject : Bool} (hl : n ≤ l) (hl' : n ≤ l') :
    Local n (valueWithin allowsObject l) (valueWithin allowsObject l') := by
  refine Local.of_steps (p := valueWithin) (q := valueWithin) (fun _ => .fail _) ?_ allowsObject
    hl hl'
  intro m l l' _ ih allowsObject
  have hend (e : Expr) (m : Nat) : Local m (do
      if (← peek) = .symbol .openParen then fail .callAsValue
      return e) (do
      if (← peek) = .symbol .openParen then fail .callAsValue
      return e) := by
    refine Local.peek.bind fun k => ?_
    split
    · exact (Local.fail _).bind fun _ => .pure e
    · exact .pure e
  refine Local.here.bind fun start => Local.peek.bind fun k => ?_
  split
  · exact .bind_advance (hend _ _)
  · refine .ite (fun _ => ?_) fun _ => (Local.fail _).bind fun e => hend e m
    refine .bind_advance ((Local.braced (takesSome_fieldInit l) ?_).bind fun fields => ?_)
    · exact (local_fieldInit (ih true)).mono (Nat.sub_le _ _)
    · exact (Local.spanFrom start).bind fun span => hend _ _
  · exact local_path.bind fun e => hend e m
  · exact (Local.unexpected _).bind fun e => hend e m

lemma local_value (allowsObject : Bool) : Local n (value allowsObject) (value allowsObject) :=
  .bind_length (f := fun l => valueWithin allowsObject (l + 1))
    (g := fun l => valueWithin allowsObject (l + 1))
    fun _ _ _ _ hl hl' => local_valueWithin (Nat.le_succ_of_le hl) (Nat.le_succ_of_le hl')

/-! ## Statements -/

lemma local_arguments : Local n arguments arguments := by
  refine .bind_expect (.accept_ite (.pure []) ?_)
  exact (Local.commaSeparated (local_value false)).bind fun es => .bind_expect (.pure es)

/-- What `call` does when it has read the path. -/
def callOf (start : Span) (callee : Expr) : Parser Stmt := do
  if (← peek) ≠ .symbol .openParen then
    fail (.unexpectedToken "'(' or '\x7b'" (← peek).text)
  let args ← arguments
  let span ← spanFrom callee.span
  return .effect (.call callee args span) (← spanFrom start)

lemma local_callOf (start : Span) (callee : Expr) :
    Local n (callOf start callee) (callOf start callee) := by
  refine Local.peek.bind fun k => ?_
  have hrest : Local n (do
      let args ← arguments
      let span ← spanFrom callee.span
      return Stmt.effect (.call callee args span) (← spanFrom start)) (do
      let args ← arguments
      let span ← spanFrom callee.span
      return Stmt.effect (.call callee args span) (← spanFrom start)) :=
    local_arguments.bind fun es => (Local.spanFrom _).bind fun span =>
      (Local.spanFrom start).bind fun span' => .pure _
  refine .ite (fun _ => ?_) fun _ => hrest
  exact Local.peek.bind fun k => (Local.fail _).bind fun _ => hrest

lemma local_call : Local n call call :=
  Local.here.bind fun start => local_path.bind fun callee => local_callOf start callee

lemma local_typedef : Local n typedef typedef := by
  refine Local.here.bind fun start => .bind_expect (.bind_name fun name => .bind_expect ?_)
  exact local_typedefType.bind fun t => (Local.spanFrom start).bind fun span => .pure _

lemma local_binding : Local n binding binding := by
  refine Local.here.bind fun start => .bind_expect (.bind_name fun name => .bind_expect ?_)
  refine (local_notObject local_anyType).bind fun t => ?_
  have hrest (m : Nat) (value : Option Expr) : Local m (do
      return Stmt.binding name t value (← spanFrom start)) (do
      return Stmt.binding name t value (← spanFrom start)) :=
    (Local.spanFrom start).bind fun span => .pure _
  refine .bind_accept ?_ ?_
  · simp only [if_true, map_eq_pure_bind, bind_assoc, pure_bind]
    exact (local_value true).bind fun e => hrest _ (some e)
  · simp only [Bool.false_eq_true, if_false, pure_bind]
    exact hrest _ none

/-- Whether a parser takes the next token if it is a name, whatever comes of it. -/
def TakesName (p : Parser α) : Prop :=
  ∀ {s : TokenStream} {x : String}, s.kind = .name x → (left (p s)).rest.length < s.rest.length

lemma takesName_bind {f : String → Parser α} (hf : ∀ x, Local 0 (f x) (f x)) :
    TakesName (name >>= f) := by
  intro s x hx
  obtain ⟨_ | ⟨⟨k, span⟩, rest⟩, stop, last⟩ := s
  · cases hx
  · obtain rfl : k = .name x := hx
    exact Nat.lt_succ_of_le ((hf x).shrinks _)

lemma takesName_call : call.TakesName := by
  intro s x hx
  have hcall : call s = (name >>= fun x => (do
      members s.span (.name x s.span) (← get).rest.length) >>= callOf s.span) s := by
    rw [← bind_assoc]
    rfl
  rw [hcall]
  exact takesName_bind (fun x => (local_membersOf s.span x).bind (local_callOf s.span)) hx

/-- The second token decides nothing that is seen before the first one is taken. -/
lemma local_beginsScope {p p' q q' : Parser α} (hp : Local n p p') (hq : Local n q q')
    (hpname : p.TakesName) (hqname : q.TakesName) :
    Local n (get >>= fun s => if beginsScope s then p else q)
      (get >>= fun s => if beginsScope s then p' else q') where
  shrinks s := by
    rw [get_bind]
    split
    · exact hp.shrinks s
    · exact hq.shrinks s
  alike {b b' s s'} hs hlength := by
    rw [get_bind, get_bind]
    by_cases hsecond : b.length < s.tail.rest.length
    · have hscope : beginsScope s = beginsScope s' := by
        rw [Bool.eq_iff_iff, beginsScope_iff, beginsScope_iff, hs.kind, (hs.tail.2 hsecond).kind]
      rw [← hscope]
      split
      · exact hp.alike hs hlength
      · exact hq.alike hs hlength
    · have hone := hs.tail.1
      by_cases hname : ∃ x, s.kind = .name x
      · -- no common token is left when the name is taken
        obtain ⟨x, hx⟩ := hname
        have htakes : (left (if beginsScope s then p s else q s)).rest.length < s.rest.length := by
          split
          · exact hpname hx
          · exact hqname hx
        have hle : (left (if beginsScope s then p s else q s)).rest.length ≤ b.length := by omega
        split at hle <;> rename_i hscope
        · rw [if_pos hscope]
          exact alike_of_le hle
        · rw [if_neg hscope]
          exact alike_of_le hle
      · have hscope : beginsScope s = false := by
          rw [Bool.eq_false_iff]
          exact fun h => hname (beginsScope_iff.mp h).1
        have hscope' : beginsScope s' = false := by
          rw [Bool.eq_false_iff]
          exact fun h => hname (hs.kind ▸ (beginsScope_iff.mp h).1)
        rw [hscope, hscope']
        exact hq.alike hs hlength

/-- What is done for a scope when its name has been read. -/
def scopeOf (start : Span) (name : String) (item : Parser Stmt) : Parser Stmt := do
  let bodyStart ← here
  let body ← braced item
  return .scope name body (← spanFrom bodyStart) (← spanFrom start)

lemma local_scopeOf (start : Span) (name : String) {item item' : Parser Stmt}
    (hsome : item.TakesSome) (hitem : Local n item item') :
    Local n (scopeOf start name item) (scopeOf start name item') := by
  refine Local.here.bind fun bodyStart => ?_
  refine (Local.braced hsome (hitem.mono (Nat.sub_le n 1))).bind fun body => ?_
  exact (Local.spanFrom bodyStart).bind fun span => (Local.spanFrom start).bind fun span' => .pure _

lemma local_statementWithin (hl : n ≤ l) (hl' : n ≤ l') :
    Local n (statementWithin l) (statementWithin l') := by
  refine Local.of_steps (p := fun _ => statementWithin) (q := fun _ => statementWithin)
    (fun _ => .fail _) ?_ () hl hl'
  intro m l l' _ ih _
  have hsome := @takesSome_statementWithin l
  refine Local.peek.bind fun k => ?_
  split
  · exact local_typedef
  · exact local_binding
  · refine local_beginsScope ?_ local_call (fun {s x} hx => ?_) takesName_call
    · exact Local.here.bind fun start => .bind_name fun name =>
        local_scopeOf start name hsome (ih ())
    · have hitem : Local 0 (statementWithin l) (statementWithin l) :=
        ((ih ()).mono (Nat.zero_le _)).of_zero
      exact takesName_bind (fun name => local_scopeOf s.span name hsome hitem) hx
  · exact .unexpected _

lemma local_statements (hl : n ≤ l) (hl' : n ≤ l') : Local n (statements l) (statements l') := by
  refine Local.of_steps (p := fun _ => statements) (q := fun _ => statements) (fun _ => .pure []) ?_
    () hl hl'
  intro m l l' _ ih _
  refine Local.peek.bind fun k => ?_
  split
  · exact .pure []
  · have hstatement : Local m (do statementWithin ((← get).rest.length + 1))
        (do statementWithin ((← get).rest.length + 1)) :=
      .bind_length (f := fun l => statementWithin (l + 1)) (g := fun l => statementWithin (l + 1))
        fun _ _ _ _ hl hl' => local_statementWithin (Nat.le_succ_of_le hl) (Nat.le_succ_of_le hl')
    have hsome : TakesSome (do statementWithin ((← get).rest.length + 1)) :=
      fun h => takesSome_statementWithin _ h
    have hsteps := hstatement.bind_lt (fun _ => hsome) fun st =>
      (ih ()).bind fun ss => .pure (st :: ss)
    simpa only [bind_assoc] using hsteps

/-- A program that is read up to a token does not depend on what stands behind the token. -/
theorem local_program : Local n program program := by
  refine Local.here.bind fun start => ?_
  have hstatements : Local n (do statements (← get).rest.length)
      (do statements (← get).rest.length) :=
    .bind_length (f := statements) (g := statements) fun _ _ _ _ hl hl' => local_statements hl hl'
  have hprogram := hstatements.bind fun ss => Local.here.bind fun stop =>
    Local.pure (Block.mk ss (start.merge stop))
  simpa only [bind_assoc] using hprogram

end Parser

end TypedConfig
