import TypedConfig.Proofs.Beginnings
import TypedConfig.Proofs.ParserSound
import TypedConfig.Proofs.ParserSpans

/-!
# What can still become a program

When the parser stops with a fault, what it has taken so far is the beginning of a program.  This is
shown for each construct: a parser that gives a result has taken a whole phrase, and one that finds
a fault has taken what begins one (`Parser.Builds`).

**Where faults are.** A fault is at the token before which the parser has stopped.  If no token is
left, the fault is that the input has ended, except behind the path of a call, where an opening
parenthesis is missed instead (`Parser.Stuck`).

**No shapes.** A fault about a shape is found behind its type and reported where the type begins.
So the name `object` is assumed not to occur (`TokenStream.Plain`), and then no type is a shape.
-/

namespace TypedConfig

open Grammar

/-- Whether the tokens of a stream are no ends of the input and do not name shapes. -/
def TokenStream.Plain (s : TokenStream) : Prop :=
  ∀ token ∈ s.rest, token.kind ≠ .endOfInput ∧ token.kind ≠ .name objectName

namespace TokenStream

variable {s t : TokenStream} {ts : List Token}

lemma Took.plain (h : s.Took ts t) (hs : s.Plain) : t.Plain := by
  intro token htoken
  refine hs token ?_
  rw [h.rest]
  exact List.mem_append_right ts htoken

lemma Took.length_lt (h : s.Took ts t) (hts : ts ≠ []) : t.rest.length < s.rest.length := by
  have hlength := List.length_pos_iff.mpr hts
  rw [h.rest, List.length_append]
  omega

lemma Plain.name_ne {n : String} (hs : s.Plain) (h : s.kind = .name n) : n ≠ objectName := by
  rintro rfl
  obtain ⟨_ | ⟨token, rest⟩, stop, last⟩ := s
  · cases h
  · exact (hs token List.mem_cons_self).2 h

lemma Plain.rest_eq_nil (hs : s.Plain) : s.kind = .endOfInput ↔ s.rest = [] := by
  obtain ⟨_ | ⟨token, rest⟩, stop, last⟩ := s
  · exact iff_of_true rfl rfl
  · exact iff_of_false (hs token List.mem_cons_self).1 nofun

lemma Plain.tail (hs : s.Plain) : s.tail.Plain := by
  obtain ⟨_ | ⟨token, rest⟩, stop, last⟩ := s
  · exact hs
  · exact fun token htoken => hs token (List.mem_cons_of_mem _ htoken)

end TokenStream

namespace Parser

variable {α β : Type} {s t : TokenStream} {done ks ls : List TokenKind}
  {L L' : List TokenKind → Prop}

/-- The fault where the input ends behind the path of a call. -/
def missingCall : ParseFault := .unexpectedToken "'(' or '\x7b'" TokenKind.endOfInput.text

/-- What a fault says of the tokens that have been taken and of the stream where it is found. -/
structure Stuck (L : List TokenKind → Prop) (ks : List TokenKind) (e : ParseError)
    (t : TokenStream) : Prop where
  begins : Begins L ks
  span : e.span = t.span
  rest_eq_nil : e.cause = .unexpectedEnd → t.rest = []
  cause : t.rest = [] → e.cause = .unexpectedEnd ∨
    e.cause = missingCall ∧ Begins L (ks ++ [.symbol .openParen])

lemma Stuck.behind {e : ParseError} (h : Stuck L' ls e t)
    (hL : ∀ {ls}, L' ls → Begins L (done ++ ls)) : Stuck L (done ++ ls) e t where
  begins := h.begins.behind hL
  span := h.span
  rest_eq_nil := h.rest_eq_nil
  cause ht := (h.cause ht).imp_right fun ⟨hcause, hcall⟩ =>
    ⟨hcause, by rw [List.append_assoc]; exact hcall.behind hL⟩

/-- Whether a run makes something of the tokens that have been taken before it and of those that it
takes, or can still do so when it finds a fault. -/
def Built (s : TokenStream) (done : List TokenKind) (L : List TokenKind → Prop) :
    EStateM.Result ParseError TokenStream α → Prop
  | .ok _ t => ∃ ts, s.Took ts t ∧ L (done ++ ts.map (·.kind))
  | .error e t => ∃ ts, s.Took ts t ∧ Stuck L (done ++ ts.map (·.kind)) e t

lemma Built.after {ts : List Token} {r : EStateM.Result ParseError TokenStream α}
    (h : Built t (done ++ ts.map (·.kind)) L r) (htook : s.Took ts t) : Built s done L r := by
  cases r with
  | ok x u =>
      obtain ⟨us, htook', hdone⟩ := h
      refine ⟨ts ++ us, htook.trans htook', ?_⟩
      rwa [List.map_append, ← List.append_assoc]
  | error e u =>
      obtain ⟨us, htook', hstuck⟩ := h
      refine ⟨ts ++ us, htook.trans htook', ?_⟩
      rwa [List.map_append, ← List.append_assoc]

/-- Whether a parser does so on a stream without shapes. -/
def Builds (p : Parser α) (s : TokenStream) (done : List TokenKind) (L : List TokenKind → Prop) :
    Prop :=
  s.Plain → Built s done L (p s)

namespace Builds

variable {p q : Parser α}

lemma pure {a : α} (h : L done) : Builds (Pure.pure a) s done L :=
  fun _ => ⟨[], .refl s, by rwa [List.map_nil, List.append_nil]⟩

/-- A fault says that the input has ended, or it is at a token, or it is about a call. -/
lemma fail {fault : ParseFault} (h : Begins L done)
    (hend : fault = .unexpectedEnd → s.kind = .endOfInput)
    (hfault : s.kind = .endOfInput → fault = .unexpectedEnd ∨
      fault = missingCall ∧ Begins L (done ++ [.symbol .openParen])) :
    Builds (Parser.fail fault : Parser α) s done L := by
  intro hplain
  refine ⟨[], .refl s, ?_⟩
  rw [List.map_nil, List.append_nil]
  exact ⟨h, rfl, fun hcause => hplain.rest_eq_nil.mp (hend hcause),
    fun hs => hfault (hplain.rest_eq_nil.mpr hs)⟩

lemma fail_end (h : Begins L done) (hs : s.kind = .endOfInput) :
    Builds (Parser.fail .unexpectedEnd : Parser α) s done L :=
  .fail h (fun _ => hs) fun _ => .inl rfl

lemma fail_token {fault : ParseFault} (h : Begins L done) (hs : s.kind ≠ .endOfInput)
    (hfault : fault ≠ .unexpectedEnd) : Builds (Parser.fail fault : Parser α) s done L :=
  .fail h (fun hcause => absurd hcause hfault) fun hend => absurd hend hs

lemma unexpected {expected : String} (h : Begins L done) :
    Builds (Parser.unexpected expected : Parser α) s done L := by
  rw [Builds, Parser.unexpected, peek_bind]
  cases hk : s.kind with
  | endOfInput => exact fail_end (α := α) h hk
  | _ => exact fail_token h (by simp [hk]) (by simp)

/-- A fault ends all of it, and what comes behind it is never done. -/
lemma error_bind {f : α → Parser β} (hp : Builds p s done L)
    (hok : ∀ {x t}, p s ≠ .ok x t) : Builds (p >>= f) s done L := by
  intro hs
  have hfirst := hp hs
  simp only [Bind.bind, EStateM.bind]
  cases hrun : p s with
  | ok x t => exact absurd hrun hok
  | error e t =>
      rw [hrun] at hfirst
      exact hfirst

lemma fail_bind {fault : ParseFault} {f : α → Parser β}
    (h : Builds (Parser.fail fault : Parser α) s done L) :
    Builds (Parser.fail fault >>= f) s done L := h.error_bind fun hok => fail_ok.mp hok

lemma unexpected_bind {expected : String} {f : α → Parser β} (h : Begins L done) :
    Builds (Parser.unexpected expected >>= f) s done L :=
  (Builds.unexpected h).error_bind fun hok => unexpected_ok.mp hok

/-- What begins a part, with what has been taken before it, begins the whole. -/
lemma bind {f : α → Parser β} (hp : Builds p s [] L')
    (hL : ∀ {ls}, L' ls → Begins L (done ++ ls))
    (hf : ∀ {x t ts}, p s = .ok x t → s.Took ts t → L' (ts.map (·.kind)) →
      Builds (f x) t (done ++ ts.map (·.kind)) L) :
    Builds (p >>= f) s done L := by
  intro hs
  have hfirst := hp hs
  simp only [Bind.bind, EStateM.bind]
  cases hrun : p s with
  | error e t =>
      rw [hrun] at hfirst
      obtain ⟨ts, htook, hstuck⟩ := hfirst
      exact ⟨ts, htook, hstuck.behind hL⟩
  | ok x t =>
      rw [hrun] at hfirst
      obtain ⟨ts, htook, hls⟩ := hfirst
      exact (hf hrun htook hls (htook.plain hs)).after htook

/-- The last part makes the whole. -/
lemma part (hp : Builds p s [] L') (hL : ∀ {ls}, L' ls → L (done ++ ls)) : Builds p s done L := by
  intro hs
  have hlast := hp hs
  cases hrun : p s with
  | ok x t =>
      rw [hrun] at hlast
      obtain ⟨ts, htook, hls⟩ := hlast
      exact ⟨ts, htook, hL hls⟩
  | error e t =>
      rw [hrun] at hlast
      obtain ⟨ts, htook, hstuck⟩ := hlast
      exact ⟨ts, htook, hstuck.behind fun hls => begins_of (hL hls)⟩

/-- A stream without shapes may be assumed. -/
lemma of_plain (h : s.Plain → Builds p s done L) : Builds p s done L := fun hs => h hs hs

/-! ## Primitives -/

lemma bind_get {f : TokenStream → Parser β} (h : Builds (f s) s done L) :
    Builds (get >>= f) s done L := h

lemma bind_peek {f : TokenKind → Parser β} (h : ∀ k, s.kind = k → Builds (f k) s done L) :
    Builds (peek >>= f) s done L := h s.kind rfl

lemma bind_here {f : Span → Parser β} (h : ∀ start, Builds (f start) s done L) :
    Builds (here >>= f) s done L := h s.span

lemma bind_spanFrom {start : Span} {f : Span → Parser β}
    (h : ∀ span, Builds (f span) s done L) : Builds (spanFrom start >>= f) s done L :=
  h (start.merge s.last)

lemma bind_advance {k : TokenKind} {f : Unit → Parser β} (hs : s.kind = k) (hk : k ≠ .endOfInput)
    (h : Builds (f ()) s.tail (done ++ [k]) L) : Builds (advance >>= f) s done L := by
  intro hplain
  exact (h hplain.tail).after (TokenStream.took_kind hs hk)

lemma bind_accept {k : TokenKind} {f : Bool → Parser β} (hk : k ≠ .endOfInput)
    (htrue : Builds (f true) s.tail (done ++ [k]) L) (hfalse : Builds (f false) s done L) :
    Builds (accept k >>= f) s done L := by
  simp only [accept, bind_assoc]
  refine bind_peek fun k' hk' => ?_
  split <;> rename_i h
  · simp only [bind_assoc, pure_bind]
    exact bind_advance (hk'.trans h) hk htrue
  · simp only [pure_bind]
    exact hfalse

/-- What comes behind a token that may be there. -/
lemma accept_ite {k : TokenKind} (hk : k ≠ .endOfInput) (hp : Builds p s.tail (done ++ [k]) L)
    (hq : Builds q s done L) :
    Builds (accept k >>= fun there => if there then p else q) s done L := by
  refine bind_accept hk ?_ ?_
  · simpa only [if_true] using hp
  · simpa only [Bool.false_eq_true, if_false] using hq

lemma bind_expect {k : TokenKind} {f : Unit → Parser β} (hk : k ≠ .endOfInput) (h : Begins L done)
    (hf : s.kind = k → Builds (f ()) s.tail (done ++ [k]) L) :
    Builds (expect k >>= f) s done L := by
  simp only [expect, bind_assoc]
  refine bind_peek fun k' hk' => ?_
  split <;> rename_i hs
  · exact bind_advance (hk'.trans hs) hk (hf (hk'.trans hs))
  · exact unexpected_bind h

lemma bind_name {f : String → Parser β} (h : Begins L done)
    (hf : ∀ n, n ≠ objectName → Builds (f n) s.tail (done ++ [.name n]) L) :
    Builds (name >>= f) s done L := by
  refine of_plain fun hs => ?_
  simp only [name, bind_assoc]
  refine bind_peek fun k hk => ?_
  split
  · simp only [bind_assoc, pure_bind]
    exact bind_advance hk (by simp) (hf _ (hs.name_ne hk))
  · exact unexpected_bind h

/-! ## Items -/

lemma itemsToBrace {item : Parser α} {P : Phrase β}
    (hP : ∀ {ks x rest}, P ks x rest → Behind rest ks)
    (hitem : ∀ t : TokenStream, t.rest.length ≤ s.rest.length → Builds item t [] (Whole P))
    {n : Nat} (hn : s.rest.length < n) : Builds (itemsToBrace item n) s [] (UpToBrace P) := by
  induction n generalizing s with
  | zero => exact absurd hn (Nat.not_lt_zero _)
  | succ n ih =>
      refine bind_peek fun k hk => ?_
      split
      · exact bind_advance hk nofun (.pure upToBrace_nil)
      · exact fail_end (begins_of_append upToBrace_nil (by decide)) hk
      · refine (hitem s (Nat.le_refl _)).bind (fun hls => begins_upToBrace hls) ?_
        intro x t ts _ htook hls
        -- an item takes a token
        have hlength := htook.length_lt fun hnil => hls.ne_nil hP (by rw [hnil]; rfl)
        refine (ih (fun t ht => hitem t ?_) ?_).bind (fun hs => begins_of (hls.upToBrace hs))
          fun _ _ hs => .pure (hls.upToBrace hs)
        · exact Nat.le_trans ht (Nat.le_of_lt hlength)
        · exact Nat.lt_of_lt_of_le hlength (Nat.le_of_lt_succ hn)

lemma braced {item : Parser α} {P : Phrase β} (hP : ∀ {ks x rest}, P ks x rest → Behind rest ks)
    (hitem : ∀ t : TokenStream, t.rest.length < s.rest.length → Builds item t [] (Whole P)) :
    Builds (braced item) s [] (Braced P) := by
  refine bind_expect nofun (begins_braced.of_append (by decide)) fun hs => ?_
  have hlength := (TokenStream.took_kind hs nofun).length_lt (List.cons_ne_nil _ _)
  refine bind_get ((itemsToBrace hP (fun t ht => hitem t ?_) (Nat.lt_succ_self _)).part ?_)
  · exact Nat.lt_of_le_of_lt ht hlength
  · exact fun hls => ⟨_, rfl, hls⟩

end Builds

/-! ## Types -/

lemma arrayAndName_plain {x : Bool × String} (hs : s.Plain) (h : arrayAndName s = .ok x t) :
    x.2 ≠ objectName := by
  rcases arrayAndName_ok.mp h with ⟨-, -, n, hname, rfl, -⟩ | ⟨-, -, n, hname, rfl, -⟩ |
    ⟨n, hname, rfl, -⟩
  · exact hs.tail.tail.name_ne hname
  · exact hs.tail.name_ne hname
  · exact hs.name_ne hname

lemma typeWithin_plain {depth : Nat} {x : TypeExpr} (hs : s.Plain)
    (h : typeWithin (depth + 1) s = .ok x t) : x.isObject = false := by
  obtain ⟨isArray, n, u, hname, h⟩ := typeWithin_ok.mp h
  have hn : n ≠ objectName := arrayAndName_plain hs hname
  rcases h with ⟨hobject, -⟩ | ⟨-, -, rfl⟩
  · exact absurd hobject hn
  · exact decide_eq_false hn

lemma builds_arrayAndName : Builds arrayAndName s [] PlainName := by
  refine .accept_ite nofun (.accept_ite nofun ?_ ?_) ?_
  · exact .bind_name begins_array fun n hn => .pure (plainName_array hn)
  · refine .bind_name (begins_array.of_append (by decide)) fun n hn => ?_
    exact .bind_expect nofun (begins_bracketed hn) fun _ => .pure (plainName_bracketed hn)
  · exact .bind_name (begins_array.of_append (by decide)) fun n hn => .pure (plainName hn)

lemma builds_typeWithin (depth : Nat) : Builds (typeWithin (depth + 1)) s [] (Whole PlainType) := by
  refine .of_plain fun hs => ?_
  refine Builds.bind_here fun start => builds_arrayAndName.bind (fun h => begins_of h.required) ?_
  rintro ⟨isArray, n⟩ t ts hrun - hname
  simp only [if_neg (show n ≠ objectName from arrayAndName_plain hs hrun)]
  refine .bind_accept nofun (.bind_spanFrom fun span => ?_) (.bind_spanFrom fun span => ?_)
  · exact .pure hname.optional
  · exact .pure hname.required

lemma builds_notObject : Builds (notObject anyType) s [] (Whole PlainType) := by
  refine .of_plain fun hs => ?_
  have htype : Builds anyType s [] (Whole PlainType) := .bind_get (builds_typeWithin _)
  refine htype.bind (fun h => begins_of h) fun hrun _ htype => ?_
  rw [typeWithin_plain hs hrun]
  exact .pure htype

lemma builds_typedefType : Builds typedefType s [] (Whole DefinedType) := by
  refine .of_plain fun hs => ?_
  have htype : Builds anyType s [] (Whole PlainType) := .bind_get (builds_typeWithin _)
  refine htype.bind (fun h => begins_of h.definedType) fun hrun _ htype => ?_
  rw [typeWithin_plain hs hrun]
  exact .pure htype.definedType

/-! ## Values -/

lemma builds_members {start : Span} {path : Expr} {n : Nat} (h : Whole Path done) :
    Builds (members start path n) s done (Whole Path) := by
  induction n generalizing s path done with
  | zero => exact .pure h
  | succ n ih =>
      refine .accept_ite nofun (.bind_name h.begins_member fun m _ => ?_) (.pure h)
      exact .bind_spanFrom fun span => ih (h.member m)

lemma builds_path : Builds path s [] (Whole Path) := by
  refine .bind_here fun start => .bind_name begins_path fun n _ => ?_
  exact .bind_get (builds_members (whole_path n))

lemma builds_fieldInit {value : Parser Expr}
    (hvalue : ∀ t : TokenStream, t.rest.length ≤ s.rest.length →
      Builds value t [] (Whole (Grammar.Value true))) :
    Builds (fieldInit value) s [] (Whole ObjectField) := by
  refine .bind_here fun start => ?_
  refine .bind_name ((begins_objectField "").of_append (by decide)) fun n _ => ?_
  refine .bind_expect nofun ((begins_objectField n).of_append (by decide)) fun _ => ?_
  refine (hvalue _ ?_).bind (fun h => begins_of (h.objectField n)) fun _ _ h => ?_
  · exact Nat.le_trans s.tail.length_tail_le s.length_tail_le
  · refine .bind_spanFrom fun span => .bind_accept nofun (.pure ?_) (.pure ?_)
    · exact h.objectField_comma n
    · exact h.objectField n

/-- No call follows a value. -/
lemma builds_valueEnd {P : Phrase α} {e : Expr} (h : Whole P done) :
    Builds (do
      if (← peek) = .symbol .openParen then fail .callAsValue
      return e) s done (Whole P) := by
  refine .bind_peek fun k hk => ?_
  split
  · rename_i hparen
    refine .fail_bind (.fail_token (begins_of h) ?_ (by simp))
    rw [hk, hparen]
    exact nofun
  · exact .pure h

lemma builds_valueWithin {allowsObject : Bool} {depth : Nat} (hdepth : s.rest.length < depth) :
    Builds (valueWithin allowsObject depth) s [] (Whole (Grammar.Value allowsObject)) := by
  induction depth generalizing s allowsObject with
  | zero => exact absurd hdepth (Nat.not_lt_zero _)
  | succ depth ih =>
      refine .bind_here fun start => .bind_peek fun k hk => ?_
      split
      · exact .bind_advance hk nofun (builds_valueEnd (whole_literal _))
      · split
        · rename_i hobject
          obtain rfl : allowsObject = true := hobject
          refine .bind_advance hk nofun ?_
          have hfields : Builds (braced (fieldInit (valueWithin true depth))) s.tail []
              (Braced ObjectField) := by
            refine .braced ObjectField.behind fun t ht => builds_fieldInit fun u hu => ih ?_
            have hlength := s.length_tail_le
            omega
          refine hfields.bind (fun h => begins_of h.object) fun _ _ h => ?_
          exact .bind_spanFrom fun span => builds_valueEnd h.object
        · refine .fail_bind (.fail_token begins_value ?_ (by simp))
          rw [hk]
          exact nofun
      · exact builds_path.bind (fun h => begins_of h.value) fun _ _ h => builds_valueEnd h.value
      · exact .unexpected_bind begins_value

lemma builds_value (allowsObject : Bool) :
    Builds (value allowsObject) s [] (Whole (Grammar.Value allowsObject)) :=
  .bind_get (builds_valueWithin (Nat.lt_succ_self _))

/-! ## Statements -/

lemma builds_itemsAfterComma {n : Nat} :
    Builds (itemsAfterComma (value false) n) s [] (Whole (Items NextArgument)) := by
  induction n generalizing s with
  | zero => exact .pure whole_nil
  | succ n ih =>
      refine .accept_ite nofun ?_ (.pure whole_nil)
      have hcons {ls ms : List TokenKind} (h : Whole (Grammar.Value false) ls)
          (hs : Whole (Items NextArgument) ms) :
          Whole (Items NextArgument) ([.symbol .comma] ++ ls ++ ms) := h.nextArgument.cons hs
      refine (builds_value false).bind (fun h => ?_) fun _ _ h => ?_
      · exact begins_of (by simpa using hcons h whole_nil)
      · exact ih.bind (fun hs => begins_of (hcons h hs)) fun _ _ hs => .pure (hcons h hs)

lemma builds_commaSeparated : Builds (commaSeparated (value false)) s [] SomeArguments := by
  refine (builds_value false).bind (fun h => begins_of ⟨_, [], by simp, h, whole_nil⟩) ?_
  intro e t ts _ _ h
  refine .bind_get (builds_itemsAfterComma.bind (fun hs => begins_of ⟨_, _, rfl, h, hs⟩) ?_)
  exact fun _ _ hs => .pure ⟨_, _, rfl, h, hs⟩

lemma builds_arguments : Builds arguments s [] Parenthesized := by
  refine .bind_expect nofun (begins_parenthesized.of_append (by decide)) fun _ => ?_
  refine .accept_ite nofun (.pure parenthesized_none) ?_
  refine builds_commaSeparated.bind (fun h => h.begins) fun _ _ h => ?_
  exact .bind_expect nofun h.begins fun _ => .pure h.parenthesized

lemma builds_call : Builds call s [] (Whole Statement) := by
  refine .bind_here fun start => builds_path.bind (fun h => h.begins_call.1) ?_
  intro callee t ts _ _ hpath
  refine .bind_peek fun k hk => ?_
  split
  · refine .bind_peek fun k' hk' => ?_
    refine .fail_bind (.fail hpath.begins_call.1 (by simp) fun hend => .inr ⟨?_, ?_⟩)
    · rw [← hk', hend, missingCall]
    · exact hpath.begins_call.2
  · refine builds_arguments.bind (fun h => begins_of (hpath.call h)) fun _ _ h => ?_
    exact .bind_spanFrom fun span => .bind_spanFrom fun span' => .pure (hpath.call h)

lemma builds_typedef : Builds typedef s [] (Whole Statement) := by
  refine .bind_here fun start => .bind_expect nofun begins_statement fun _ => ?_
  refine .bind_name ((begins_definition "").of_append (by decide)) fun n _ => ?_
  refine .bind_expect nofun ((begins_definition n).of_append (by decide)) fun _ => ?_
  refine builds_typedefType.bind (fun h => begins_of (h.typedef n)) fun _ _ h => ?_
  exact .bind_spanFrom fun span => .pure (h.typedef n)

lemma builds_binding : Builds binding s [] (Whole Statement) := by
  refine .bind_here fun start => .bind_expect nofun begins_statement fun _ => ?_
  refine .bind_name ((begins_binding "").of_append (by decide)) fun n _ => ?_
  refine .bind_expect nofun ((begins_binding n).of_append (by decide)) fun _ => ?_
  refine builds_notObject.bind (fun h => begins_of (h.declaration n)) fun _ _ h => ?_
  refine .bind_accept nofun ?_ ?_
  · simp only [if_true, map_eq_pure_bind, bind_assoc, pure_bind]
    refine (builds_value true).bind (fun hvalue => begins_of (h.binding hvalue n)) ?_
    intro e t ts _ _ hvalue
    exact .bind_spanFrom fun span => .pure (h.binding hvalue n)
  · simp only [Bool.false_eq_true, if_false, pure_bind]
    exact .bind_spanFrom fun span => .pure (h.declaration n)

lemma builds_statementWithin {depth : Nat} (hdepth : s.rest.length < depth) :
    Builds (statementWithin depth) s [] (Whole Statement) := by
  induction depth generalizing s with
  | zero => exact absurd hdepth (Nat.not_lt_zero _)
  | succ depth ih =>
      refine .bind_peek fun k hk => ?_
      split
      · exact builds_typedef
      · exact builds_binding
      · refine .bind_get ?_
        split
        · have hbody : Builds (braced (statementWithin depth)) s.tail [] (Braced Statement) := by
            refine .braced Statement.behind fun t ht => ih ?_
            have hlength := s.length_tail_le
            omega
          refine .bind_here fun start => .bind_name begins_statement fun n _ => ?_
          refine .bind_here fun bodyStart => ?_
          refine hbody.bind (fun h => begins_of (h.scope n)) fun _ _ h => ?_
          exact .bind_spanFrom fun span => .bind_spanFrom fun span' => .pure (h.scope n)
        · exact builds_call
      · exact .unexpected begins_statement

lemma builds_statements {n : Nat} (hn : s.rest.length ≤ n) :
    Builds (statements n) s [] (Whole (Items Statement)) := by
  induction n generalizing s with
  | zero => exact .pure whole_nil
  | succ n ih =>
      refine .bind_peek fun k hk => ?_
      split
      · exact .pure whole_nil
      · refine .bind_get ((builds_statementWithin (Nat.lt_succ_self _)).bind ?_ fun _ htook h => ?_)
        · exact fun h => begins_of (by simpa using h.cons whole_nil)
        · have hlength := htook.length_lt fun hnil => h.ne_nil Statement.behind (by rw [hnil]; rfl)
          refine (ih (by omega)).bind (fun hs => begins_of (h.cons hs)) fun _ _ hs => ?_
          exact .pure (h.cons hs)

/-- What is taken of a program is one, or begins one when a fault is found. -/
theorem builds_program : Builds program s [] (Whole (Items Statement)) := by
  refine .bind_here fun start => .bind_get ?_
  refine (builds_statements (Nat.le_refl _)).bind (fun h => begins_of h) fun _ _ h => ?_
  exact .bind_here fun stop => .pure h

end Parser

end TypedConfig
