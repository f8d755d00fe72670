import Mathlib.Data.List.TakeWhile
import TypedConfig.Proofs.LookAhead
import TypedConfig.Proofs.ParserComplete
import TypedConfig.Proofs.Viable

/-!
# Syntax errors

The parser reports a fault at the first token that cannot be right: what stands before it begins a
program (`Viable`), and with it there is none, since the parser has seen nothing of what stands
behind it (`LookAhead`).

It follows when a fault says that the input has ended: only where more tokens could have made a
program.  The other way round there is an exception.  Where the input ends behind the path of a
call, the fault is a missing parenthesis.

Shapes are left out, for a fault about a shape is found behind its type.
-/

namespace TypedConfig

open Grammar

variable {body ts us more : List Token} {token : Token} {stop : Span} {b : Block} {e : ParseError}
  {t : TokenStream}

/-! ## Tokens that are a program -/

/-- Tokens are a program up to the first end of the input, and wherever that end is. -/
lemma parseTokens_upToEnd (hts : ∀ token ∈ ts, token.kind ≠ .endOfInput)
    (h : parseTokens (ts ++ more) = .ok b) (stop : Span) :
    ∃ us b, (∀ token ∈ us, token.kind ≠ .endOfInput) ∧
      parseTokens (ts ++ us ++ [⟨.endOfInput, stop⟩]) = .ok b := by
  have hall : ∀ token ∈ ts, decide (token.kind ≠ .endOfInput) = true :=
    fun token htoken => decide_eq_true (hts token htoken)
  have hus : ∀ token ∈ more.takeWhile (·.kind ≠ .endOfInput), token.kind ≠ .endOfInput :=
    fun token htoken => by simpa using List.mem_takeWhile_imp htoken
  have hbody : ∀ token ∈ ts ++ more.takeWhile (·.kind ≠ .endOfInput), token.kind ≠ .endOfInput :=
    fun token htoken => (List.mem_append.mp htoken).elim (hts token) (hus token)
  have hstream : TokenStream.ofTokens (ts ++ more) = TokenStream.ofTokens
      (ts ++ more.takeWhile (·.kind ≠ .endOfInput) ++
        [⟨.endOfInput, (TokenStream.ofTokens (ts ++ more)).stop⟩]) := by
    rw [TokenStream.ofTokens_eq hbody, ← List.takeWhile_append_of_pos hall]
    rfl
  rw [parseTokens, hstream, ← parseTokens] at h
  obtain ⟨b', hb', -⟩ := parseTokens_of_program hbody stop (program_of_parseTokens hbody h)
  exact ⟨_, b', hus, hb'⟩

/-- What begins a program becomes one with more tokens behind it. -/
lemma parseTokens_of_begins (hts : ∀ token ∈ ts, token.kind ≠ .endOfInput)
    (h : Begins (Whole (Items Statement)) (ts.map (·.kind))) (stop : Span) :
    ∃ us b, (∀ token ∈ us, token.kind ≠ .endOfInput) ∧
      parseTokens (ts ++ us ++ [⟨.endOfInput, stop⟩]) = .ok b := by
  obtain ⟨ks, hks, ss, hwhole⟩ := h
  have hus : ∀ token ∈ ks.map (⟨·, {}⟩ : TokenKind → Token), token.kind ≠ .endOfInput := by
    intro token htoken
    obtain ⟨k, hk, rfl⟩ := List.mem_map.mp htoken
    exact fun hend => hks (hend ▸ hk)
  have hbody : ∀ token ∈ ts ++ ks.map (⟨·, {}⟩ : TokenKind → Token), token.kind ≠ .endOfInput :=
    fun token htoken => (List.mem_append.mp htoken).elim (hts token) (hus token)
  have hprogram : Program ((ts ++ ks.map (⟨·, {}⟩ : TokenKind → Token)).map (·.kind)) ss := by
    have hnil := hwhole []
    rw [List.append_nil] at hnil
    rw [List.map_append, List.map_map]
    rwa [show (fun token : Token => token.kind) ∘ (⟨·, {}⟩ : TokenKind → Token) = id from rfl,
      List.map_id]
  obtain ⟨b, hb, -⟩ := parseTokens_of_program hbody stop hprogram
  exact ⟨_, b, hus, hb⟩

/-! ## Tokens that are none -/

lemma parseTokens_error : parseTokens ts = .error e ↔
    ∃ t, Parser.program (TokenStream.ofTokens ts) = .error e t := by
  rw [parseTokens]
  cases Parser.program (TokenStream.ofTokens ts) <;> simp

/-- What has been taken before a fault, and where the fault is. -/
lemma Parser.stuck_of_error
    (hbody : ∀ token ∈ body, token.kind ≠ .endOfInput ∧ token.kind ≠ .name objectName)
    (h : Parser.program (.ofTokens (body ++ [⟨.endOfInput, stop⟩])) = .error e t) :
    ∃ ts, body = ts ++ t.rest ∧ t.stop = stop ∧
      Stuck (Whole (Items Statement)) (ts.map (·.kind)) e t := by
  rw [TokenStream.ofTokens_eq fun token htoken => (hbody token htoken).1] at h
  have hbuilt := builds_program (s := ⟨body, stop, stop⟩) hbody
  rw [h] at hbuilt
  obtain ⟨ts, htook, hstuck⟩ := hbuilt
  exact ⟨ts, htook.rest, htook.stop, hstuck⟩

/-- No program begins with what has been taken before a fault and with the token at the fault. -/
lemma Parser.error_at_token (hbody : ∀ token ∈ body, token.kind ≠ .endOfInput)
    (h : Parser.program (.ofTokens (body ++ [⟨.endOfInput, stop⟩])) = .error e t)
    (hts : body = ts ++ t.rest) (ht : t.rest = token :: us) (more : List Token) (b : Block) :
    parseTokens (ts ++ token :: more) ≠ .ok b := by
  intro hparses
  obtain rfl : body = ts ++ [token] ++ us := by rw [hts, ht, List.append_cons]
  have hfirst : ∀ token' ∈ ts ++ [token], token'.kind ≠ .endOfInput :=
    fun token' htoken' => hbody token' (List.mem_append_left us htoken')
  rw [List.append_cons] at hparses
  obtain ⟨us', b', hus', hprogram⟩ := parseTokens_upToEnd hfirst hparses stop
  have hbody' : ∀ token' ∈ ts ++ [token] ++ us', token'.kind ≠ .endOfInput :=
    fun token' htoken' => (List.mem_append.mp htoken').elim (hfirst token') (hus' token')
  obtain ⟨t', hprogram⟩ := parseTokens_ok.mp hprogram
  rw [TokenStream.ofTokens_eq hbody] at h
  rw [TokenStream.ofTokens_eq hbody'] at hprogram
  -- the two streams begin with the same tokens, and one of these is left at the fault
  have htwins : TokenStream.Twins us us' ⟨ts ++ [token] ++ us, stop, stop⟩
      ⟨ts ++ [token] ++ us', stop, stop⟩ :=
    ⟨ts ++ [token], List.append_ne_nil_of_right_ne_nil ts (List.cons_ne_nil _ _), rfl, rfl, rfl⟩
  have halike := local_program.alike htwins
    (Nat.le_of_eq (List.length_append ..))
  rw [h, hprogram] at halike
  obtain ⟨t'', herror, -⟩ := halike (by rw [ht]; exact Nat.lt_succ_self _)
  exact nomatch herror

/-! ## Where the fault is -/

/-- A syntax error is at the first token that cannot be right.  If tokens without shapes, whose only
end of the input is the last one, are no program, then the parser stops before one of them:

* the error is at this token;
* more tokens behind those before it make a program;
* unless it is the end of the input, no program begins with those before it and with it. -/
theorem parseTokens_error_first
    (hbody : ∀ token ∈ body, token.kind ≠ .endOfInput ∧ token.kind ≠ .name objectName)
    (h : parseTokens (body ++ [⟨.endOfInput, stop⟩]) = .error e) :
    ∃ t ts token us, Parser.program (.ofTokens (body ++ [⟨.endOfInput, stop⟩])) = .error e t ∧
      body = ts ++ t.rest ∧ t.rest ++ [⟨.endOfInput, stop⟩] = token :: us ∧
      e.span = token.span ∧
      (∃ more b, (∀ token ∈ more, token.kind ≠ .endOfInput) ∧
        parseTokens (ts ++ more ++ [⟨.endOfInput, stop⟩]) = .ok b) ∧
      (token.kind ≠ .endOfInput → ∀ more b, parseTokens (ts ++ token :: more) ≠ .ok b) := by
  have hend : ∀ token ∈ body, token.kind ≠ .endOfInput := fun token htoken => (hbody token htoken).1
  obtain ⟨t, herror⟩ := parseTokens_error.mp h
  obtain ⟨ts, hts, hstop, hstuck⟩ := Parser.stuck_of_error hbody herror
  have hbefore : ∀ token ∈ ts, token.kind ≠ .endOfInput :=
    fun token htoken => hend token (hts ▸ List.mem_append_left _ htoken)
  have hbegins := parseTokens_of_begins hbefore hstuck.begins stop
  cases hrest : t.rest with
  | nil =>
      have hspan : e.span = stop := by
        rw [hstuck.span, TokenStream.span, hrest]
        exact hstop
      exact ⟨t, ts, _, [], herror, hts, by rw [hrest]; rfl, hspan, hbegins, fun h => absurd rfl h⟩
  | cons token us =>
      have hspan : e.span = token.span := by
        rw [hstuck.span, TokenStream.span, hrest]
        rfl
      exact ⟨t, ts, token, _, herror, hts, by rw [hrest]; rfl, hspan, hbegins, fun _ =>
        Parser.error_at_token hend herror hts hrest⟩

/-- In `s }` the brace cannot be right: no program begins with these two tokens. -/
theorem parseTokens_error_first_strayBrace :
    (∀ token ∈ [Token.mk (.name "s") ⟨0, 1, 1, 1⟩, ⟨.symbol .closeBrace, ⟨2, 3, 1, 3⟩⟩],
      token.kind ≠ .endOfInput ∧ token.kind ≠ .name objectName) ∧
    parseTokens ([⟨.name "s", ⟨0, 1, 1, 1⟩⟩, ⟨.symbol .closeBrace, ⟨2, 3, 1, 3⟩⟩] ++
      [⟨.endOfInput, ⟨3, 3, 1, 4⟩⟩]) =
        .error ⟨.unexpectedToken "'(' or '\x7b'" "\x7d", ⟨2, 3, 1, 3⟩⟩ ∧
    ∀ more b, parseTokens
      (⟨.name "s", ⟨0, 1, 1, 1⟩⟩ :: ⟨.symbol .closeBrace, ⟨2, 3, 1, 3⟩⟩ :: more) ≠ .ok b := by
  have hbody : ∀ token ∈ [Token.mk (.name "s") ⟨0, 1, 1, 1⟩, ⟨.symbol .closeBrace, ⟨2, 3, 1, 3⟩⟩],
      token.kind ≠ .endOfInput ∧ token.kind ≠ .name objectName := by decide
  have herror : parseTokens ([⟨.name "s", ⟨0, 1, 1, 1⟩⟩, ⟨.symbol .closeBrace, ⟨2, 3, 1, 3⟩⟩] ++
      [⟨.endOfInput, ⟨3, 3, 1, 4⟩⟩]) =
        .error ⟨.unexpectedToken "'(' or '\x7b'" "\x7d", ⟨2, 3, 1, 3⟩⟩ := rfl
  refine ⟨hbody, herror, ?_⟩
  obtain ⟨t, ts, token, us, hrun, hts, hrest, -, -, hnone⟩ := parseTokens_error_first hbody herror
  obtain rfl : t = ⟨[⟨.symbol .closeBrace, ⟨2, 3, 1, 3⟩⟩], ⟨3, 3, 1, 4⟩, ⟨0, 1, 1, 1⟩⟩ := by
    cases hrun
    rfl
  obtain rfl : [Token.mk (.name "s") ⟨0, 1, 1, 1⟩] = ts := List.append_cancel_right hts
  obtain ⟨rfl, -⟩ := List.cons.inj hrest
  exact hnone nofun

/-! ## When the input has ended -/

/-- An error that says that the input has ended is found only in what more tokens can make a
program. What more tokens can make a program has such an error, except where a parenthesis may come
next: there the error may be that there is none. -/
theorem parseTokens_error_end
    (hbody : ∀ token ∈ body, token.kind ≠ .endOfInput ∧ token.kind ≠ .name objectName)
    (h : parseTokens (body ++ [⟨.endOfInput, stop⟩]) = .error e) :
    (e.cause = .unexpectedEnd → ∃ more b, (∀ token ∈ more, token.kind ≠ .endOfInput) ∧
      parseTokens (body ++ more ++ [⟨.endOfInput, stop⟩]) = .ok b) ∧
    ∀ more b, parseTokens (body ++ more ++ [⟨.endOfInput, stop⟩]) = .ok b →
      e.cause = .unexpectedEnd ∨
      e.cause = .unexpectedToken "'(' or '\x7b'" "EOF" ∧ ∃ more b, parseTokens
        (body ++ [⟨.symbol .openParen, {}⟩] ++ more ++ [⟨.endOfInput, stop⟩]) = .ok b := by
  have hend : ∀ token ∈ body, token.kind ≠ .endOfInput := fun token htoken => (hbody token htoken).1
  obtain ⟨t, herror⟩ := parseTokens_error.mp h
  obtain ⟨ts, hts, -, hstuck⟩ := Parser.stuck_of_error hbody herror
  refine ⟨fun hcause => ?_, fun more b hparses => ?_⟩
  · obtain rfl : body = ts := by rw [hts, hstuck.rest_eq_nil hcause, List.append_nil]
    exact parseTokens_of_begins hend hstuck.begins stop
  · cases hrest : t.rest with
    | cons token us =>
        -- no tokens behind the one at the fault could make a program
        rw [hts, hrest, List.append_assoc, List.append_assoc] at hparses
        exact absurd hparses (Parser.error_at_token hend herror hts hrest _ b)
    | nil =>
        obtain rfl : body = ts := by rw [hts, hrest, List.append_nil]
        refine (hstuck.cause hrest).imp_right fun ⟨hcause, hcall⟩ => ⟨hcause, ?_⟩
        have hparen : ∀ token ∈ body ++ [Token.mk (.symbol .openParen) {}],
            token.kind ≠ .endOfInput := by
          intro token htoken
          rcases List.mem_append.mp htoken with htoken | htoken
          · exact hend token htoken
          · obtain rfl := List.mem_singleton.mp htoken
            exact nofun
        obtain ⟨us, b, -, hus⟩ := parseTokens_of_begins hparen (List.map_append ▸ hcall) stop
        exact ⟨us, b, hus⟩

/-- Behind the opening brace of a scope the input has ended too early. -/
theorem parseTokens_error_end_openScope :
    (∀ token ∈ [Token.mk (.name "s") {}, ⟨.symbol .openBrace, {}⟩],
      token.kind ≠ .endOfInput ∧ token.kind ≠ .name objectName) ∧
    parseTokens ([⟨.name "s", {}⟩, ⟨.symbol .openBrace, {}⟩] ++ [⟨.endOfInput, {}⟩]) =
      .error ⟨.unexpectedEnd, {}⟩ ∧
    ∃ more b, (∀ token ∈ more, token.kind ≠ .endOfInput) ∧ parseTokens
      ([⟨.name "s", {}⟩, ⟨.symbol .openBrace, {}⟩] ++ more ++ [⟨.endOfInput, {}⟩]) = .ok b := by
  have hbody : ∀ token ∈ [Token.mk (.name "s") {}, ⟨.symbol .openBrace, {}⟩],
      token.kind ≠ .endOfInput ∧ token.kind ≠ .name objectName := by decide
  have herror : parseTokens ([⟨.name "s", {}⟩, ⟨.symbol .openBrace, {}⟩] ++ [⟨.endOfInput, {}⟩]) =
      .error ⟨.unexpectedEnd, {}⟩ := rfl
  exact ⟨hbody, herror, (parseTokens_error_end hbody herror).1 rfl⟩

/-- Behind the path of a call the input has ended too early as well, but the error is that there is
no parenthesis. -/
theorem parseTokens_error_behindPath :
    parseTokens ([⟨.name "foo", ⟨0, 3, 1, 1⟩⟩] ++ [⟨.endOfInput, ⟨3, 3, 1, 4⟩⟩]) =
      .error ⟨.unexpectedToken "'(' or '\x7b'" "EOF", ⟨3, 3, 1, 4⟩⟩ ∧
    (∃ b, parseTokens ([⟨.name "foo", ⟨0, 3, 1, 1⟩⟩] ++
      [⟨.symbol .openParen, {}⟩, ⟨.symbol .closeParen, {}⟩] ++
      [⟨.endOfInput, ⟨3, 3, 1, 4⟩⟩]) = .ok b) ∧
    ¬ ∀ (body more : List Token) (stop : Span) (e : ParseError) (b : Block),
      (∀ token ∈ body, token.kind ≠ .endOfInput ∧ token.kind ≠ .name objectName) →
      parseTokens (body ++ [⟨.endOfInput, stop⟩]) = .error e →
      parseTokens (body ++ more ++ [⟨.endOfInput, stop⟩]) = .ok b → e.cause = .unexpectedEnd := by
  refine ⟨rfl, ⟨_, rfl⟩, fun hend => ?_⟩
  have hcause := hend [⟨.name "foo", ⟨0, 3, 1, 1⟩⟩]
    [⟨.symbol .openParen, {}⟩, ⟨.symbol .closeParen, {}⟩] ⟨3, 3, 1, 4⟩ _ _ (by decide) rfl rfl
  exact nomatch hcause

end TypedConfig
