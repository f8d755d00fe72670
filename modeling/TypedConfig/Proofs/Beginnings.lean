import TypedConfig.Proofs.Grammar

/-!
# Beginnings of phrases

Tokens are a whole phrase if they are one whatever stands behind them (`Grammar.Whole`), and they
begin a phrase if more tokens can make them a whole one (`Grammar.Begins`).  The rules of the
grammar are given once more in these words: whole parts make a whole phrase, and what begins a part
begins the phrase, as the parts that are missing can be put behind it.

**No shapes.** The type that is put behind is never a shape, so types are plain here.
-/

namespace TypedConfig

namespace Grammar

variable {α : Type} {P : Phrase α} {L L' : List TokenKind → Prop} {ks ls ms : List TokenKind}

/-- Whether tokens are a phrase, whatever stands behind them. -/
def Whole (P : Phrase α) (ks : List TokenKind) : Prop := ∃ x, ∀ rest, P (ks ++ rest) x rest

/-- Whether more tokens can make the given ones something of a kind. -/
def Begins (L : List TokenKind → Prop) (ks : List TokenKind) : Prop :=
  ∃ more, .endOfInput ∉ more ∧ L (ks ++ more)

lemma begins_of (h : L ks) : Begins L ks := ⟨[], List.not_mem_nil, by rwa [List.append_nil]⟩

lemma begins_of_append (h : L (ks ++ ls)) (hls : .endOfInput ∉ ls) : Begins L ks := ⟨ls, hls, h⟩

lemma Begins.of_append (h : Begins L (ks ++ ls)) (hls : .endOfInput ∉ ls) : Begins L ks := by
  obtain ⟨more, hmore, h⟩ := h
  rw [List.append_assoc] at h
  exact begins_of_append h fun hmem => (List.mem_append.mp hmem).elim hls hmore

/-- What begins a part of something begins the whole, together with what stands before the part. -/
lemma Begins.behind (h : Begins L' ls) (hL : ∀ {ls}, L' ls → Begins L (ks ++ ls)) :
    Begins L (ks ++ ls) := by
  obtain ⟨more, hmore, h⟩ := h
  have hbegins := hL h
  rw [← List.append_assoc] at hbegins
  exact hbegins.of_append hmore

lemma Whole.ne_nil (hP : ∀ {ks x rest}, P ks x rest → Behind rest ks) (h : Whole P ks) :
    ks ≠ [] := by
  obtain ⟨x, h⟩ := h
  rintro rfl
  exact absurd (hP (h [])).length_lt (Nat.lt_irrefl _)

/-! ## Items -/

lemma whole_nil : Whole (Items P) [] := ⟨[], fun _ => .nil⟩

lemma Whole.cons (h : Whole P ks) (hs : Whole (Items P) ls) : Whole (Items P) (ks ++ ls) := by
  obtain ⟨x, h⟩ := h
  obtain ⟨xs, hs⟩ := hs
  refine ⟨x :: xs, fun rest => ?_⟩
  rw [List.append_assoc]
  exact .cons (h _) (hs rest)

/-- Items and the brace behind them. -/
def UpToBrace (P : Phrase α) (ks : List TokenKind) : Prop :=
  ∃ ls, ks = ls ++ [.symbol .closeBrace] ∧ Whole (Items P) ls

/-- Items between braces. -/
def Braced (P : Phrase α) (ks : List TokenKind) : Prop :=
  ∃ ls, ks = .symbol .openBrace :: ls ∧ UpToBrace P ls

lemma upToBrace_nil : UpToBrace P [.symbol .closeBrace] := ⟨[], rfl, whole_nil⟩

lemma Whole.upToBrace (h : Whole P ks) (hs : UpToBrace P ls) : UpToBrace P (ks ++ ls) := by
  obtain ⟨ls, rfl, hs⟩ := hs
  exact ⟨ks ++ ls, (List.append_assoc ..).symm, h.cons hs⟩

lemma begins_upToBrace (h : Whole P ks) : Begins (UpToBrace P) ks :=
  begins_of_append (h.upToBrace upToBrace_nil) (by decide)

lemma begins_braced : Begins (Braced P) [.symbol .openBrace] :=
  begins_of_append ⟨_, rfl, upToBrace_nil⟩ (by decide)

lemma Braced.items (h : Braced P ks) : ∃ ls xs, ks = .symbol .openBrace :: ls ∧
    ∀ rest, Items P (ls ++ rest) xs (.symbol .closeBrace :: rest) := by
  obtain ⟨_, rfl, ls, rfl, xs, hs⟩ := h
  refine ⟨_, xs, rfl, fun rest => ?_⟩
  rw [List.append_assoc]
  exact hs _

/-! ## Types -/

section

variable {n : String}

/-- The name of a type that is no shape. -/
def PlainName (ks : List TokenKind) : Prop :=
  ∃ isArray n, n ≠ objectName ∧ ∀ rest, TypeName (ks ++ rest) (isArray, n) rest

lemma plainName (hn : n ≠ objectName) : PlainName [.name n] := ⟨false, n, hn, fun _ => .plain⟩

lemma plainName_array (hn : n ≠ objectName) :
    PlainName [.symbol .openBracket, .symbol .closeBracket, .name n] :=
  ⟨true, n, hn, fun _ => .array⟩

lemma plainName_bracketed (hn : n ≠ objectName) :
    PlainName [.symbol .openBracket, .name n, .symbol .closeBracket] :=
  ⟨true, n, hn, fun _ => .bracketed⟩

lemma begins_array : Begins PlainName [.symbol .openBracket, .symbol .closeBracket] :=
  begins_of_append (plainName_array (n := "") (by decide)) (by decide)

lemma begins_bracketed (hn : n ≠ objectName) :
    Begins PlainName [.symbol .openBracket, .name n] :=
  begins_of_append (plainName_bracketed hn) (by decide)

lemma PlainName.required (h : PlainName ks) : Whole PlainType ks := by
  obtain ⟨isArray, n, hn, h⟩ := h
  exact ⟨_, fun rest => .required hn (h rest)⟩

lemma PlainName.optional (h : PlainName ks) : Whole PlainType (ks ++ [.symbol .question]) := by
  obtain ⟨isArray, n, hn, h⟩ := h
  refine ⟨⟨n, isArray, true, [], {}⟩, fun rest => .optional hn ?_⟩
  rw [List.append_assoc]
  exact h _

lemma whole_plainType : Whole PlainType [.name ""] := (plainName (by decide)).required

lemma Whole.definedType (h : Whole PlainType ks) : Whole DefinedType ks := by
  obtain ⟨t, h⟩ := h
  exact ⟨t, fun rest => .plain (h rest)⟩

end

/-! ## Values -/

section

variable {allowsObject : Bool}

lemma whole_path (n : String) : Whole Path [.name n] := ⟨_, fun _ => .name⟩

lemma Whole.member (h : Whole Path ks) (n : String) :
    Whole Path (ks ++ [.symbol .dot] ++ [.name n]) := by
  obtain ⟨e, h⟩ := h
  refine ⟨.member e n {}, fun rest => .member ?_⟩
  rw [List.append_assoc, List.append_assoc]
  exact h _

lemma begins_path : Begins (Whole Path) [] := begins_of_append (whole_path "") (by decide)

lemma Whole.begins_member (h : Whole Path ks) : Begins (Whole Path) (ks ++ [.symbol .dot]) :=
  begins_of_append (h.member "") (by decide)

lemma whole_literal (l : Literal) : Whole (Value allowsObject) [.literal l] :=
  ⟨_, fun _ => .literal⟩

lemma Whole.value (h : Whole Path ks) : Whole (Value allowsObject) ks := by
  obtain ⟨e, h⟩ := h
  exact ⟨e, fun rest => .path (h rest)⟩

lemma whole_value : Whole (Value allowsObject) [.name ""] := (whole_path "").value

lemma begins_value : Begins (Whole (Value allowsObject)) [] :=
  begins_of_append whole_value (by decide)

lemma Braced.object (h : Braced ObjectField ks) :
    Whole (Value true) ([.keyword .newWord] ++ ks) := by
  obtain ⟨ls, fields, rfl, hfields⟩ := h.items
  exact ⟨_, fun rest => .object (hfields rest)⟩

lemma Whole.objectField (h : Whole (Value true) ks) (n : String) :
    Whole ObjectField ([.name n, .symbol .equals] ++ ks) := by
  obtain ⟨e, h⟩ := h
  exact ⟨_, fun rest => .mk (h rest) .absent⟩

lemma Whole.objectField_comma (h : Whole (Value true) ks) (n : String) :
    Whole ObjectField ([.name n, .symbol .equals] ++ ks ++ [.symbol .comma]) := by
  obtain ⟨e, h⟩ := h
  refine ⟨⟨n, e, {}⟩, fun rest => ?_⟩
  rw [List.append_assoc]
  exact .mk (h _) .present

lemma begins_objectField (n : String) :
    Begins (Whole ObjectField) [.name n, .symbol .equals] :=
  begins_of_append (whole_value.objectField n) (by decide)

end

/-! ## Statements -/

section

lemma Whole.nextArgument (h : Whole (Value false) ks) :
    Whole NextArgument ([.symbol .comma] ++ ks) := by
  obtain ⟨e, h⟩ := h
  exact ⟨e, fun rest => .mk (h rest)⟩

/-- One or more arguments. -/
def SomeArguments (ks : List TokenKind) : Prop :=
  ∃ ls ms, ks = ls ++ ms ∧ Whole (Value false) ls ∧ Whole (Items NextArgument) ms

/-- Arguments between parentheses. -/
def Parenthesized (ks : List TokenKind) : Prop :=
  ∃ ls, ks = .symbol .openParen :: ls ∧ Whole Arguments ls

lemma parenthesized_none : Parenthesized ([.symbol .openParen] ++ [.symbol .closeParen]) :=
  ⟨_, rfl, [], fun _ => .none⟩

lemma begins_parenthesized : Begins Parenthesized [.symbol .openParen] :=
  begins_of_append parenthesized_none (by decide)

lemma SomeArguments.parenthesized (h : SomeArguments ks) :
    Parenthesized ([.symbol .openParen] ++ ks ++ [.symbol .closeParen]) := by
  obtain ⟨ls, ms, rfl, ⟨e, he⟩, es, hes⟩ := h
  refine ⟨ls ++ ms ++ [.symbol .closeParen], rfl, e :: es, fun rest => ?_⟩
  rw [List.append_assoc, List.append_assoc]
  exact .some (he _) (hes _)

lemma SomeArguments.begins (h : SomeArguments ks) :
    Begins Parenthesized ([.symbol .openParen] ++ ks) :=
  begins_of_append h.parenthesized (by decide)

lemma Braced.scope (h : Braced Statement ks) (n : String) : Whole Statement ([.name n] ++ ks) := by
  obtain ⟨ls, body, rfl, hbody⟩ := h.items
  exact ⟨_, fun rest => .scope (hbody rest)⟩

lemma Whole.typedef (h : Whole DefinedType ks) (n : String) :
    Whole Statement ([.keyword .typeWord, .name n, .symbol .colon] ++ ks) := by
  obtain ⟨t, h⟩ := h
  exact ⟨_, fun rest => .typedef (h rest)⟩

lemma Whole.declaration (h : Whole PlainType ks) (n : String) :
    Whole Statement ([.keyword .letWord, .name n, .symbol .colon] ++ ks) := by
  obtain ⟨t, h⟩ := h
  exact ⟨_, fun rest => .declaration (h rest)⟩

lemma Whole.binding (h : Whole PlainType ks) (hvalue : Whole (Value true) ls) (n : String) :
    Whole Statement
      ([.keyword .letWord, .name n, .symbol .colon] ++ ks ++ [.symbol .equals] ++ ls) := by
  obtain ⟨t, h⟩ := h
  obtain ⟨e, hvalue⟩ := hvalue
  refine ⟨.binding n t (some e) {}, fun rest => ?_⟩
  rw [List.append_assoc, List.append_assoc, List.append_assoc]
  exact .binding (h _) (hvalue rest)

lemma Whole.call (h : Whole Path ks) (hes : Parenthesized ls) : Whole Statement (ks ++ ls) := by
  obtain ⟨e, h⟩ := h
  obtain ⟨ls, rfl, es, hes⟩ := hes
  refine ⟨.effect (.call e es {}) {}, fun rest => ?_⟩
  rw [List.append_assoc]
  exact .call (h _) (hes rest)

lemma Whole.begins_call (h : Whole Path ks) :
    Begins (Whole Statement) ks ∧ Begins (Whole Statement) (ks ++ [.symbol .openParen]) := by
  have hcall := h.call parenthesized_none
  refine ⟨begins_of_append hcall (by decide), ?_⟩
  rw [← List.append_assoc] at hcall
  exact begins_of_append hcall (by decide)

lemma begins_definition (n : String) :
    Begins (Whole Statement) [.keyword .typeWord, .name n, .symbol .colon] :=
  begins_of_append (whole_plainType.definedType.typedef n) (by decide)

lemma begins_binding (n : String) :
    Begins (Whole Statement) [.keyword .letWord, .name n, .symbol .colon] :=
  begins_of_append (whole_plainType.declaration n) (by decide)

lemma begins_statement : Begins (Whole Statement) [] := (begins_definition "").of_append (by decide)

end

end Grammar

end TypedConfig
