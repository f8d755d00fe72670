import TypedConfig.Proofs.ParserComplete
import TypedConfig.Proofs.WrittenTypes

/-!
# Types read back from their texts

The text of a type (`TypeExpr.text`) is written without commas and with the brackets of an array in
front of its name, however the type was written at first.  Read as the type of a type definition it
gives the same type again, up to spans (`TypeExpr.text_reads_back`).

**Tokens.** The scanner reads such a text as the tokens that one would write down for the type
(`TypeExpr.kinds`).  In it names touch the symbols behind them, so what matters is that no word
goes on there (`Scans`).

**Phrases.** What the grammar derives from whatever tokens, it also derives from these
(`Grammar.DefinedType.of_kinds`), and the parser finds what the grammar derives.

**Shapes without fields** are written as if they were names; such a text is no type.
-/

namespace TypedConfig

/-! ## Texts that are scanned -/

/-- Whether no word goes on into the text. -/
def Stops (cs : List Char) : Prop := ∀ c ∈ cs.head?, Reading.continuesWord c = false

/-- Whether characters are read as tokens of these kinds: words and symbols, with blanks between
them where a word would go on. -/
inductive Scans : List Char → List TokenKind → Prop
  | nil : Scans [] []
  | blank {cs : List Char} {ks : List TokenKind} (h : Scans cs ks) : Scans (' ' :: cs) ks
  | symbol (s : Symbol) {cs : List Char} {ks : List TokenKind} (h : Scans cs ks) :
      Scans (s.char :: cs) (.symbol s :: ks)
  | word (w : Word) {cs : List Char} {ks : List TokenKind}
      (hstop : Stops cs) (h : Scans cs ks) :
      Scans (w.chars ++ cs) (w.payload :: ks)

namespace Source

/-- A blank is passed over. -/
lemma next_blank (position : Position) (cs : List Char) :
    next ⟨position, ' ' :: cs⟩ = next ⟨position.past [' '], cs⟩ := by
  have hgap : Gap.split .blank (' ' :: cs) = Gap.taking [' '] (Gap.split .blank cs) := by
    rw [Gap.split] <;> simp [Gap.isBlank]
  rw [next, next, hgap, Gap.taking, Position.past_append]

/-- Where a token begins it is read. -/
lemma next_of {c : Char} {cs taken rest : List Char} {k : TokenKind} (position : Position)
    (hof : Reading.of c cs = ⟨.ok k, taken, rest⟩) :
    ∃ span position', next ⟨position, c :: cs⟩ = (.ok ⟨k, span⟩, ⟨position', rest⟩) := by
  have hstop : Gap.split .blank (c :: cs) = ([], c :: cs) := by
    refine Gap.split_stop fun hc => ?_
    have hfault := Reading.outcome_of_break c hc cs
    rw [hof] at hfault
    cases hfault
  rw [next, hstop]
  simp only [hof]
  exact ⟨_, _, rfl⟩

lemma tokens_cons {s s' : Source} {t : Token} {ks : List TokenKind} {n : Nat}
    (hnext : s.next = (.ok t, s')) (ht : t.kind ≠ .endOfInput)
    (h : ∃ ts, tokens n s' = .ok ts ∧ ts.map (·.kind) = ks) :
    ∃ ts, tokens (n + 1) s = .ok ts ∧ ts.map (·.kind) = t.kind :: ks := by
  obtain ⟨ts, hts, hks⟩ := h
  refine ⟨t :: ts, ?_, by rw [List.map_cons, hks]⟩
  rw [tokens, hnext]
  simp only [if_neg ht, hts]
  rfl

/-- What is read as tokens of these kinds is so from wherever it stands. -/
lemma tokens_of_scans {cs : List Char} {ks : List TokenKind} (h : Scans cs ks) {n : Nat}
    (hn : cs.length < n) (position : Position) :
    ∃ ts, tokens n ⟨position, cs⟩ = .ok ts ∧ ts.map (·.kind) = ks ++ [.endOfInput] := by
  induction h generalizing n position with
  | nil =>
      obtain ⟨n, rfl⟩ := Nat.exists_eq_succ_of_ne_zero (Nat.ne_zero_of_lt hn)
      exact ⟨[⟨.endOfInput, .between position position⟩], rfl, rfl⟩
  | @blank cs ks h ih =>
      have hnext : tokens n ⟨position, ' ' :: cs⟩ = tokens n ⟨position.past [' '], cs⟩ := by
        cases n with
        | zero => rfl
        | succ n => rw [tokens, next_blank, ← tokens]
      rw [hnext]
      exact ih (Nat.lt_of_succ_lt hn) (position.past [' '])
  | symbol s h ih =>
      obtain ⟨n, rfl⟩ := Nat.exists_eq_succ_of_ne_zero (Nat.ne_zero_of_lt hn)
      obtain ⟨span, position', hnext⟩ := next_of position (Reading.of_symbol s)
      exact tokens_cons hnext (by simp) (ih (Nat.lt_of_succ_lt_succ hn) position')
  | @word w cs ks hstop h ih =>
      obtain ⟨n, rfl⟩ := Nat.exists_eq_succ_of_ne_zero (Nat.ne_zero_of_lt hn)
      obtain ⟨span, position', hnext⟩ := next_of position (Reading.of_word_stop w hstop)
      have hlength : cs.length < n := by
        rw [List.length_append, Word.chars, List.length_cons] at hn
        omega
      exact tokens_cons hnext (Lexeme.word w).payload_ne_endOfInput (ih hlength position')

end Source

lemma tokenize_of_scans {text : String} {ks : List TokenKind} (h : Scans text.toList ks) :
    ∃ ts, tokenize text = .ok ts ∧ ts.map (·.kind) = ks ++ [.endOfInput] :=
  Source.tokens_of_scans h (Nat.lt_succ_self _) .start

/-! ## Tokens of a type -/

mutual

/-- The tokens that one would write down for a type. -/
def TypeExpr.kinds : TypeExpr → List TokenKind
  | ⟨name, isArray, isOptional, fields, _⟩ =>
    (if isArray then [.symbol .openBracket, .symbol .closeBracket] else []) ++ .name name ::
      ((if fields.isEmpty then []
          else .symbol .openBrace :: FieldDecl.kindsAll fields ++ [.symbol .closeBrace]) ++
        if isOptional then [.symbol .question] else [])

/-- The tokens that one would write down for fields, without commas. -/
def FieldDecl.kindsAll : List FieldDecl → List TokenKind
  | [] => []
  | ⟨name, type, _⟩ :: fs => .name name :: .symbol .colon :: type.kinds ++ FieldDecl.kindsAll fs

end

lemma stops_blank (cs : List Char) : Stops (' ' :: cs) := by
  rintro _ ⟨⟩
  decide

lemma stops_symbol (s : Symbol) (cs : List Char) : Stops (s.char :: cs) := by
  rintro _ ⟨⟩
  cases s <;> decide

lemma Scans.name {n : String} (hn : IsName n) {cs : List Char} {ks : List TokenKind}
    (hstop : Stops cs) (h : Scans cs ks) : Scans (n.toList ++ cs) (.name n :: ks) := by
  obtain ⟨w, hw, hchars⟩ := hn.chars
  rw [hchars, ← hw]
  exact .word w hstop h

/-- A question mark or nothing, and what stands behind it. -/
lemma Scans.mark {cs : List Char} {ks : List TokenKind} (isOptional : Bool) (hstop : Stops cs)
    (h : Scans cs ks) : Stops ((if isOptional then "?" else "").toList ++ cs) ∧
      Scans ((if isOptional then "?" else "").toList ++ cs)
        ((if isOptional then [.symbol .question] else []) ++ ks) := by
  cases isOptional with
  | false => exact ⟨hstop, h⟩
  | true => exact ⟨stops_symbol .question cs, .symbol .question h⟩

/-- Brackets or nothing, and what stands behind them. -/
lemma Scans.brackets {cs : List Char} {ks : List TokenKind} (isArray : Bool) (h : Scans cs ks) :
    Scans ((if isArray then "[]" else "").toList ++ cs)
      ((if isArray then [.symbol .openBracket, .symbol .closeBracket] else []) ++ ks) := by
  cases isArray with
  | false => exact h
  | true => exact .symbol .openBracket (.symbol .closeBracket h)

mutual

/-- The text of a type is read as the tokens of the type. -/
lemma TypeExpr.scans : ∀ (t : TypeExpr), (∀ n ∈ t.names, IsName n) → ∀ {cs : List Char}
    {ks : List TokenKind}, Stops cs → Scans cs ks →
    Scans (t.text.toList ++ cs) (t.kinds ++ ks)
  | ⟨name, isArray, isOptional, [], _⟩, hnames, cs, ks, hcs, h => by
      obtain ⟨hstop, hmark⟩ := Scans.mark isOptional hcs h
      have hname := Scans.name (hnames name List.mem_cons_self) hstop hmark
      simpa [TypeExpr.text, TypeExpr.kinds] using hname.brackets isArray
  | ⟨name, isArray, isOptional, f :: fs, _⟩, hnames, cs, ks, hcs, h => by
      obtain ⟨hname, hfields⟩ := List.forall_mem_cons.mp hnames
      have hmark := (Scans.mark isOptional hcs h).2
      have hinside := FieldDecl.scansAll (f :: fs) hfields (.symbol .closeBrace hmark)
      have hshape := (Scans.symbol .openBrace (.blank hinside)).blank
      have hall := (Scans.name hname (stops_blank _) hshape).brackets isArray
      simpa [TypeExpr.text, TypeExpr.kinds, Symbol.char] using hall

/-- The texts of fields are read as the tokens of the fields. -/
lemma FieldDecl.scansAll : ∀ (fs : List FieldDecl), (∀ n ∈ FieldDecl.namesAll fs, IsName n) →
    ∀ {cs : List Char} {ks : List TokenKind}, Scans cs ks →
    Scans ((fieldsText fs).toList ++ cs) (FieldDecl.kindsAll fs ++ ks)
  | [], _, cs, ks, h => by simpa [fieldsText, FieldDecl.kindsAll] using h
  | ⟨name, type, _⟩ :: fs, hnames, cs, ks, h => by
      rw [FieldDecl.namesAll, List.cons_append, List.forall_mem_cons, List.forall_mem_append]
        at hnames
      obtain ⟨hname, htype, hmore⟩ := hnames
      have hrest := FieldDecl.scansAll fs hmore h
      have htext := type.scans htype (stops_blank _) (.blank hrest)
      have hfield := Scans.name hname (stops_symbol .colon _) (.symbol .colon (.blank htext))
      simpa [fieldsText, FieldDecl.text, FieldDecl.kindsAll, Symbol.char] using hfield

end

/-! ## Bare types have the same texts -/

mutual

lemma TypeExpr.text_bare : ∀ t : TypeExpr, t.bare.text = t.text
  | ⟨name, isArray, isOptional, fields, _⟩ => by
      have hfields := FieldDecl.fieldsText_bareAll fields
      have hempty : (FieldDecl.bareAll fields).isEmpty = fields.isEmpty := by cases fields <;> rfl
      rw [TypeExpr.bare, TypeExpr.text, TypeExpr.text, hfields, hempty]

lemma FieldDecl.fieldsText_bareAll : ∀ fs : List FieldDecl,
    fieldsText (FieldDecl.bareAll fs) = fieldsText fs
  | [] => rfl
  | ⟨name, type, _⟩ :: fs => by
      rw [FieldDecl.bareAll, FieldDecl.bare, fieldsText, fieldsText, FieldDecl.text,
        FieldDecl.text, TypeExpr.text_bare type, FieldDecl.fieldsText_bareAll fs]

end

lemma TypeExpr.fields_bare_eq_nil (t : TypeExpr) : t.bare.fields = [] ↔ t.fields = [] := by
  obtain ⟨name, isArray, isOptional, fields, span⟩ := t
  cases fields <;> simp [TypeExpr.bare, FieldDecl.bareAll]

/-! ## Phrases -/

namespace Grammar

variable {ks rest : List TokenKind} {t : TypeExpr}

/-- The tokens written down for a plain type make up the same type, whatever comes behind. -/
lemma PlainType.of_kinds (h : PlainType ks t rest) (rest' : List TokenKind) :
    PlainType (t.kinds ++ rest') t rest' := by
  cases h with
  | required hn hname =>
      cases hname with
      | plain => exact .required hn .plain
      | array | bracketed => exact .required hn .array
  | optional hn hname =>
      cases hname with
      | plain => exact .optional hn .plain
      | array | bracketed => exact .optional hn .array

lemma ShapeField.of_kinds {fs : List FieldDecl} (h : Items ShapeField ks fs rest)
    (rest' : List TokenKind) : Items ShapeField (FieldDecl.kindsAll fs ++ rest') fs rest' := by
  induction h with
  | nil => exact .nil
  | cons hf _ ih =>
      cases hf with
      | mk ht hcomma =>
          rw [FieldDecl.kindsAll, List.cons_append, List.cons_append, List.append_assoc]
          exact .cons (.mk (ht.of_kinds _) .absent) ih

/-- The tokens written down for a type that may be defined make up the same type, unless it is a
shape without fields. -/
lemma DefinedType.of_kinds (h : DefinedType ks t rest) (hfields : t.isObject = true → t.fields ≠ []) :
    DefinedType t.kinds t [] := by
  cases h with
  | plain ht =>
      have hkinds := ht.of_kinds []
      rw [List.append_nil] at hkinds
      exact .plain hkinds
  | @object ks rest fields hitems =>
      cases fields with
      | nil => exact absurd rfl (hfields rfl)
      | cons f fs =>
          have hkinds : (TypeExpr.object (f :: fs) {}).kinds = .name objectName ::
              .symbol .openBrace :: (FieldDecl.kindsAll (f :: fs) ++ [.symbol .closeBrace]) := by
            simp [TypeExpr.object, TypeExpr.kinds]
          rw [hkinds]
          exact .object (ShapeField.of_kinds hitems [.symbol .closeBrace])

/-- A shape without fields is written down as the name of shapes. -/
lemma DefinedType.kinds_of_empty (h : DefinedType ks t rest) (hobject : t.isObject = true)
    (hfields : t.fields = []) : t.kinds = [.name objectName] := by
  cases h with
  | plain ht => exact absurd ht.isObject (by simp [hobject])
  | object hitems =>
      obtain rfl := hfields
      rfl

/-- Nothing that may be defined is written as the name of shapes alone. -/
lemma DefinedType.ne_objectName (h : DefinedType ks t rest) : ks ≠ [.name objectName] := by
  rintro rfl
  cases h with
  | plain ht =>
      cases ht with
      | required hn hname =>
          cases hname
          exact hn rfl
      | optional hn hname => cases hname

end Grammar

/-! ## Reading a text back -/

/-- The tokens of the text of a type make up a stream of their kinds. -/
lemma TypeExpr.tokenize_text {t : TypeExpr} (hnames : ∀ n ∈ t.names, IsName n) :
    ∃ ts, tokenize t.text = .ok ts ∧ (TokenStream.ofTokens ts).kinds = t.kinds := by
  have hscans : Scans (t.text.toList ++ []) (t.kinds ++ []) := t.scans hnames nofun .nil
  rw [List.append_nil, List.append_nil] at hscans
  obtain ⟨ts, hts, hkinds⟩ := tokenize_of_scans hscans
  refine ⟨ts, hts, ?_⟩
  obtain ⟨body, stop, rfl⟩ := exists_end_of_tokenize hts
  rw [List.map_append, List.map_singleton] at hkinds
  rw [TokenStream.kinds_ofTokens (Source.ne_end_of_tokens hts)]
  exact List.append_inj_left' hkinds rfl

/-- A type that is written in a program is read back from its text up to spans, and nothing of the
text is left, unless the type is a shape without fields: then the text is no type. -/
theorem TypeExpr.text_reads_back {text : String} {b : Block} (h : treeOf text = .ok b)
    {t : TypeExpr} (ht : t ∈ b.types) : ∃ ts, tokenize t.text = .ok ts ∧
      (¬ (t.isObject = true ∧ t.fields = []) →
        ∃ u s, Parser.typedefType (.ofTokens ts) = .ok u s ∧ s.rest = [] ∧ u.bare = t.bare) ∧
      ((t.isObject = true ∧ t.fields = []) →
        ∃ e s, Parser.typedefType (.ofTokens ts) = .error e s) := by
  obtain ⟨ks, rest, hderived, hnames⟩ := (Block.written h).2 t ht
  obtain ⟨ts, hts, hkinds⟩ := t.bare.tokenize_text fun n hn =>
    hnames n (hderived.names_mem n hn)
  rw [t.text_bare] at hts
  refine ⟨ts, hts, fun hshape => ?_, fun hshape => ?_⟩
  · have hfields : t.bare.isObject = true → t.bare.fields ≠ [] := fun hobject hnil =>
      hshape ⟨t.isObject_bare ▸ hobject, t.fields_bare_eq_nil.mp hnil⟩
    have hphrase := hderived.of_kinds hfields
    rw [← hkinds] at hphrase
    obtain ⟨u, s, hu, hs, hbare⟩ := Parser.finds_typedefType _ hphrase nofun
    exact ⟨u, s, hu, List.map_eq_nil_iff.mp hs, hbare⟩
  · rw [hderived.kinds_of_empty (t.isObject_bare ▸ hshape.1)
      (t.fields_bare_eq_nil.mpr hshape.2)] at hkinds
    cases hparse : Parser.typedefType (.ofTokens ts) with
    | ok u s => exact absurd hkinds (Parser.takes_typedefType hparse).ne_objectName
    | error e s => exact ⟨e, s, rfl⟩

/-- A shape that is written with a comma and with brackets around the name of a type. -/
theorem TypeExpr.text_reads_back_sample : ∃ b t,
    treeOf "type T: object \x7b a: [int], b: T? \x7d" = .ok b ∧ t ∈ b.types ∧
      t.text = "object \x7b a: []int b: T? \x7d" ∧ ∃ ts u s, tokenize t.text = .ok ts ∧
        Parser.typedefType (.ofTokens ts) = .ok u s ∧ s.rest = [] ∧ u.bare = t.bare := by
  have htokens : tokenize "type T: object \x7b a: [int], b: T? \x7d" = .ok [
      ⟨.keyword .typeWord, ⟨0, 4, 1, 1⟩⟩, ⟨.name "T", ⟨5, 6, 1, 6⟩⟩,
      ⟨.symbol .colon, ⟨6, 7, 1, 7⟩⟩, ⟨.name "object", ⟨8, 14, 1, 9⟩⟩,
      ⟨.symbol .openBrace, ⟨15, 16, 1, 16⟩⟩, ⟨.name "a", ⟨17, 18, 1, 18⟩⟩,
      ⟨.symbol .colon, ⟨18, 19, 1, 19⟩⟩, ⟨.symbol .openBracket, ⟨20, 21, 1, 21⟩⟩,
      ⟨.name "int", ⟨21, 24, 1, 22⟩⟩, ⟨.symbol .closeBracket, ⟨24, 25, 1, 25⟩⟩,
      ⟨.symbol .comma, ⟨25, 26, 1, 26⟩⟩, ⟨.name "b", ⟨27, 28, 1, 28⟩⟩,
      ⟨.symbol .colon, ⟨28, 29, 1, 29⟩⟩, ⟨.name "T", ⟨30, 31, 1, 31⟩⟩,
      ⟨.symbol .question, ⟨31, 32, 1, 32⟩⟩, ⟨.symbol .closeBrace, ⟨33, 34, 1, 34⟩⟩,
      ⟨.endOfInput, ⟨34, 34, 1, 35⟩⟩] := rfl
  let t : TypeExpr := .object [⟨"a", ⟨"int", true, false, [], ⟨20, 25, 1, 21⟩⟩, ⟨17, 25, 1, 18⟩⟩,
    ⟨"b", ⟨"T", false, true, [], ⟨30, 32, 1, 31⟩⟩, ⟨27, 32, 1, 28⟩⟩] ⟨8, 34, 1, 9⟩
  let b : Block := ⟨[ Stmt.typedef "T" t ⟨0, 34, 1, 1⟩], ⟨0, 34, 1, 1⟩⟩
  have htree : treeOf "type T: object \x7b a: [int], b: T? \x7d" = .ok b := by
    rw [treeOf, tokensOf, htokens]
    rfl
  have ht : t ∈ b.types := List.mem_append_left _ List.mem_cons_self
  obtain ⟨ts, hts, hreads, -⟩ := text_reads_back htree ht
  obtain ⟨u, s, hu, hs, hbare⟩ := hreads fun h => List.cons_ne_nil _ _ h.2
  exact ⟨b, t, htree, ht, rfl, ts, u, s, hts, hu, hs, hbare⟩

end TypedConfig
