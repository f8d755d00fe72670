import TypedConfig.Proofs.Aliases
import TypedConfig.Proofs.Nesting
import TypedConfig.Proofs.Tokenizing

/-!
# The types that a program writes

Types are written in bindings, in type definitions and in the fields of shapes.  This module lists
them, with the names that are defined as types, and says where they come from.

**Names are words.** A name in a tree is a name among the tokens, and a name among the tokens is a
word that is neither a keyword nor a truth value (`IsName`).

**Types are phrases.** Every type of a tree, at any depth, is derived by the grammar from some of
the tokens (`Block.written`).
-/

namespace TypedConfig

/-! ## Names and types of a tree -/

mutual

/-- The name of a type, with those of the fields of a shape and of their types. -/
def TypeExpr.names : TypeExpr → List String
  | ⟨name, _, _, fields, _⟩ => name :: FieldDecl.namesAll fields

/-- The names of fields and those in their types. -/
def FieldDecl.namesAll : List FieldDecl → List String
  | [] => []
  | ⟨name, type, _⟩ :: fs => name :: type.names ++ FieldDecl.namesAll fs

end

mutual

/-- A type and the types of its fields, at any depth. -/
def TypeExpr.parts : TypeExpr → List TypeExpr
  | ⟨name, isArray, isOptional, fields, span⟩ =>
    ⟨name, isArray, isOptional, fields, span⟩ :: FieldDecl.partsAll fields

/-- The types of fields, at any depth. -/
def FieldDecl.partsAll : List FieldDecl → List TypeExpr
  | [] => []
  | ⟨_, type, _⟩ :: fs => type.parts ++ FieldDecl.partsAll fs

end

mutual

/-- The types that are written in a statement, at any depth. -/
def Stmt.types : Stmt → List TypeExpr
  | .scope _ body _ _ => Stmt.typesAll body
  | .typedef _ type _ | .binding _ type _ _ => type.parts
  | .effect _ _ => []

/-- The types that are written in statements, at any depth. -/
def Stmt.typesAll : List Stmt → List TypeExpr
  | [] => []
  | st :: ss => st.types ++ Stmt.typesAll ss

end

/-- The types that are written in a program. -/
def Block.types (b : Block) : List TypeExpr := Stmt.typesAll b.statements

/-- The names that a program defines as types. -/
def Block.definedTypes (b : Block) : List String := Stmt.definedTypesAll b.statements

/-! ## Bare trees write the same -/

mutual

lemma TypeExpr.parts_bare : ∀ t : TypeExpr, t.bare.parts = t.parts.map TypeExpr.bare
  | ⟨_, _, _, fields, _⟩ => by
      rw [TypeExpr.bare, TypeExpr.parts, TypeExpr.parts, List.map_cons, TypeExpr.bare,
        FieldDecl.parts_bareAll fields]

lemma FieldDecl.parts_bareAll : ∀ fs : List FieldDecl,
    FieldDecl.partsAll (FieldDecl.bareAll fs) = (FieldDecl.partsAll fs).map TypeExpr.bare
  | [] => rfl
  | ⟨_, type, _⟩ :: fs => by
      rw [FieldDecl.bareAll, FieldDecl.bare, FieldDecl.partsAll, FieldDecl.partsAll,
        List.map_append, TypeExpr.parts_bare type, FieldDecl.parts_bareAll fs]

end

mutual

lemma Stmt.types_bare : ∀ st : Stmt, st.bare.types = st.types.map TypeExpr.bare
  | .scope _ body _ _ => Stmt.types_bareAll body
  | .typedef _ type _ | .binding _ type _ _ => type.parts_bare
  | .effect _ _ => rfl

lemma Stmt.types_bareAll :
    ∀ ss : List Stmt, Stmt.typesAll (Stmt.bareAll ss) = (Stmt.typesAll ss).map TypeExpr.bare
  | [] => rfl
  | st :: ss => by
      rw [Stmt.bareAll, Stmt.typesAll, Stmt.typesAll, List.map_append, Stmt.types_bare st,
        Stmt.types_bareAll ss]

end

mutual

lemma Stmt.definedTypes_bare : ∀ st : Stmt, st.bare.definedTypes = st.definedTypes
  | .scope _ body _ _ => Stmt.definedTypes_bareAll body
  | .typedef .. | .binding .. | .effect .. => rfl

lemma Stmt.definedTypes_bareAll :
    ∀ ss : List Stmt, Stmt.definedTypesAll (Stmt.bareAll ss) = Stmt.definedTypesAll ss
  | [] => rfl
  | st :: ss => by
      rw [Stmt.bareAll, Stmt.definedTypesAll, Stmt.definedTypesAll, Stmt.definedTypes_bare st,
        Stmt.definedTypes_bareAll ss]

end

/-! ## Where types and their names come from -/

namespace Grammar

/-- Whether a type is derived from some of the tokens. -/
def DerivedFrom (ks : List TokenKind) (t : TypeExpr) : Prop :=
  ∃ ks' rest, ks' <:+ ks ∧ DefinedType ks' t rest

variable {ks ks' rest : List TokenKind}

lemma DerivedFrom.of_suffix {t : TypeExpr} (h : DerivedFrom ks' t) (hsuffix : ks' <:+ ks) :
    DerivedFrom ks t := by
  obtain ⟨us, rest, hus, ht⟩ := h
  exact ⟨us, rest, hus.trans hsuffix, ht⟩

lemma PlainType.parts {t : TypeExpr} (h : PlainType ks t rest) : t.parts = [t] := by
  cases h <;> rfl

/-- The types of fields are derived where the fields are. -/
lemma ShapeField.derived {fs : List FieldDecl} (h : Items ShapeField ks fs rest) :
    ∀ t ∈ FieldDecl.partsAll fs, DerivedFrom ks t := by
  induction h with
  | nil => exact nofun
  | @cons ks rest _ f fs hf _ ih =>
      obtain @⟨ks, _, _, name, t, ht, hcomma⟩ := hf
      have hbehind : rest <:+ ks := hcomma.suffix.trans ht.behind.suffix
      have hsuffix : ks <:+ .name name :: .symbol .colon :: ks :=
        (List.suffix_cons _ _).trans (List.suffix_cons _ _)
      intro u hu
      rw [FieldDecl.partsAll, ht.parts, List.singleton_append, List.mem_cons] at hu
      rcases hu with rfl | hu
      · exact ⟨ks, _, hsuffix, .plain ht⟩
      · exact (ih u hu).of_suffix (hbehind.trans hsuffix)

lemma DefinedType.derived {t : TypeExpr} (h : DefinedType ks t rest) :
    ∀ u ∈ t.parts, DerivedFrom ks u := by
  cases h with
  | plain ht =>
      rw [ht.parts]
      intro u hu
      rw [List.mem_singleton.mp hu]
      exact ⟨ks, rest, List.suffix_rfl, .plain ht⟩
  | object hfields =>
      intro u hu
      rcases List.mem_cons.mp hu with rfl | hu
      · exact ⟨_, rest, List.suffix_rfl, .object hfields⟩
      · exact (ShapeField.derived hfields u hu).of_suffix
          ((List.suffix_cons _ _).trans (List.suffix_cons _ _))

lemma TypeName.name_mem {isArray : Bool} {name : String} (h : TypeName ks (isArray, name) rest) :
    .name name ∈ ks := by
  cases h <;> simp

lemma PlainType.names_mem {t : TypeExpr} (h : PlainType ks t rest) :
    ∀ n ∈ t.names, .name n ∈ ks := by
  cases h with
  | required _ hname | optional _ hname =>
      intro n hn
      rw [List.mem_singleton.mp hn]
      exact hname.name_mem

lemma ShapeField.names_mem {fs : List FieldDecl} (h : Items ShapeField ks fs rest) :
    ∀ n ∈ FieldDecl.namesAll fs, .name n ∈ ks := by
  induction h with
  | nil => exact nofun
  | @cons ks rest _ f fs hf _ ih =>
      obtain @⟨ks, _, _, name, t, ht, hcomma⟩ := hf
      have hbehind : rest <:+ ks := hcomma.suffix.trans ht.behind.suffix
      intro n hn
      rw [FieldDecl.namesAll, List.cons_append, List.mem_cons, List.mem_append] at hn
      rcases hn with rfl | hn | hn
      · exact List.mem_cons_self
      · exact List.mem_cons_of_mem _ (List.mem_cons_of_mem _ (ht.names_mem n hn))
      · exact List.mem_cons_of_mem _ (List.mem_cons_of_mem _ (hbehind.mem (ih n hn)))

/-- The names in a type are names among its tokens. -/
lemma DefinedType.names_mem {t : TypeExpr} (h : DefinedType ks t rest) :
    ∀ n ∈ t.names, .name n ∈ ks := by
  cases h with
  | plain ht => exact ht.names_mem
  | object hfields =>
      intro n hn
      rcases List.mem_cons.mp hn with rfl | hn
      · exact List.mem_cons_self
      · exact List.mem_cons_of_mem _
          (List.mem_cons_of_mem _ (ShapeField.names_mem hfields n hn))

mutual

/-- What a statement defines are names among its tokens, and what types it writes are derived from
them. -/
lemma Statement.written (st : Stmt) {ks rest : List TokenKind} (h : Statement ks st rest) :
    (∀ n ∈ st.definedTypes, .name n ∈ ks) ∧ ∀ t ∈ st.types, DerivedFrom ks t := by
  have hcolon (ks : List TokenKind) (k k' k'' : TokenKind) : ks <:+ k :: k' :: k'' :: ks :=
    ((List.suffix_cons _ _).trans (List.suffix_cons _ _)).trans (List.suffix_cons _ _)
  match st, h with
  | .scope _ body _ _, .scope hbody =>
      obtain ⟨hnames, htypes⟩ := Statement.writtenAll body hbody
      have hsuffix (name : String) (ks : List TokenKind) :
          ks <:+ .name name :: .symbol .openBrace :: ks :=
        (List.suffix_cons _ _).trans (List.suffix_cons _ _)
      exact ⟨fun n hn => (hsuffix _ _).mem (hnames n hn),
        fun t ht => (htypes t ht).of_suffix (hsuffix _ _)⟩
  | .typedef name type _, .typedef ht =>
      refine ⟨fun n hn => ?_, fun u hu => (ht.derived u hu).of_suffix (hcolon _ _ _ _)⟩
      rw [List.mem_singleton.mp hn]
      exact List.mem_cons_of_mem _ List.mem_cons_self
  | .binding _ _ _ _, .declaration ht =>
      exact ⟨nofun, fun u hu => ((DefinedType.plain ht).derived u hu).of_suffix (hcolon _ _ _ _)⟩
  | .binding _ _ _ _, .binding ht _ =>
      exact ⟨nofun, fun u hu => ((DefinedType.plain ht).derived u hu).of_suffix (hcolon _ _ _ _)⟩
  | .effect _ _, .call _ _ => exact ⟨nofun, nofun⟩

lemma Statement.writtenAll (ss : List Stmt) {ks rest : List TokenKind}
    (h : Items Statement ks ss rest) :
    (∀ n ∈ Stmt.definedTypesAll ss, .name n ∈ ks) ∧
      ∀ t ∈ Stmt.typesAll ss, DerivedFrom ks t := by
  match ss, h with
  | [], .nil => exact ⟨nofun, nofun⟩
  | st :: ss, .cons hst hss =>
      obtain ⟨hnames, htypes⟩ := Statement.written st hst
      obtain ⟨hnames', htypes'⟩ := Statement.writtenAll ss hss
      have hsuffix := hst.behind.suffix
      refine ⟨fun n hn => ?_, fun t ht => ?_⟩
      · exact (List.mem_append.mp hn).elim (hnames n) fun hn => hsuffix.mem (hnames' n hn)
      · exact (List.mem_append.mp ht).elim (htypes t) fun ht => (htypes' t ht).of_suffix hsuffix

end

end Grammar

/-! ## Names of a text -/

/-- Whether a name may stand in a text: a word that is neither a keyword nor a truth value. -/
def IsName (n : String) : Prop := ∃ w : Word, w.payload = .name n

lemma IsName.chars {n : String} (h : IsName n) : ∃ w : Word, w.payload = .name n ∧
    n.toList = w.chars := by
  obtain ⟨w, hw⟩ := h
  refine ⟨w, hw, ?_⟩
  rw [Word.payload] at hw
  split at hw <;> cases hw
  exact String.toList_ofList

/-- A name that is read is a word. -/
lemma Reading.isName_of {c : Char} {cs : List Char} {n : String}
    (h : (of c cs).outcome = .ok (.name n)) : IsName n := by
  unfold of at h
  split at h
  · cases h
  split at h
  · rw [string, after, Reading.map] at h
    cases hbody : (stringBody c cs).outcome with
    | error fault =>
        rw [hbody] at h
        cases h
    | ok body =>
        rw [hbody] at h
        cases h
  split at h
  · unfold number at h
    dsimp only at h
    split at h
    · split at h
      · cases h
      · split at h <;> cases h
    · split at h <;> cases h
  split at h
  · rename_i hword
    have hfirst : Text.isLetter c ∨ c = '_' := by simpa [beginsWord] using hword
    have hmore : ∀ d ∈ cs.takeWhile continuesWord, Text.isLetterOrNumber d ∨ d = '_' := by
      intro d hd
      simpa [continuesWord] using List.all_eq_true.mp List.all_takeWhile d hd
    refine ⟨⟨c, cs.takeWhile continuesWord, hfirst, hmore⟩, ?_⟩
    rw [← ofWord_chars]
    exact Except.ok.inj h
  · cases h

lemma Source.isName_of_next {s s' : Source} {t : Token} {n : String} (h : next s = (.ok t, s'))
    (ht : t.kind = .name n) : IsName n := by
  rw [next] at h
  dsimp only at h
  split at h
  · cases h
    cases ht
  · rename_i c cs _
    cases houtcome : (Reading.of c cs).outcome with
    | error fault =>
        rw [houtcome] at h
        cases h
    | ok kind =>
        rw [houtcome] at h
        cases h
        exact Reading.isName_of (houtcome.trans (congrArg Except.ok ht))

/-- A name among the tokens of a text may stand in a text. -/
lemma Source.isName_of_tokens {k : Nat} {s : Source} {ts : List Token} {n : String}
    (h : tokens k s = .ok ts) (hn : .name n ∈ ts.map (·.kind)) : IsName n := by
  induction k generalizing s ts with
  | zero =>
      cases h
      cases hn
  | succ k ih =>
      obtain ⟨t, s', hnext, ⟨-, rfl⟩ | ⟨-, us, rfl, hus⟩⟩ := tokens_ok h
      · rw [List.map_singleton, List.mem_singleton] at hn
        exact isName_of_next hnext hn.symm
      · rcases List.mem_cons.mp hn with hn | hn
        · exact isName_of_next hnext hn.symm
        · exact ih hus hn

/-- What a program that is read from a text writes: the names that it defines as types may stand in
a text, and so may all names among the tokens from which a type is derived. -/
theorem Block.written {text : String} {b : Block} (h : treeOf text = .ok b) :
    (∀ n ∈ b.definedTypes, IsName n) ∧ ∀ t ∈ b.types,
      ∃ ks rest, Grammar.DefinedType ks t.bare rest ∧ ∀ n, .name n ∈ ks → IsName n := by
  obtain ⟨ts, htokens, hb⟩ := treeOf_ok h
  have hnames (n : String) (hn : .name n ∈ ts.map (·.kind)) : IsName n :=
    Source.isName_of_tokens htokens hn
  obtain ⟨body, stop, rfl⟩ := exists_end_of_tokenize htokens
  have hprogram := program_of_parseTokens (Source.ne_end_of_tokens htokens) hb
  obtain ⟨hdefined, htypes⟩ := Grammar.Statement.writtenAll _ hprogram
  have hbody (n : String) (hn : .name n ∈ body.map (·.kind)) : IsName n := by
    refine hnames n ?_
    rw [List.map_append]
    exact List.mem_append_left _ hn
  refine ⟨fun n hn => ?_, fun t ht => ?_⟩
  · rw [Stmt.definedTypes_bareAll] at hdefined
    exact hbody n (hdefined n hn)
  · rw [Stmt.types_bareAll] at htypes
    obtain ⟨ks, rest, hsuffix, hderived⟩ := htypes t.bare (List.mem_map_of_mem ht)
    exact ⟨ks, rest, hderived, fun n hn => hbody n (hsuffix.mem hn)⟩

end TypedConfig
