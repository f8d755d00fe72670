import TypedConfig.Proofs.Nesting
import TypedConfig.Proofs.Vocabulary

/-!
# Messages about types

The types that a run resolves can be said: their names are builtin or words of the text, and their
items are such types again.  So a message that shows such types by their names tells them apart as
equality does, the marks of optional types aside.

**What is resolved** is what lies on the stack when a type has been resolved in the run of a program
that was read from a text (`Machine.Resolves`), whatever the host has bound.

**Mismatches.** A function has a type as well, with a name that a program may give to a type of
objects.  If it does not, and the host binds nothing but functions, then no mismatch that is
reported shows one text twice (`type_names_faithful`).
-/

namespace TypedConfig

/-- Whether the run of the machine comes to resolve a type to `t`. -/
def Machine.Resolves (m : Machine) (t : DataType) : Prop :=
  ∃ done ref isArray isOptional span rest s,
    m.Reaches (done ++ [(.resolveType ref isArray isOptional, span)]) rest s ∧
      s.stack.cells.head? = some (.type t)

namespace Vocabulary

/-- The words of a text as names, and values of any types. -/
def ofWords : Vocabulary where
  names := IsName
  typed _ := True
  typed_of_sayable _ := trivial
  typed_field _ _ := trivial

/-- The words of a text but the name of the type of functions, and values that are functions or of
types that can be said. -/
def ofFunctions : Vocabulary where
  names n := IsName n ∧ n ≠ "function"
  typed t := t.Sayable (fun n => IsName n ∧ n ≠ "function") ∨ t = .function
  typed_of_sayable := Or.inl
  typed_field {t u n} ht hu := by
    obtain ⟨shape, hshape, hfield⟩ := Step.fieldType_eq_ok.mp hu
    rcases ht with ht | rfl
    · exact Or.inl (ht.field hshape hfield)
    · cases hshape

variable {V : Vocabulary} {limits : Limits} {host : List HostBinding}

/-- A run begins with what the host has bound and nothing else. -/
lemma holds_hosted (limits : Limits) (hhost : ∀ b ∈ host, V.Value b.entry.2) :
    V.Holds (.hosted limits host) where
  cells := List.forall_mem_nil _
  values f hf e he := by
    rw [List.mem_singleton.mp hf] at he
    obtain ⟨b, hb, rfl⟩ := mem_hostRoot he
    exact hhost b hb
  types f hf e he := by
    rw [List.mem_singleton.mp hf] at he
    cases he

/-- The types that a run resolves can be said. -/
lemma sayable_of_resolves {b : Block} {c : Chunk} {t : DataType} (h : b.compile = .ok c)
    (hnames : ∀ n ∈ b.definedTypes, V.names n) (hhost : ∀ b ∈ host, V.Value b.entry.2)
    (ht : (c.machine limits host).Resolves t) : t.Sayable V.names := by
  obtain ⟨done, ref, isArray, isOptional, span, rest, s, hreaches, hcell⟩ := ht
  obtain ⟨code, hcode, hlocated⟩ := Block.compile_ok h
  have hpending := hreaches.code
  rw [Chunk.pending_machine, hlocated] at hpending
  have hsays := (Stmt.saysAll _ hnames hcode).take
    (done ++ [(Instr.resolveType ref isArray isOptional, span)]).length
  rw [hpending, List.take_left] at hsays
  have hend := endsRun_runCode hsays (holds_hosted limits hhost) (firstOf rest none)
  rw [← Chunk.state_machine c limits host, hreaches.run] at hend
  exact hend.cells _ (List.mem_of_mem_head? (Option.mem_def.mpr hcell))

/-- A failed run tells why. -/
lemma tells_failure {b : Block} {c : Chunk} {e : RuntimeError} (h : b.compile = .ok c)
    (hnames : ∀ n ∈ b.definedTypes, V.names n) (hhost : ∀ b ∈ host, V.Value b.entry.2)
    (he : (c.machine limits host).run.failure = some e) : V.Tells e.cause := by
  obtain ⟨code, hcode, hlocated⟩ := Block.compile_ok h
  rw [Machine.failure_run (c.failure_machine limits host), Chunk.pending_machine,
    Chunk.state_machine, hlocated, Stmt.runToEnd_eq_runCode hcode] at he
  have hend := endsRun_runCode (Stmt.saysAll _ hnames hcode)
    (holds_hosted limits hhost) none
  rcases hrun : runCode none code (.hosted limits host) with ⟨t, _ | fault⟩
  · rw [hrun] at he
    cases he
  · rw [hrun] at he hend
    cases he
    exact hend

/-- Where functions are the only other values, a mismatch shows two texts. -/
lemma ne_of_tells {expected found : String} (h : ofFunctions.Tells (.typeMismatch expected found)) :
    expected ≠ found := by
  have hplain (n : String) (hn : ofFunctions.names n) : DataType.IsPlain n :=
    DataType.isPlain_of_isName hn.1
  cases h with
  | @mismatch t u ht hu hdiffer =>
      intro heq
      rcases hu with hu | rfl
      · have hequals : u.equals t = true := by
          rw [hu.equals_iff_unmarked hplain ht, ← hu.withoutMarks_fullName hplain,
            ← ht.withoutMarks_fullName hplain, heq]
        exact absurd hequals (by simp [hdiffer])
      · have hname := ht.object_of_fullName hplain (n := "function") ⟨by decide, by decide⟩
          (by decide) heq
        exact hname.2.2 rfl
  | notObject ht hobject =>
      intro heq
      have hname := ht.object_of_fullName hplain (n := "object") ⟨by decide, by decide⟩
        (by decide) heq
      exact absurd hname.1 (by simp [hobject])
  | other h => cases h

end Vocabulary

/-- Of two types that are resolved in runs of programs that were read from texts, equality and the
names in messages say the same, the marks of optional types aside; equality is an equivalence; and
if a program defines no type `function` and the host binds only functions, then a mismatch that is
reported shows two texts. -/
theorem type_names_faithful :
    (∀ {text text' : String} {c d : Chunk} {limits limits' : Limits}
      {host host' : List HostBinding} {t u : DataType},
      chunkOf text = .ok c → chunkOf text' = .ok d →
      (c.machine limits host).Resolves t → (d.machine limits' host').Resolves u →
      (t.equals u = true ↔ t.unmarked.fullName = u.unmarked.fullName) ∧
      (t.equals u = true ↔
        DataType.withoutMarks t.fullName = DataType.withoutMarks u.fullName)) ∧
    Equivalence (fun t u : DataType => t.equals u = true) ∧
    ∀ {text : String} {b : Block} {c : Chunk} {limits : Limits} {functions : List Function}
      {expected found : String} {span : Span},
      treeOf text = .ok b → b.compile = .ok c → "function" ∉ b.definedTypes →
      (c.machine limits (functions.map .register)).run.failure =
        some ⟨.typeMismatch expected found, span⟩ → expected ≠ found := by
  refine ⟨?_, ⟨DataType.equals_refl, DataType.equals_symm, DataType.equals_trans⟩, ?_⟩
  · have hplain (n : String) : Vocabulary.ofWords.names n → DataType.IsPlain n :=
      DataType.isPlain_of_isName
    have hsayable {text : String} {c : Chunk} {limits : Limits} {host : List HostBinding}
        {t : DataType} (h : chunkOf text = .ok c) (ht : (c.machine limits host).Resolves t) :
        t.Sayable Vocabulary.ofWords.names := by
      rcases chunkOf_cases text with ⟨e, -, hc⟩ | ⟨ts, e, -, -, hc⟩ |
        ⟨ts, b, d, -, -, htree, hd, hc⟩
      · cases hc.symm.trans h
      · cases hc.symm.trans h
      · cases hc.symm.trans h
        exact Vocabulary.sayable_of_resolves hd (Block.written htree).1
          (fun b _ => Value.Everywhere.of_forall (fun _ => trivial) _) ht
    intro text text' c d limits limits' host host' t u hc hd ht hu
    have ht := hsayable hc ht
    have hu := hsayable hd hu
    have hiff := ht.equals_iff_unmarked hplain hu
    refine ⟨hiff, ?_⟩
    rw [hiff, ht.withoutMarks_fullName hplain, hu.withoutMarks_fullName hplain]
  · intro text b c limits functions expected found span hb hc hfunction hfailure
    have hnames (n : String) (hn : n ∈ b.definedTypes) : Vocabulary.ofFunctions.names n := by
      refine ⟨(Block.written hb).1 n hn, ?_⟩
      rintro rfl
      exact hfunction hn
    refine Vocabulary.ne_of_tells (Vocabulary.tells_failure hc hnames ?_ hfailure)
    intro x hx
    obtain ⟨f, -, rfl⟩ := List.mem_map.mp hx
    exact .leaf (Or.inr rfl) rfl

/-- An alias of a type of arrays, and a truth value where an array of such arrays belongs. -/
theorem type_names_faithful_sample :
    let t := DataType.arrayOf .integer
    let u := (DataType.arrayOf t).withOptional true
    ∃ (b : Block) (c : Chunk),
      treeOf "type A: []int\nlet a: []A? = true" = .ok b ∧ b.compile = .ok c ∧
      chunkOf "type A: []int\nlet a: []A? = true" = .ok c ∧
      (c.machine {} []).Resolves t ∧ (c.machine {} []).Resolves u ∧
      (t.equals u = true ↔ t.unmarked.fullName = u.unmarked.fullName) ∧
      "function" ∉ b.definedTypes ∧ ∃ expected found span,
        (c.machine {} ([].map .register)).run.failure =
          some ⟨.typeMismatch expected found, span⟩ ∧ expected ≠ found := by
  intro t u
  have htokens : tokenize "type A: []int\nlet a: []A? = true" = .ok [
      ⟨.keyword .typeWord, ⟨0, 4, 1, 1⟩⟩,
      ⟨.name "A", ⟨5, 6, 1, 6⟩⟩, ⟨.symbol .colon, ⟨6, 7, 1, 7⟩⟩,
      ⟨.symbol .openBracket, ⟨8, 9, 1, 9⟩⟩, ⟨.symbol .closeBracket, ⟨9, 10, 1, 10⟩⟩,
      ⟨.name "int", ⟨10, 13, 1, 11⟩⟩, ⟨.keyword .letWord, ⟨14, 17, 2, 1⟩⟩,
      ⟨.name "a", ⟨18, 19, 2, 5⟩⟩, ⟨.symbol .colon, ⟨19, 20, 2, 6⟩⟩,
      ⟨.symbol .openBracket, ⟨21, 22, 2, 8⟩⟩, ⟨.symbol .closeBracket, ⟨22, 23, 2, 9⟩⟩,
      ⟨.name "A", ⟨23, 24, 2, 10⟩⟩, ⟨.symbol .question, ⟨24, 25, 2, 11⟩⟩,
      ⟨.symbol .equals, ⟨26, 27, 2, 13⟩⟩, ⟨.literal (.boolean true), ⟨28, 32, 2, 15⟩⟩,
      ⟨.endOfInput, ⟨32, 32, 2, 19⟩⟩] := rfl
  obtain ⟨b, hb, c, hc⟩ : ∃ b, treeOf "type A: []int\nlet a: []A? = true" = .ok b ∧
      ∃ c, b.compile = .ok c := by
    rw [treeOf, tokensOf, htokens]
    exact ⟨_, rfl, _, rfl⟩
  have hchunk : chunkOf "type A: []int\nlet a: []A? = true" = .ok c := by
    rw [chunkOf, hb]
    simp only [bind, Except.bind, hc]
    rfl
  -- the machine is given its code before its run is looked at
  have hcode : (c.machine {} []).pending = [
      (.pushName "int", ⟨8, 13, 1, 9⟩), (.resolveType .integer true false, ⟨8, 13, 1, 9⟩),
      (.pushName "A", ⟨0, 13, 1, 1⟩), (.bindType, ⟨0, 13, 1, 1⟩),
      (.pushName "A", ⟨21, 25, 2, 8⟩), (.resolveType .user true true, ⟨21, 25, 2, 8⟩),
      (.pushLiteral (.boolean true), ⟨28, 32, 2, 15⟩), (.pushName "a", ⟨14, 32, 2, 1⟩),
      (.store true, ⟨14, 32, 2, 1⟩)] := by
    rw [treeOf, tokensOf, htokens] at hb
    cases hb
    cases hc
    rfl
  have hstate : (c.machine {} []).state = .hosted {} [] := c.state_machine {} []
  have ht : (c.machine {} []).Resolves t :=
    ⟨[(.pushName "int", ⟨8, 13, 1, 9⟩)], _, _, _, _, _, _,
      Machine.reaches_of_run hcode (by rw [hstate]; decide +kernel), by rw [hstate]; rfl⟩
  have hu : (c.machine {} []).Resolves u :=
    ⟨[(.pushName "int", ⟨8, 13, 1, 9⟩), (.resolveType .integer true false, ⟨8, 13, 1, 9⟩),
      (.pushName "A", ⟨0, 13, 1, 1⟩), (.bindType, ⟨0, 13, 1, 1⟩),
      (.pushName "A", ⟨21, 25, 2, 8⟩)], _, _, _, _, _, _,
      Machine.reaches_of_run hcode (by rw [hstate]; decide +kernel), by rw [hstate]; rfl⟩
  have hfailure : (c.machine {} (([] : List Function).map .register)).run.failure =
      some ⟨.typeMismatch "[][]int?" "bool", ⟨14, 32, 2, 1⟩⟩ := by
    rw [List.map_nil, Machine.failure_run (c.failure_machine {} []), hcode, hstate]
    decide +kernel
  have hfunction : "function" ∉ b.definedTypes := by
    rw [treeOf, tokensOf, htokens] at hb
    cases hb
    decide
  exact ⟨b, c, hb, hc, hchunk, ht, hu, (type_names_faithful.1 hchunk hchunk ht hu).1, hfunction,
    _, _, _, hfailure, type_names_faithful.2.2 hb hc hfunction hfailure⟩

end TypedConfig
