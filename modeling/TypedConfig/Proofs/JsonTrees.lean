import TypedConfig.Proofs.JsonNumbers

/-!
# JSON trees read back from their texts

A JSON tree is read back from its indented text if all numbers in it are finite
(`Json.read?_pretty`).  Other numbers have no JSON text.

**Lines.** Items and members stand on lines of their own with commas between them.  Both are
`Json.lines`, so that both are read by one lemma (`JsonReader.listed_lines`).

**Depth.** A value lies inside another one with a longer text.  So the bound on the depth that a
reader starts with, the length of the whole text, is enough wherever it gets to
(`JsonReader.value_itemText`).
-/

namespace TypedConfig

namespace Json

/-- Whether all numbers in a JSON tree are finite. -/
inductive Finite : Json → Prop
  | null : Finite .null
  | boolean (b : Bool) : Finite (.boolean b)
  | integer (n : Int64) : Finite (.integer n)
  | float {x : Binary64} (h : x.isFinite = true) : Finite (.float x)
  | string (s : String) : Finite (.string s)
  | array {items : List Json} (h : ∀ j ∈ items, Finite j) : Finite (.array items)
  | object {members : List (String × Json)} (h : ∀ m ∈ members, Finite m.2) :
      Finite (.object members)

/-! ## Lines -/

section

variable {α : Type}

/-- Texts on lines of their own at a depth, with commas between them. -/
def lines (depth : Nat) (text : α → List Char) : List α → List Char
  | [] => []
  | x :: xs => ((newline depth).toList ++ text x) ++
      xs.flatMap fun y => ',' :: ((newline depth).toList ++ text y)

lemma length_le_lines (depth : Nat) (text : α → List Char) {x : α} {xs : List α} (h : x ∈ xs) :
    (text x).length ≤ (lines depth text xs).length := by
  cases xs with
  | nil => cases h
  | cons y ys =>
      rw [lines, List.length_append, List.length_append]
      rcases List.mem_cons.mp h with rfl | hx
      · omega
      · have hsublist := List.sublist_flatten_of_mem
          (List.mem_map_of_mem (f := fun y => ',' :: ((newline depth).toList ++ text y)) hx)
        have hle := hsublist.length_le
        rw [← List.flatMap_def, List.length_cons, List.length_append] at hle
        omega

end

/-- The text of an item. -/
def itemText (depth : Nat) (j : Json) : List Char := (j.pretty depth).toList

/-- The text of a member. -/
def memberText (depth : Nat) (m : String × Json) : List Char :=
  (quote m.1).toList ++ ':' :: ' ' :: itemText depth m.2

lemma toList_prettyItems (depth : Nat) (items : List Json) :
    (prettyItems depth "" items).toList = lines depth (itemText depth) items := by
  have hmore (js : List Json) : (prettyItems depth "," js).toList =
      js.flatMap fun j => ',' :: ((newline depth).toList ++ itemText depth j) := by
    induction js with
    | nil => rfl
    | cons j js ih => simp [prettyItems, itemText, ih]
  cases items with
  | nil => rfl
  | cons j js => simp [prettyItems, lines, itemText, hmore]

lemma toList_prettyMembers (depth : Nat) (members : List (String × Json)) :
    (prettyMembers depth "" members).toList = lines depth (memberText depth) members := by
  have hmore (ms : List (String × Json)) : (prettyMembers depth "," ms).toList =
      ms.flatMap fun m => ',' :: ((newline depth).toList ++ memberText depth m) := by
    induction ms with
    | nil => rfl
    | cons m ms ih => simp [prettyMembers, memberText, itemText, ih]
  cases members with
  | nil => rfl
  | cons m ms => simp [prettyMembers, lines, memberText, itemText, hmore]

/-- The text of an array: its lines, and blanks unless it is empty. -/
lemma itemText_array (depth : Nat) (items : List Json) :
    ∃ blanks, (∀ c ∈ blanks, JsonReader.isBlank c) ∧ itemText depth (.array items) =
      '[' :: (lines (depth + 1) (itemText (depth + 1)) items ++ (blanks ++ [']'])) := by
  cases items with
  | nil => exact ⟨[], by simp, by simp [itemText, pretty, lines]⟩
  | cons j js =>
      exact ⟨_, JsonReader.isBlank_newline depth, by simp [itemText, pretty, toList_prettyItems]⟩

/-- The text of an object: its lines, and blanks unless it is empty. -/
lemma itemText_object (depth : Nat) (members : List (String × Json)) :
    ∃ blanks, (∀ c ∈ blanks, JsonReader.isBlank c) ∧ itemText depth (.object members) =
      '\x7b' :: (lines (depth + 1) (memberText (depth + 1)) members ++ (blanks ++ ['\x7d'])) := by
  cases members with
  | nil => exact ⟨[], by simp, by simp [itemText, pretty, lines]⟩
  | cons m ms =>
      exact ⟨_, JsonReader.isBlank_newline depth, by simp [itemText, pretty, toList_prettyMembers]⟩

end Json

namespace JsonReader

variable {rest : List Char}

/-- A numeral can end in front of blanks. -/
lemma ends_blanks {blanks : List Char} (hblanks : ∀ c ∈ blanks, isBlank c) {c : Char}
    (hc : goesOn c = false) (rest : List Char) : Ends (blanks ++ c :: rest) := by
  cases blanks with
  | nil => exact ends_cons hc rest
  | cons b bs =>
      have hb := hblanks b List.mem_cons_self
      simp only [isBlank, Bool.or_eq_true, decide_eq_true_eq] at hb
      refine ends_cons ?_ (bs ++ c :: rest)
      rcases hb with ((rfl | rfl) | rfl) | rfl <;> rfl

/-- What stands on lines is read line by line. -/
lemma listed_lines {α : Type} {item : JsonReader α} {text : α → List Char} {depth : Nat}
    (close : Char) (hclose : close ≠ ',' ∧ isBlank close = false ∧ goesOn close = false)
    {xs : List α} (hitem : ∀ x ∈ xs, ∀ more, Ends more →
      item ((Json.newline depth).toList ++ (text x ++ more)) = some (x, more))
    (hfirst : ∀ x ∈ xs, ∃ c cs, text x = c :: cs ∧ isBlank c = false ∧ c ≠ close)
    {blanks : List Char} (hblanks : ∀ c ∈ blanks, isBlank c) (rest : List Char) :
    listed item close (Json.lines depth text xs ++ (blanks ++ close :: rest)) =
      some (xs, rest) := by
  obtain ⟨hcomma, hblank, hends⟩ := hclose
  have hbehind : skip (blanks ++ close :: rest) = close :: rest := by
    rw [skip_append hblanks, skip_cons hblank]
  cases xs with
  | nil =>
      rw [Json.lines, List.nil_append, listed, hbehind]
      simp
  | cons x xs =>
      rw [Json.lines, List.append_assoc]
      refine listed_flatMap (fun y => (Json.newline depth).toList ++ text y) hcomma hbehind ?_ ?_
      · intro y hy
        have hread := hitem y hy
        constructor
        · rw [List.append_assoc]
          exact hread _ (ends_blanks hblanks hends rest)
        · intro more
          rw [List.append_assoc]
          exact hread _ (ends_cons rfl more)
      · intro more
        obtain ⟨c, cs, htext, hc, hne⟩ := hfirst x List.mem_cons_self
        refine ⟨c, cs ++ more, ?_, hne⟩
        rw [List.append_assoc, skip_append (isBlank_newline depth), htext, List.cons_append,
          skip_cons hc]

/-! ## Values -/

lemma value_blanks {blanks : List Char} (hblanks : ∀ c ∈ blanks, isBlank c) (n : Nat)
    (text : List Char) : value n (blanks ++ text) = value n text := by
  cases n with
  | zero => rfl
  | succ n => rw [value, value, skip_append hblanks]

/-- A number begins with a sign or a digit and with nothing else. -/
lemma ne_of_first {c d : Char} (hc : c = '-' ∨ c.isDigit) (hd : d ≠ '-' ∧ d.isDigit = false) :
    c ≠ d := by
  rintro rfl
  rcases hc with hc | hc
  · exact hd.1 hc
  · rw [hd.2] at hc
    cases hc

lemma not_isBlank_first {c : Char} (hc : c = '-' ∨ c.isDigit) : isBlank c = false := by
  have hblank : c ≠ ' ' := ne_of_first hc (by decide)
  have htab : c ≠ '\t' := ne_of_first hc (by decide)
  have hfeed : c ≠ '\n' := ne_of_first hc (by decide)
  have hreturn : c ≠ '\r' := ne_of_first hc (by decide)
  simp [isBlank, hblank, htab, hfeed, hreturn]

/-- No value begins like a blank or like the end of an array. -/
lemma itemText_cons {j : Json} (hj : j.Finite) (depth : Nat) :
    ∃ c cs, Json.itemText depth j = c :: cs ∧ isBlank c = false ∧ c ≠ ']' := by
  cases hj with
  | null => exact ⟨'n', ['u', 'l', 'l'], by simp [Json.itemText, Json.pretty], by decide, by decide⟩
  | boolean b =>
      cases b with
      | true =>
          refine ⟨'t', ['r', 'u', 'e'], ?_, by decide, by decide⟩
          simp [Json.itemText, Json.pretty, booleanText]
      | false =>
          refine ⟨'f', ['a', 'l', 's', 'e'], ?_, by decide, by decide⟩
          simp [Json.itemText, Json.pretty, booleanText]
  | integer n =>
      obtain ⟨c, cs, htext, hc, -⟩ := number_integerText n ends_nil
      exact ⟨c, cs, by simp [Json.itemText, Json.pretty, htext], not_isBlank_first hc,
        ne_of_first hc (by decide)⟩
  | float hx =>
      obtain ⟨c, cs, htext, hc, -⟩ := number_render Binary64.Layout.isNumeral_json hx ends_nil
      exact ⟨c, cs, by simp [Json.itemText, Json.pretty, htext], not_isBlank_first hc,
        ne_of_first hc (by decide)⟩
  | string s =>
      obtain ⟨text, htext, -⟩ := string_quote s []
      rw [List.append_nil] at htext
      exact ⟨'"', text, by simp [Json.itemText, Json.pretty, htext], by decide, by decide⟩
  | array h =>
      obtain ⟨blanks, -, htext⟩ := Json.itemText_array depth _
      exact ⟨_, _, htext, rfl, by decide⟩
  | object h =>
      obtain ⟨blanks, -, htext⟩ := Json.itemText_object depth _
      exact ⟨_, _, htext, rfl, by decide⟩

lemma value_number {c : Char} (hc : c = '-' ∨ c.isDigit) (n : Nat) (text : List Char) :
    value (n + 1) (c :: text) = number (c :: text) := by
  have hquote : c ≠ '"' := ne_of_first hc (by decide)
  have harray : c ≠ '[' := ne_of_first hc (by decide)
  have hobject : c ≠ '\x7b' := ne_of_first hc (by decide)
  rw [value, skip_cons (not_isBlank_first hc)]
  dsimp only
  rw [if_neg hquote, if_neg harray, if_neg hobject, if_pos hc]

/-- A member is read back from its text if its value is. -/
lemma member_memberText {read : JsonReader Json} {depth : Nat} {m : String × Json}
    (hread : read (' ' :: (Json.itemText depth m.2 ++ rest)) = some (m.2, rest))
    {blanks : List Char} (hblanks : ∀ c ∈ blanks, isBlank c) :
    member read (blanks ++ (Json.memberText depth m ++ rest)) = some (m, rest) := by
  obtain ⟨text, htext, hname⟩ :=
    string_quote m.1 (':' :: ' ' :: (Json.itemText depth m.2 ++ rest))
  have hskip (c : Char) (hc : isBlank c = false) (more : List Char) := skip_cons hc more
  rw [Json.memberText, List.append_assoc, List.cons_append, List.cons_append, htext, member,
    skip_append hblanks, hskip '"' rfl]
  simp [hname, hskip ':' rfl, hread]

/-- An array is read back from its text if its items are. -/
lemma value_array {n depth : Nat} {items : List Json} (hfinite : ∀ j ∈ items, j.Finite)
    (hread : ∀ j ∈ items, ∀ more, Ends more →
      value n (Json.itemText (depth + 1) j ++ more) = some (j, more)) :
    value (n + 1) (Json.itemText depth (.array items) ++ rest) = some (.array items, rest) := by
  obtain ⟨blanks, hblanks, htext⟩ := Json.itemText_array depth items
  have hitem : ∀ j ∈ items, ∀ more, Ends more →
      value n ((Json.newline (depth + 1)).toList ++ (Json.itemText (depth + 1) j ++ more)) =
        some (j, more) := by
    intro j hj more hmore
    rw [value_blanks (isBlank_newline _)]
    exact hread j hj more hmore
  have hlisted := listed_lines ']' (by decide) hitem
    (fun j hj => itemText_cons (hfinite j hj) (depth + 1)) hblanks rest
  rw [htext, List.cons_append, List.append_assoc, List.append_assoc, value, skip_cons rfl]
  simp [hlisted]

/-- An object is read back from its text if the values of its members are. -/
lemma value_object {n depth : Nat} {members : List (String × Json)}
    (hread : ∀ m ∈ members, ∀ more, Ends more →
      value n (Json.itemText (depth + 1) m.2 ++ more) = some (m.2, more)) :
    value (n + 1) (Json.itemText depth (.object members) ++ rest) =
      some (.object members, rest) := by
  obtain ⟨blanks, hblanks, htext⟩ := Json.itemText_object depth members
  have hblank : ∀ c ∈ [' '], isBlank c := fun c hc => List.mem_singleton.mp hc ▸ rfl
  have hitem : ∀ m ∈ members, ∀ more, Ends more →
      member (value n) ((Json.newline (depth + 1)).toList ++
        (Json.memberText (depth + 1) m ++ more)) = some (m, more) := by
    intro m hm more hmore
    refine member_memberText ?_ (isBlank_newline _)
    have hvalue := hread m hm more hmore
    rwa [← value_blanks hblank] at hvalue
  have hfirst : ∀ m ∈ members, ∃ c cs, Json.memberText (depth + 1) m = c :: cs ∧
      isBlank c = false ∧ c ≠ '\x7d' := by
    intro m _
    obtain ⟨text, htext, -⟩ := string_quote m.1 (':' :: ' ' :: Json.itemText (depth + 1) m.2)
    exact ⟨'"', text, htext, rfl, by decide⟩
  have hlisted := listed_lines '\x7d' (by decide) hitem hfirst hblanks rest
  rw [htext, List.cons_append, List.append_assoc, List.append_assoc, value, skip_cons rfl]
  simp [hlisted]

/-- A value is read back from its text, whatever stands behind it.  The induction is on the bound:
what lies inside a value has a shorter text. -/
lemma value_itemText {n depth : Nat} {j : Json} (hj : j.Finite)
    (hn : (Json.itemText depth j).length < n) (hrest : Ends rest) :
    value n (Json.itemText depth j ++ rest) = some (j, rest) := by
  induction n generalizing j depth rest with
  | zero => exact absurd hn (Nat.not_lt_zero _)
  | succ n ih =>
      cases hj with
      | null => simp [Json.itemText, Json.pretty, value, skip_cons, isBlank, word]
      | boolean b =>
          cases b <;>
            simp [Json.itemText, Json.pretty, booleanText, value, skip_cons, isBlank, word]
      | integer k =>
          obtain ⟨c, cs, htext, hc, hread⟩ := number_integerText k hrest
          rw [Json.itemText, Json.pretty, htext, List.cons_append, value_number hc, hread]
      | float hx =>
          obtain ⟨c, cs, htext, hc, hread⟩ := number_render Binary64.Layout.isNumeral_json hx hrest
          rw [Json.itemText, Json.pretty, htext, List.cons_append, value_number hc, hread]
      | string s =>
          obtain ⟨text, htext, hread⟩ := string_quote s rest
          rw [Json.itemText, Json.pretty, htext, value, skip_cons rfl]
          simp [hread]
      | @array items h =>
          refine value_array h fun j hmem more hmore => ih (h j hmem) ?_ hmore
          obtain ⟨blanks, -, htext⟩ := Json.itemText_array depth items
          have hle := Json.length_le_lines (depth + 1) (Json.itemText (depth + 1)) hmem
          rw [htext, List.length_cons, List.length_append] at hn
          omega
      | @object members h =>
          refine value_object fun m hmem more hmore => ih (h m hmem) ?_ hmore
          obtain ⟨blanks, -, htext⟩ := Json.itemText_object depth members
          have hle := Json.length_le_lines (depth + 1) (Json.memberText (depth + 1)) hmem
          rw [htext, List.length_cons, List.length_append] at hn
          rw [Json.memberText, List.length_append, List.length_cons, List.length_cons] at hle
          omega

end JsonReader

/-- A JSON tree is read back from its indented text. -/
theorem Json.read?_pretty {j : Json} (hj : j.Finite) (depth : Nat) :
    Json.read? (j.pretty depth) = some j := by
  have hlength : (itemText depth j).length < (j.pretty depth).length + 1 := by
    rw [itemText, String.length_toList]
    exact Nat.lt_succ_self _
  have hvalue := JsonReader.value_itemText hj hlength JsonReader.ends_nil
  rw [List.append_nil, itemText] at hvalue
  rw [Json.read?, hvalue]
  rfl

-- texts from elsewhere are read as well, with other blanks and escapes
example : Json.read? " [1, \"\\u00e9\\ud83d\\ude00\" ]" =
    some (.array [.integer 1, .string "é😀"]) := by rfl

end TypedConfig
