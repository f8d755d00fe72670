import TypedConfig.Proofs.Likeness
import TypedConfig.Proofs.Values
import TypedConfig.Proofs.WrittenTypes

/-!
# What the name of a type tells

Messages show types by their names.  For the types that a program can say, nothing else is needed:
two of them are the same if and only if their names are, the marks of optional types aside.

**Types that can be said** are the builtin ones, those of objects with a name that is not builtin,
and arrays of such types, each optional or not (`DataType.Sayable`).

**Decoding.** The name of an array begins with a bracket and goes on with the name of its items.  No
word begins with a bracket, so a name is that of an array, of an object or of a builtin type, and
not of two of them.
-/

namespace TypedConfig

namespace DataType

/-- Whether a type can be said with the given names for the types of objects. -/
inductive Sayable (names : String → Prop) : DataType → Prop
  | builtin {ref : TypeRef} {t : DataType} (h : primitive? ref = some t) (b : Bool) :
      Sayable names (t.withOptional b)
  | array {item : DataType} (h : Sayable names item) (b : Bool) :
      Sayable names ((arrayOf item).withOptional b)
  | object {n : String} {fields : Shape} (hn : names n) (hb : n ∉ TypeRef.builtinNames)
      (h : ∀ f ∈ fields, Sayable names f.2) (b : Bool) :
      Sayable names ((DataType.object n fields).withOptional b)

mutual

/-- The type without the marks of optional types in its name. -/
def unmarked : DataType → DataType
  | ⟨tag, name, _, shape, params⟩ => ⟨tag, name, false, shape, unmarkedAll params⟩

/-- The types without the marks of optional types in their names. -/
def unmarkedAll : List DataType → List DataType
  | [] => []
  | t :: ts => t.unmarked :: unmarkedAll ts

end

/-- The text without question marks. -/
def withoutMarks (text : String) : String := String.ofList (text.toList.filter (· ≠ '?'))

/-- Whether a name is not that of an array and has no mark in it. -/
structure IsPlain (n : String) : Prop where
  no_bracket : n.toList.head? ≠ some '['
  no_mark : '?' ∉ n.toList

/-! ## Names that are plain -/

lemma isPlain_builtin {n : String} (h : n ∈ TypeRef.builtinNames) : IsPlain n := by
  simp only [TypeRef.builtinNames, List.mem_cons, List.not_mem_nil, or_false] at h
  rcases h with rfl | rfl | rfl | rfl <;> exact ⟨by decide, by decide⟩

/-- Names that may stand in a text are plain. -/
lemma isPlain_of_isName {n : String} (h : IsName n) : IsPlain n := by
  obtain ⟨w, -, hchars⟩ := h.chars
  have hfirst := w.first_begins
  have hmore := w.more_continues
  constructor
  · intro hhead
    rw [hchars, Word.chars, List.head?_cons, Option.some.injEq] at hhead
    rw [hhead] at hfirst
    exact absurd hfirst (by decide)
  · intro hmark
    rw [hchars, Word.chars, List.mem_cons] at hmark
    rcases hmark with hmark | hmark
    · rw [← hmark] at hfirst
      exact absurd hfirst (by decide)
    · exact absurd (hmore _ hmark) (by decide)

/-- The name of an array is not plain. -/
lemma IsPlain.ne_array {n : String} (h : IsPlain n) (text : String) : n ≠ "[]" ++ text := by
  rintro rfl
  refine h.no_bracket ?_
  rw [String.toList_append]
  rfl

/-! ## Names in messages -/

lemma withoutMarks_eq_self {n : String} (h : '?' ∉ n.toList) : withoutMarks n = n := by
  have hfilter : n.toList.filter (· ≠ '?') = n.toList := by
    refine List.filter_eq_self.mpr fun c hc => ?_
    simpa using fun heq : c = '?' => h (heq ▸ hc)
  rw [withoutMarks, hfilter, String.ofList_toList]

lemma withoutMarks_append (a b : String) :
    withoutMarks (a ++ b) = withoutMarks a ++ withoutMarks b := by
  rw [withoutMarks, String.toList_append, List.filter_append, String.ofList_append]
  rfl

section

variable {ref ref' : TypeRef} {t u : DataType}

/-- The builtin types have no parameters. -/
lemma primitive?_eq_some (h : primitive? ref = some t) :
    ∃ tag n, t = ⟨tag, n, false, none, []⟩ := by
  cases ref <;> cases h <;> exact ⟨_, _, rfl⟩

lemma name_of_primitive? (h : primitive? ref = some t) : t.name ∈ TypeRef.builtinNames := by
  cases ref <;> cases h <;> decide

lemma isArray_of_primitive? (h : primitive? ref = some t) : t.isArray = false := by
  cases ref <;> cases h <;> rfl

lemma isObject_of_primitive? (h : primitive? ref = some t) : t.isObject = false := by
  cases ref <;> cases h <;> rfl

/-- The builtin types are told apart by their names. -/
lemma equals_primitive (ht : primitive? ref = some t) (hu : primitive? ref' = some u)
    (b c : Bool) : (t.withOptional b).equals (u.withOptional c) = true ↔ t.name = u.name := by
  rw [equals_withOptional, equals_iff]
  cases ref <;> cases ht <;> cases ref' <;> cases hu <;>
    simp [DataType.string, DataType.integer, DataType.boolean, DataType.float,
      DataType.withOptional, equalsAll]

@[simp] lemma isArray_withOptional (t : DataType) (b : Bool) :
    (t.withOptional b).isArray = t.isArray := rfl

@[simp] lemma isObject_withOptional (t : DataType) (b : Bool) :
    (t.withOptional b).isObject = t.isObject := rfl

@[simp] lemma isArray_arrayOf (t : DataType) : (arrayOf t).isArray = true := rfl

@[simp] lemma isObject_object (n : String) (fields : Shape) :
    (DataType.object n fields).isObject = true := rfl

lemma equals_arrayOf (t u : DataType) (b c : Bool) :
    ((arrayOf t).withOptional b).equals ((arrayOf u).withOptional c) = t.equals u := by
  simp [arrayOf, DataType.withOptional, equals, equalsAll]

lemma equals_object (n m : String) (fields fields' : Shape) (b c : Bool) :
    ((DataType.object n fields).withOptional b).equals
      ((DataType.object m fields').withOptional c) = true ↔ n = m := by
  simp [DataType.object, DataType.withOptional, equals, equalsAll]

/-- The name of a type without parameters. -/
lemma fullName_simple (tag : TypeTag) (n : String) (b : Bool) (shape : Option Shape) :
    fullName ⟨tag, n, b, shape, []⟩ = if b then n ++ "?" else n := by
  cases tag <;> rfl

lemma fullName_primitive (h : primitive? ref = some t) (b : Bool) :
    (t.withOptional b).fullName = if b then t.name ++ "?" else t.name := by
  obtain ⟨tag, n, rfl⟩ := primitive?_eq_some h
  exact fullName_simple tag n b none

lemma fullName_arrayOf (t : DataType) (b : Bool) : ((arrayOf t).withOptional b).fullName =
    if b then "[]" ++ t.fullName ++ "?" else "[]" ++ t.fullName := rfl

lemma fullName_object (n : String) (fields : Shape) (b : Bool) :
    ((DataType.object n fields).withOptional b).fullName = if b then n ++ "?" else n :=
  fullName_simple .object n b (some fields)

lemma unmarked_primitive (h : primitive? ref = some t) (b : Bool) :
    (t.withOptional b).unmarked.fullName = t.name := by
  obtain ⟨tag, n, rfl⟩ := primitive?_eq_some h
  exact fullName_simple tag n false none

lemma unmarked_arrayOf (t : DataType) (b : Bool) :
    ((arrayOf t).withOptional b).unmarked.fullName = "[]" ++ t.unmarked.fullName := rfl

lemma unmarked_object (n : String) (fields : Shape) (b : Bool) :
    ((DataType.object n fields).withOptional b).unmarked.fullName = n :=
  fullName_simple .object n false (some fields)

end

/-! ## Types that can be said -/

namespace Sayable

variable {names : String → Prop} {t u : DataType}

lemma withOptional (h : Sayable names t) (b : Bool) : Sayable names (t.withOptional b) := by
  cases h with
  | builtin h c => exact .builtin h b
  | array h c => exact .array h b
  | object hn hb h c => exact .object hn hb h b

/-- The types of fields can be said if that of the object can. -/
lemma field {shape : Shape} {n : String} (h : Sayable names t) (hshape : t.shape = some shape)
    (hfield : field? shape n = some u) : Sayable names u := by
  obtain ⟨f, hf, rfl⟩ : ∃ f ∈ shape, f.2 = u := by
    obtain ⟨f, hfind, hu⟩ := Option.map_eq_some_iff.mp hfield
    exact ⟨f, List.mem_of_find?_eq_some hfind, hu⟩
  cases h with
  | @builtin ref _ h c => cases ref <;> cases h <;> cases hshape
  | array h c => cases hshape
  | object hn hb h c =>
      cases hshape
      exact h f hf

/-- Without the marks, the name of a type is that of the type without marks. -/
lemma withoutMarks_fullName (hnames : ∀ n, names n → IsPlain n) (h : Sayable names t) :
    withoutMarks t.fullName = t.unmarked.fullName := by
  have hmark (n : String) (b : Bool) :
      withoutMarks (if b then n ++ "?" else n) = withoutMarks n := by
    cases b with
    | false => rfl
    | true =>
        rw [if_pos rfl, withoutMarks_append]
        exact String.append_empty
  induction h with
  | builtin h b =>
      rw [fullName_primitive h, hmark, unmarked_primitive h,
        withoutMarks_eq_self (isPlain_builtin (name_of_primitive? h)).no_mark]
  | array h b ih =>
      rw [fullName_arrayOf, hmark, withoutMarks_append, ih, unmarked_arrayOf]
      rfl
  | object hn hb h b ih =>
      rw [fullName_object, hmark, unmarked_object, withoutMarks_eq_self (hnames _ hn).no_mark]

/-- Types that can be said are equal if and only if their names are, the marks aside. -/
theorem equals_iff_unmarked (hnames : ∀ n, names n → IsPlain n) (ht : Sayable names t)
    (hu : Sayable names u) : t.equals u = true ↔ t.unmarked.fullName = u.unmarked.fullName := by
  induction ht generalizing u with
  | builtin h b =>
      have hn := name_of_primitive? h
      rw [unmarked_primitive h]
      cases hu with
      | builtin h' c => rw [unmarked_primitive h', equals_primitive h h']
      | array h' c =>
          rw [unmarked_arrayOf]
          refine iff_of_false (fun hequals => ?_) ((isPlain_builtin hn).ne_array _)
          exact absurd (isArray_of_equals hequals) (by simp [isArray_of_primitive? h])
      | object hm hb h' c =>
          rw [unmarked_object]
          refine iff_of_false (fun hequals => ?_) fun heq => hb (heq ▸ hn)
          exact absurd (isObject_of_equals hequals) (by simp [isObject_of_primitive? h])
  | array h b ih =>
      rw [unmarked_arrayOf]
      cases hu with
      | builtin h' c =>
          rw [unmarked_primitive h']
          refine iff_of_false (fun hequals => ?_)
            ((isPlain_builtin (name_of_primitive? h')).ne_array _).symm
          exact absurd (isArray_of_equals hequals) (by simp [isArray_of_primitive? h'])
      | array h' c => rw [equals_arrayOf, ih h', unmarked_arrayOf, String.append_right_inj]
      | object hm hb h' c =>
          rw [unmarked_object]
          refine iff_of_false (fun hequals => ?_) ((hnames _ hm).ne_array _).symm
          exact Bool.noConfusion (isArray_of_equals hequals)
  | object hn hb h b ih =>
      rw [unmarked_object]
      cases hu with
      | builtin h' c =>
          rw [unmarked_primitive h']
          refine iff_of_false (fun hequals => ?_) fun heq => hb (heq ▸ name_of_primitive? h')
          exact absurd (isObject_of_equals hequals) (by simp [isObject_of_primitive? h'])
      | array h' c =>
          rw [unmarked_arrayOf]
          refine iff_of_false (fun hequals => ?_) ((hnames _ hn).ne_array _)
          exact Bool.noConfusion (isArray_of_equals hequals)
      | object hm hb' h' c => rw [unmarked_object, equals_object]

/-- Only a type of objects has a plain name that is not builtin. -/
lemma object_of_fullName (hnames : ∀ n, names n → IsPlain n) (h : Sayable names t) {n : String}
    (hn : IsPlain n) (hb : n ∉ TypeRef.builtinNames) (heq : t.fullName = n) :
    t.isObject = true ∧ names n := by
  have hunmarked : t.unmarked.fullName = n := by
    rw [← h.withoutMarks_fullName hnames, heq, withoutMarks_eq_self hn.no_mark]
  cases h with
  | builtin h b =>
      rw [unmarked_primitive h] at hunmarked
      exact absurd (hunmarked ▸ name_of_primitive? h) hb
  | array h b =>
      rw [unmarked_arrayOf] at hunmarked
      exact absurd hunmarked.symm (hn.ne_array _)
  | object hm hb h b =>
      rw [unmarked_object] at hunmarked
      exact ⟨rfl, hunmarked ▸ hm⟩

end Sayable

/-! ## Equality is an equivalence -/

mutual

lemma equals_symm : ∀ {t u : DataType}, t.equals u = true → u.equals t = true
  | ⟨_, _, _, _, params⟩, ⟨_, _, _, _, params'⟩, h => by
      obtain ⟨htag, hname, hparams⟩ := equals_iff.mp h
      exact equals_iff.mpr ⟨htag.symm, hname.symm, equalsAll_symm hparams⟩

lemma equalsAll_symm : ∀ {ts us : List DataType}, equalsAll ts us = true → equalsAll us ts = true
  | [], [], _ => rfl
  | t :: ts, u :: us, h => by
      rw [equalsAll, Bool.and_eq_true] at h ⊢
      exact ⟨equals_symm h.1, equalsAll_symm h.2⟩

end

end DataType

end TypedConfig
