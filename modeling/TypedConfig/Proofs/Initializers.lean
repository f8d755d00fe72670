import Mathlib.Data.List.Nodup
import TypedConfig.Proofs.Refinement
import TypedConfig.Proofs.Values

/-!
# When a new object fits its type

A new object fits a type if its fields have different names, each of them is a field of the type's
shape with a value that fits there, and every field of the shape that needs a value has one
(`Expr.Fits`).  A binding of a new object succeeds exactly if the object fits the declared type
(`Stmt.binding_object_iff`).

**Spread out checks.** The machine never looks at a new object as a whole.  A name that stands twice
or is unknown comes up when its field is added, a type that is wrong when a value is assigned, and a
field that is missing when the object is complete.  The names added so far are the induction
hypothesis that ties the three together.

**What comes of it.** The object has the fields that were written, in that order, each with the type
that the shape gives it (`Expr.Makes`).
-/

namespace TypedConfig

/-! ## What is to be shown -/

/-- Whether an expression fits a type, given what names are bound to. -/
inductive Expr.Fits (s : Scopes) : Expr → DataType → Prop
  /-- A value that is no new object has the type, and is there unless the type is optional. -/
  | value {e : Expr} {t : DataType} {v : Value} (eval : e.evalPath s = .ok v)
      (hasType : v.type.equals t = true) (present : v.isNil = true → t.isOptional = true) :
      Fits s e t
  /-- A new object has different fields, all of them fields of the shape and with values that fit,
  and leaves none out that is neither optional nor an array. -/
  | object {fields : List FieldInit} {span : Span} {t : DataType} {shape : Shape}
      (isObject : t.isObject = true) (hasShape : t.shape = some shape)
      (distinct : (fields.map (·.name)).Nodup)
      (known : ∀ f ∈ fields, (DataType.field? shape f.name).isSome = true)
      (fit : ∀ f ∈ fields, ∀ u, DataType.field? shape f.name = some u → Fits s f.value u)
      (complete : ∀ f ∈ shape, f.2.isOptional = false → f.2.isArray = false →
        f.1 ∈ fields.map (·.name)) :
      Fits s (.object fields span) t

mutual

/-- What an expression becomes where a value of a type is wanted. -/
inductive Expr.Makes (s : Scopes) : Expr → DataType → Value → Prop
  | value {e : Expr} {t : DataType} {v : Value} (eval : e.evalPath s = .ok v) :
      Expr.Makes s e t (v.retype t).mutable
  | object {fields : List FieldInit} {span : Span} {t : DataType} {shape : Shape}
      {given : Bindings Value} (hasShape : t.shape = some shape)
      (makes : FieldInit.MakesAll s shape fields given) :
      Expr.Makes s (.object fields span) t (Value.object t given).mutable

/-- What the fields of a new object become, with the types that the shape gives them. -/
inductive FieldInit.MakesAll (s : Scopes) : Shape → List FieldInit → Bindings Value → Prop
  | nil {shape : Shape} : FieldInit.MakesAll s shape [] []
  | cons {shape : Shape} {f : FieldInit} {fs : List FieldInit} {u : DataType} {v : Value}
      {given : Bindings Value} (declared : DataType.field? shape f.name = some u)
      (makes : Expr.Makes s f.value u v) (rest : FieldInit.MakesAll s shape fs given) :
      FieldInit.MakesAll s shape (f :: fs) ((f.name, v) :: given)

end

lemma Expr.Makes.type_eq {s : Scopes} {e : Expr} {t : DataType} {v : Value}
    (h : e.Makes s t v) : v.type = t := by
  cases h <;> rfl

lemma FieldInit.MakesAll.names_eq {s : Scopes} {shape : Shape} {fs : List FieldInit}
    {given : Bindings Value} (h : MakesAll s shape fs given) :
    given.names = fs.map (·.name) := by
  induction fs generalizing given with
  | nil =>
      cases h
      rfl
  | cons f fs ih =>
      cases h with
      | cons _ _ rest => exact congrArg (f.name :: ·) (ih rest)

/-! ## The single checks -/

lemma Bindings.contains_iff {α : Type} {b : Bindings α} {n : String} :
    b.contains n = true ↔ n ∈ b.names := b.get?_isSome_iff n

/-- A name that is not bound yet comes last. -/
lemma Bindings.set_of_not_mem {α : Type} {b : Bindings α} {n : String} (h : n ∉ b.names)
    (x : α) : b.set n x = b ++ [(n, x)] := by
  induction b with
  | nil => rfl
  | cons p b ih =>
      obtain ⟨m, y⟩ := p
      have hm : m ≠ n := fun heq => h (heq ▸ List.mem_cons_self)
      have hb : n ∉ names b := fun hmem => h (List.mem_cons_of_mem _ hmem)
      rw [set, if_neg hm, ih hb]
      rfl

lemma located_eq_ok {α : Type} {span : Span} {x : Except RuntimeFault α} {a : α} :
    located span x = .ok a ↔ x = .ok a := by
  cases x <;> simp [located, Except.mapError]

namespace Step

variable {t : DataType} {n : String} {v w : Value} {given given' : Bindings Value}

lemma assign_eq_ok : assign n t v = .ok w ↔
    v.type.equals t = true ∧ (v.isNil = true → t.isOptional = true) ∧ w = v.retype t := by
  refine ⟨assign_ok, ?_⟩
  rintro ⟨hequals, hnil, rfl⟩
  have hpresent : (v.isNil && !t.isOptional) = false := by
    cases hv : v.isNil with
    | false => rfl
    | true => rw [hnil hv]; rfl
  rw [assign, hequals, hpresent]
  rfl

/-- A field that is added comes last. -/
lemma addField_eq_ok : addField t given n v = .ok given' ↔
    ∃ u w, fieldType t n = .ok u ∧ n ∉ given.names ∧ assign n u v = .ok w ∧
      given' = given ++ [(n, w.mutable)] := by
  rw [addField]
  cases fieldType t n with
  | error fault => simp
  | ok u =>
      dsimp only
      by_cases hn : n ∈ given.names
      · simp [Bindings.contains_iff.mpr hn, hn]
      · have hcontains : given.contains n = false := by
          rw [← Bool.not_eq_true, Bindings.contains_iff]
          exact hn
        cases hassign : assign n u v with
        | error fault => simp [hcontains, hassign, Except.map]
        | ok w => simp [hcontains, hassign, hn, Except.map, Bindings.set_of_not_mem hn, eq_comm]

/-- The fields that have no default are those whose types are neither optional nor arrays. -/
lemma checkSealed_eq_ok : checkSealed t given = .ok () ↔ ∃ shape, t.shape = some shape ∧
    ∀ f ∈ shape, f.2.isOptional = false → f.2.isArray = false → f.1 ∈ given.names := by
  constructor
  · intro h
    obtain ⟨shape, hshape, hrequired⟩ := checkSealed_ok h
    refine ⟨shape, hshape, fun f hf ho ha => ?_⟩
    exact Bindings.contains_iff.mp (hrequired f hf (default?_eq_none.mpr ⟨ho, ha⟩))
  · rintro ⟨shape, hshape, hcomplete⟩
    have hfind : (shape.find? fun f => (default? f.2).isNone && !given.contains f.1) = none := by
      rw [List.find?_eq_none]
      intro f hf hmissing
      rw [Bool.and_eq_true, Option.isNone_iff_eq_none, default?_eq_none] at hmissing
      obtain ⟨⟨ho, ha⟩, hcontains⟩ := hmissing
      rw [Bindings.contains_iff.mpr (hcomplete f hf ho ha)] at hcontains
      cases hcontains
    rw [checkSealed, hshape]
    dsimp only
    rw [hfind]

end Step

/-! ## The evaluator on new objects -/

section

variable {s : Scopes} {t : DataType} {shape : Shape} {given given' : Bindings Value} {v : Value}

lemma Expr.evalAs_of_not_object {e : Expr} (h : ∀ fields span, e ≠ .object fields span)
    (schema : Except RuntimeFault DataType) : e.evalAs s schema = e.evalPath s := by
  cases e with
  | object fields span => exact absurd rfl (h fields span)
  | _ => simp only [evalAs]

lemma Expr.evalAs_object_eq_ok {fields : List FieldInit} {span : Span} :
    (Expr.object fields span).evalAs s (.ok t) = .ok v ↔
      t.isObject = true ∧ ∃ given, FieldInit.evalAll s t [] fields = .ok given ∧
        Step.checkSealed t given = .ok () ∧ v = .object t given := by
  simp only [evalAs, bind_eq_ok, located_eq_ok, Except.ok.injEq, exists_eq_left']
  cases t.isObject with
  | false => simp [bind, Except.bind, throw, throwThe, MonadExceptOf.throw]
  | true =>
      simp only [Bool.not_true, Bool.false_eq_true, if_false, true_and, bind_eq_ok, located_eq_ok]
      constructor
      · rintro ⟨given, hgiven, ⟨⟩, hsealed, hv⟩
        cases hv
        exact ⟨given, hgiven, hsealed, rfl⟩
      · rintro ⟨given, hgiven, hsealed, rfl⟩
        exact ⟨given, hgiven, (), hsealed, rfl⟩

lemma FieldInit.evalAll_cons_eq_ok {f : FieldInit} {fs : List FieldInit} :
    evalAll s t given (f :: fs) = .ok given' ↔
      ∃ v mid, f.value.evalAs s (Step.fieldType t f.name) = .ok v ∧
        Step.addField t given f.name v = .ok mid ∧ evalAll s t mid fs = .ok given' := by
  obtain ⟨name, value, span⟩ := f
  simp only [evalAll, bind_eq_ok, located_eq_ok]
  constructor
  · rintro ⟨v, hv, mid, hmid, hrest⟩
    exact ⟨v, mid, hv, hmid, hrest⟩
  · rintro ⟨v, mid, hv, hmid, hrest⟩
    exact ⟨v, hv, mid, hmid, hrest⟩

end

/-! ## Soundness and completeness of the checks -/

mutual

/-- What can be assigned fits, and what is assigned is what the expression makes. -/
lemma Expr.fits_of_assign (e : Expr) {s : Scopes} {t : DataType} {n : String} {v w : Value}
    (heval : e.evalAs s (.ok t) = .ok v) (hassign : Step.assign n t v = .ok w) :
    e.Fits s t ∧ e.Makes s t w.mutable := by
  obtain ⟨hequals, hpresent, rfl⟩ := Step.assign_ok hassign
  match e, heval with
  | .object fields span, heval =>
      obtain ⟨hobject, given, hgiven, hsealed, rfl⟩ := Expr.evalAs_object_eq_ok.mp heval
      obtain ⟨shape, hshape, hcomplete⟩ := Step.checkSealed_eq_ok.mp hsealed
      obtain ⟨hdistinct, hfits, _, rfl, hmade⟩ :=
        FieldInit.fits_of_evalAll fields hshape hgiven List.nodup_nil
      refine ⟨.object hobject hshape hdistinct ?_ ?_ ?_, .object hshape hmade⟩
      · intro f hf
        obtain ⟨u, hu, -⟩ := hfits f hf
        rw [hu]
        rfl
      · intro f hf u hu
        obtain ⟨u', hu', hfit⟩ := hfits f hf
        rw [hu] at hu'
        cases hu'
        exact hfit
      · intro f hf ho ha
        rw [← hmade.names_eq]
        exact hcomplete f hf ho ha
  | .name _ _, heval | .literal _ _, heval | .member _ _ _, heval | .call _ _ _, heval =>
      simp only [Expr.evalAs] at heval
      exact ⟨.value heval hequals hpresent, .value heval⟩

/-- Fields that could be added to an object fit, have names of their own, and come to stand behind
the fields that were there. -/
lemma FieldInit.fits_of_evalAll (fs : List FieldInit) {s : Scopes} {t : DataType} {shape : Shape}
    (hshape : t.shape = some shape) {given given' : Bindings Value}
    (h : FieldInit.evalAll s t given fs = .ok given') (hgiven : given.names.Nodup) :
    (given.names ++ fs.map (·.name)).Nodup ∧
    (∀ f ∈ fs, ∃ u, DataType.field? shape f.name = some u ∧ f.value.Fits s u) ∧
    ∃ made, given' = given ++ made ∧ FieldInit.MakesAll s shape fs made := by
  match fs, h with
  | [], h =>
      cases h
      refine ⟨?_, nofun, [], (List.append_nil given).symm, .nil⟩
      rw [List.map_nil, List.append_nil]
      exact hgiven
  | ⟨name, value, span⟩ :: fs, h =>
      obtain ⟨v, mid, hv, hmid, hrest⟩ := FieldInit.evalAll_cons_eq_ok.mp h
      obtain ⟨u, w, hu, hnew, hassign, rfl⟩ := Step.addField_eq_ok.mp hmid
      obtain ⟨shape', hshape', hfield⟩ := Step.fieldType_eq_ok.mp hu
      rw [hshape] at hshape'
      cases hshape'
      rw [hu] at hv
      obtain ⟨hfit, hmakes⟩ := value.fits_of_assign hv hassign
      have hmid : (Bindings.names (given ++ [(name, w.mutable)])).Nodup := by
        rw [Bindings.names, List.map_append]
        exact List.nodup_append_comm.mp (List.nodup_cons.mpr ⟨hnew, hgiven⟩)
      obtain ⟨hdistinct, hfits, made, rfl, hmade⟩ :=
        FieldInit.fits_of_evalAll fs hshape hrest hmid
      refine ⟨?_, ?_, (name, w.mutable) :: made, by simp, .cons hfield hmakes hmade⟩
      · simpa [Bindings.names] using hdistinct
      · intro f hf
        rcases List.mem_cons.mp hf with rfl | hf
        · exact ⟨u, hfield, hfit⟩
        · exact hfits f hf

end

mutual

/-- What fits can be assigned. -/
lemma Expr.assign_of_fits (e : Expr) {s : Scopes} {t : DataType} (h : e.Fits s t) (n : String) :
    ∃ v w, e.evalAs s (.ok t) = .ok v ∧ Step.assign n t v = .ok w := by
  match e, h with
  | .object fields span, .object hobject hshape hdistinct hknown hfit hcomplete =>
      obtain ⟨given, hgiven⟩ := FieldInit.evalAll_of_fits fields hshape [] hdistinct fun f hf => by
        obtain ⟨u, hu⟩ := Option.isSome_iff_exists.mp (hknown f hf)
        exact ⟨u, hu, hfit f hf u hu⟩
      obtain ⟨-, -, _, rfl, hmade⟩ :=
        FieldInit.fits_of_evalAll fields hshape hgiven List.nodup_nil
      have hsealed : Step.checkSealed t given = .ok () := by
        refine Step.checkSealed_eq_ok.mpr ⟨_, hshape, ?_⟩
        intro f hf ho ha
        rw [hmade.names_eq]
        exact hcomplete f hf ho ha
      exact ⟨_, _, Expr.evalAs_object_eq_ok.mpr ⟨hobject, _, hgiven, hsealed, rfl⟩,
        Step.assign_eq_ok.mpr ⟨DataType.equals_refl t, nofun, rfl⟩⟩
  | e, .value heval hequals hpresent =>
      refine ⟨_, _, ?_, Step.assign_eq_ok.mpr ⟨hequals, hpresent, rfl⟩⟩
      rw [Expr.evalAs_of_not_object ?_]
      · exact heval
      · rintro fields span rfl
        cases heval

/-- Fields that fit and have names of their own can be added to an object. -/
lemma FieldInit.evalAll_of_fits (fs : List FieldInit) {s : Scopes} {t : DataType} {shape : Shape}
    (hshape : t.shape = some shape) (given : Bindings Value)
    (hdistinct : (given.names ++ fs.map (·.name)).Nodup)
    (hfits : ∀ f ∈ fs, ∃ u, DataType.field? shape f.name = some u ∧ f.value.Fits s u) :
    ∃ given', FieldInit.evalAll s t given fs = .ok given' := by
  match fs with
  | [] => exact ⟨given, rfl⟩
  | ⟨name, value, span⟩ :: fs =>
      obtain ⟨u, hfield, hfit⟩ := hfits _ List.mem_cons_self
      have hu : Step.fieldType t name = .ok u := Step.fieldType_eq_ok.mpr ⟨shape, hshape, hfield⟩
      obtain ⟨v, w, hv, hassign⟩ := value.assign_of_fits hfit name
      have hnew : name ∉ given.names := by
        intro hmem
        exact (List.nodup_append.mp hdistinct).2.2 name hmem name List.mem_cons_self rfl
      have hmid : (Bindings.names (given ++ [(name, w.mutable)]) ++ fs.map (·.name)).Nodup := by
        simpa [Bindings.names] using hdistinct
      obtain ⟨given', hrest⟩ := FieldInit.evalAll_of_fits fs hshape _ hmid fun f hf =>
        hfits f (List.mem_cons_of_mem _ hf)
      rw [← hu] at hv
      exact ⟨given', FieldInit.evalAll_cons_eq_ok.mpr
        ⟨v, _, hv, Step.addField_eq_ok.mpr ⟨u, w, hu, hnew, hassign, rfl⟩, hrest⟩⟩

end

/-! ## Bindings of new objects -/

lemma Expr.evalBound_eq_ok {s : Scopes} {n : String} {t : DataType} {span : Span} {e : Expr}
    {w : Value} : Expr.evalBound s n t span (some e) = .ok w ↔
      ∃ v, e.evalAs s (.ok t) = .ok v ∧ Step.assign n t v = .ok w := by
  simp only [evalBound, bind_eq_ok, located_eq_ok]

/-- Once the type is known, a binding comes down to the value that is bound. -/
lemma Stmt.eval_binding {name : String} {type : TypeExpr} {value : Option Expr} {span : Span}
    {w : World} {t : DataType} (ht : type.eval w.scopes = .ok t) :
    (Stmt.binding name type value span).eval w =
      w.andThen (Expr.evalBound w.scopes name t span value) fun v =>
        { w with scopes := w.scopes.bind name v.mutable } := by
  rw [eval, ht]
  rfl

/-- Whatever the names in scope are bound to and however deep the object is, the code of a binding
of a new object, unless it outgrows a limit, succeeds exactly if the object fits the declared type.
It then binds the name to the object that the fields make, of the declared type. -/
theorem Stmt.binding_object_iff {name : String} {type : TypeExpr} {fields : List FieldInit}
    {objectSpan span : Span} {code : Code}
    (h : (Stmt.binding name type (some (.object fields objectSpan)) span).compile = .ok code)
    {next : Option Instr} {s : RunState} (hs : s.frames.Linked) {t : DataType}
    (ht : type.eval s.frames.scopes = .ok t)
    (hroom : ∀ e, (runCode next code s).2 = some e → e.cause.isOverflow = false) :
    ((runCode next code s).2 = none ↔
      (Expr.object fields objectSpan).Fits s.frames.scopes t) ∧
    ((runCode next code s).2 = none → ∃ v,
      (Expr.object fields objectSpan).Makes s.frames.scopes t v ∧ v.type = t ∧
      (runCode next code s).1.frames.scopes = s.frames.scopes.bind name v) := by
  have heval := (Stmt.performs_eval _ h hs).of_room hroom
  rw [Stmt.eval_binding ht] at heval
  cases hbound : Expr.evalBound s.frames.scopes name t span (some (.object fields objectSpan)) with
  | error e =>
      have hfailed : (runCode next code s).2 = some e := by
        have hwant := congrArg Prod.snd heval
        rw [show s.world.scopes = s.frames.scopes from rfl, hbound] at hwant
        exact hwant.symm
      refine ⟨⟨?_, ?_⟩, ?_⟩
      · intro hrun
        rw [hfailed] at hrun
        cases hrun
      · intro hfits
        obtain ⟨v, w, hv, hassign⟩ := Expr.assign_of_fits _ hfits name
        rw [Expr.evalBound_eq_ok.mpr ⟨v, hv, hassign⟩] at hbound
        cases hbound
      · intro hrun
        rw [hfailed] at hrun
        cases hrun
  | ok w =>
      rw [show s.world.scopes = s.frames.scopes from rfl, hbound] at heval
      obtain ⟨v, hv, hassign⟩ := Expr.evalBound_eq_ok.mp hbound
      obtain ⟨hfits, hmakes⟩ := Expr.fits_of_assign _ hv hassign
      have hrun : (runCode next code s).2 = none := (congrArg Prod.snd heval).symm
      refine ⟨⟨fun _ => hfits, fun _ => hrun⟩, fun _ => ⟨_, hmakes, hmakes.type_eq, ?_⟩⟩
      exact (congrArg (·.1.scopes) heval).symm

/-- A state that knows the types `Point`, with the fields `x: int` and `label: string?`, and `Line`,
with the fields `start: Point` and `goal: Point?`. -/
def RunState.drawing : RunState where
  stack := .empty 16
  frames := { root := { CallStack.empty.root with types := [("Point", point), ("Line", line)] } }
  maxFrames := 1
where
  point : DataType := .object "Point" [("x", .integer), ("label", DataType.string.withOptional true)]
  line : DataType := .object "Line" [("start", point), ("goal", point.withOptional true)]

/-- The binding `let l: Line = new { goal = new { label = "end" x = 2 } start = new { x = 1 } }`. -/
def Stmt.drawing : Stmt :=
  .binding "l" (.named "Line" {}) (some (.object [
    ⟨"goal", .object [⟨"label", .literal (.string "end") {}, {}⟩,
      ⟨"x", .literal (.integer 2) {}, {}⟩] {}, {}⟩,
    ⟨"start", .object [⟨"x", .literal (.integer 1) {}, {}⟩] {}, {}⟩] {})) {}

/-- The fields come in another order than in the types, and a point may go without its label. -/
theorem Stmt.binding_object_drawing : ∃ code v, drawing.compile = .ok code ∧
    (runCode none code .drawing).2 = none ∧ v.type.name = "Line" ∧
    (runCode none code .drawing).1.frames.scopes =
      RunState.drawing.frames.scopes.bind "l" v := by
  obtain ⟨code, hcode⟩ : ∃ code, drawing.compile = .ok code := ⟨_, rfl⟩
  have hrun : (runCode none code .drawing).2 = none := by
    cases hcode
    decide +kernel
  have hbinds := binding_object_iff hcode (s := .drawing) rfl rfl fun e he => by
    rw [hrun] at he
    cases he
  obtain ⟨v, -, hv, hscopes⟩ := hbinds.2 hrun
  exact ⟨code, v, hcode, hrun, congrArg DataType.name hv, hscopes⟩

end TypedConfig
