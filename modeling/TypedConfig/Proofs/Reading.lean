import TypedConfig.Proofs.Members
import TypedConfig.Proofs.Origins

/-!
# Every field of an object can be read

If no two shapes of a program have the same name, then whatever object a program has bound, every
field of the object's type can be read.  It is what was written in the new object that the object
came from, or else what a binding of the field's type would bind without a value
(`Block.field_of_bound_object`).

**Three rules.** Completing an object, binding without a value and reading a field that was not
given each decide whether something may be left out, and they agree for every type
(`DataType.rulesAgree`).

**A long way.** Between the new object and the read, the object may have been bound, given another
type and become a field any number of times.  What it went through is not needed: whatever a run
binds was built for the shape that its type has (`Value.Shaped.shape_eq`), and by a binding that
the run has executed (`Block.built_of_reaches`).
-/

namespace TypedConfig

/-! ## What may be left out -/

/-- Whether a binding of the type without a value binds this value, as one that may change. -/
def DataType.DefaultsTo (u : DataType) (w : Value) : Prop :=
  ∀ next place (s : RunState) x cs, s.stack.cells = .name x :: .type u :: cs →
    (Instr.store false).execute next place s =
      .ok ((), (s.withCells cs).updateFrame (.bind x w.mutable))

/-- Whether the rules for what may be left out agree on an object of the type `t`, of the given
shape, that was given the fields `given`. -/
structure DataType.RulesAgree (t : DataType) (shape : Shape) (given : Bindings Value) : Prop where
  /-- The object is complete exactly if a binding may leave out the value for each missing field. -/
  complete : ∀ next place (s : RunState) cs, s.stack.cells = .object given :: .type t :: cs →
    (Instr.sealObject.execute next place s = .ok ((), s) ↔
      ∀ f ∈ shape, f.1 ∉ given.names → ∃ w, f.2.DefaultsTo w)
  /-- A missing field is read as what such a binding binds, and can be read exactly if there is
  something that it binds. -/
  read : ∀ next place (s : RunState) n u cs, Step.isCall next = false →
    cs.length < s.stack.limit → s.stack.cells = .name n :: .value (.object t given) :: cs →
    DataType.field? shape n = some u → n ∉ given.names →
    ∀ s', Instr.loadMember.execute next place s = .ok ((), s') ↔
      ∃ w, u.DefaultsTo w ∧ w.isMutable = false ∧ s' = s.withCells (.value w :: cs)

/-- A member that was not given is the default. -/
lemma Step.member_eq_ok_of_missing {v w : Value} {n : String} {given : Bindings Value}
    {u : DataType} (hobject : v.type.isObject = true) (hgiven : v.payload = .object given)
    (hget : given.get? n = none) (hu : fieldType v.type n = .ok u) :
    member v n = .ok w ↔ default? u = some w := by
  rw [member_missing hobject hgiven hget, hu]
  cases hdefault : default? u <;> simp [Except.bind, hdefault]

namespace DataType

variable {t u : DataType} {w : Value} {shape : Shape} {given : Bindings Value}

lemma isMutable_of_default? (h : Step.default? u = some w) : w.isMutable = false := by
  rcases Step.default?_eq_some.mp h with ⟨-, rfl⟩ | ⟨-, -, rfl⟩ <;> rfl

/-- A binding without a value succeeds only if there is a default. -/
lemma DefaultsTo.exists_default? (h : u.DefaultsTo w) :
    ∃ w', Step.default? u = some w' ∧ w'.mutable = w.mutable := by
  have hbinds := h none {} { stack := ⟨[.name "", .type u], 2⟩, maxFrames := 0 } "" [] rfl
  have hstore : (Instr.store false).execute none {}
    { stack := ⟨[.name "", .type u], 2⟩, maxFrames := 0 } = _ := Step.store_default rfl
  rw [hstore, Step.defaultFor] at hbinds
  cases hdefault : Step.default? u with
  | none =>
      rw [hdefault] at hbinds
      cases hbinds
  | some w' =>
      rw [hdefault] at hbinds
      have hstate := congrArg Prod.snd (Except.ok.inj hbinds)
      have hroot : [("", w'.mutable)] = [("", w.mutable)] :=
        congrArg (fun s : RunState => s.frames.root.values) hstate
      exact ⟨w', rfl, by simpa using hroot⟩

/-- A binding without a value binds the default, and shows what it is. -/
lemma defaultsTo_iff : u.DefaultsTo w ∧ w.isMutable = false ↔ Step.default? u = some w := by
  constructor
  · rintro ⟨hw, hmutable⟩
    obtain ⟨w', hdefault, hsame⟩ := hw.exists_default?
    have hmutable' := isMutable_of_default? hdefault
    obtain ⟨t, _, payload⟩ := w
    obtain ⟨t', _, payload'⟩ := w'
    cases hmutable
    cases hmutable'
    cases hsame
    exact hdefault
  · intro h
    refine ⟨?_, isMutable_of_default? h⟩
    intro next place s x cs hcells
    have hstore : (Instr.store false).execute next place s = _ := Step.store_default hcells
    rw [hstore, Step.defaultFor, h]
    rfl

/-- Something may be left out unless its type is neither optional nor one of arrays. -/
lemma exists_defaultsTo_iff :
    (∃ w, u.DefaultsTo w) ↔ ¬(u.isOptional = false ∧ u.isArray = false) := by
  rw [← Step.default?_eq_none]
  constructor
  · rintro ⟨w, hw⟩ hnone
    obtain ⟨w', hdefault, -⟩ := hw.exists_default?
    rw [hdefault] at hnone
    cases hnone
  · intro hu
    obtain ⟨w, hw⟩ := Option.ne_none_iff_exists'.mp hu
    exact ⟨w, (defaultsTo_iff.mpr hw).1⟩

/-- For every type, the rules for what may be left out agree. -/
lemma rulesAgree (hobject : t.isObject = true) (hshape : t.shape = some shape)
    (given : Bindings Value) : t.RulesAgree shape given where
  complete next place s cs hcells := by
    have hseal : Instr.sealObject.execute next place s = _ := Step.sealObject_eq hcells
    have hok : Instr.sealObject.execute next place s = .ok ((), s) ↔
        Step.checkSealed t given = .ok () := by
      rw [hseal]
      cases Step.checkSealed t given <;> simp [Except.map]
    rw [hok, Step.checkSealed_eq_ok]
    simp only [hshape, Option.some.injEq, exists_eq_left', exists_defaultsTo_iff]
    refine forall₂_congr fun f _ => ?_
    tauto
  read next place s n u cs hnext hroom hcells hfield hn s' := by
    have hload : Instr.loadMember.execute next place s = _ :=
      Step.loadMember_value hnext (.value _) hcells
    have hu : Step.fieldType t n = .ok u := Step.fieldType_eq_ok.mpr ⟨shape, hshape, hfield⟩
    have hget : given.get? n = none := by
      rw [← Option.not_isSome_iff_eq_none, Bindings.get?_isSome_iff]
      exact hn
    have hpush (w : Value) : Step.push (.value w) (s.withCells cs) =
        .ok ((), s.withCells (.value w :: cs)) := by
      rw [Step.push_eq]
      exact if_pos hroom
    rw [hload]
    show (Step.member (.object t given) n >>= fun w => Step.push (.value w) (s.withCells cs)) =
      .ok ((), s') ↔ _
    simp only [bind_eq_ok, hpush, Except.ok.injEq, Prod.mk.injEq, true_and, ← and_assoc,
      defaultsTo_iff, eq_comm (b := s')]
    simp only [Step.member_eq_ok_of_missing (v := .object t given) hobject rfl hget hu]

end DataType

/-! ## Paths -/

/-- The value of a path meets the conditions on values. -/
lemma Discipline.Holds.value_of_evalPath {P : Discipline} {l : Layout} {s : RunState}
    (hs : P.Holds l s) {e : Expr} {v : Value} (hv : e.evalPath s.frames.scopes = .ok v) :
    P.value v := by
  match e, hv with
  | .name n span, hv =>
      rw [Expr.evalPath, ← CallStack.get?_eq_value? hs.linked] at hv
      split at hv <;> cases hv
      rename_i hvalue
      exact hs.value_of_get? hvalue
  | .literal l span, hv =>
      cases hv
      exact P.value_literal l
  | .member e n span, hv =>
      rw [Expr.evalPath] at hv
      obtain ⟨receiver, hreceiver, hmember⟩ := bind_eq_ok.mp hv
      exact P.value_member (value_of_evalPath hs hreceiver) (located_eq_ok.mp hmember)
  | .object _ _, hv => cases hv
  | .call _ _ _, hv => cases hv

/-- Code that gives a value and does not outgrow a limit leaves the value on the stack. -/
lemma Expr.runCode_of_evalPath {e : Expr} {code : Code} (h : e.compile false = .ok code)
    {next : Option Instr} (hnext : Step.isCall next = false) {s : RunState}
    (hs : s.frames.Linked) {v : Value} (hv : e.evalPath s.frames.scopes = .ok v)
    (hroom : ∀ e, (runCode next code s).2 = some e → e.cause.isOverflow = false) :
    runCode next code s = (s.withCells (.value v :: s.stack.cells), none) := by
  have hyields := e.yields_evalPath h hnext hs
  rw [Yields, hv] at hyields
  rcases hrun : runCode next code s with ⟨t, _ | e⟩
  · rw [hrun] at hyields
    obtain ⟨w, cells, hw, rfl, rfl⟩ := hyields
    cases hw
    rfl
  · rw [hrun] at hyields hroom
    obtain ⟨-, hover | hw⟩ := hyields
    · rw [hroom e rfl] at hover
      cases hover
    · cases hw

/-! ## Fields -/

/-- If names are given to one shape each, then every field of the shape of an object's type can be
read. -/
lemma Value.Shaped.read_field {defs : List (String × Shape)} (hdefs : (defs.map (·.1)).Nodup)
    {v : Value} (hv : v.Shaped defs) (hobject : v.type.isObject = true)
    (hpresent : v.isNil = false) {shape : Shape} (hshape : v.type.shape = some shape) {n : String}
    {u : DataType} (hfield : DataType.field? shape n = some u) :
    ∃ (given : Bindings Value) (w : Value), v.payload = .object given ∧
      Step.member v n = .ok w ∧ w.type = u ∧
      (given.get? n = some w ∨ given.get? n = none ∧ Step.default? u = some w) := by
  have htag : v.type.tag = .object := of_decide_eq_true hobject
  rcases hv.admits.nil_or_object htag with hnil | ⟨given, hgiven⟩
  · rw [isNil, hnil] at hpresent
    cases hpresent
  · have hadmits := hv.admits
    rw [hgiven] at hadmits
    cases hadmits with
    | @object _ built _ hbuilt hfields hrequired =>
        -- the shape that the object was built for is the one that its type has
        have hown := hv.shape_eq hdefs htag hbuilt
        rw [hshape] at hown
        cases hown
        cases hget : Bindings.get? given n with
        | some w =>
            have hw := hfields _ (Bindings.mem_of_get? hget)
            rw [hfield] at hw
            exact ⟨given, w, hgiven, Step.member_given hobject hgiven hget,
              (Option.some.inj hw).symm, Or.inl hget⟩
        | none =>
            obtain ⟨f, hfind, rfl⟩ := Option.map_eq_some_iff.mp hfield
            have hname : f.1 = n := by simpa using List.find?_some hfind
            cases hdefault : Step.default? f.2 with
            | none =>
                -- a field without a default is one that the object was given
                obtain ⟨ho, ha⟩ := Step.default?_eq_none.mp hdefault
                have hcontains := hrequired f (List.mem_of_find?_eq_some hfind) ho ha
                rw [Bindings.contains, hname, hget] at hcontains
                cases hcontains
            | some w =>
                have hu : Step.fieldType v.type n = .ok f.2 :=
                  Step.fieldType_eq_ok.mpr ⟨shape, hshape, hfield⟩
                have hmember : Step.member v n = .ok w :=
                  (Step.member_eq_ok_of_missing hobject hgiven hget hu).mpr hdefault
                exact ⟨given, w, hgiven, hmember, Step.type_of_default? hdefault,
                  Or.inr ⟨hget, rfl⟩⟩

/-- A field that an object has is one that was written for it, and has the value that was made
then. -/
lemma FieldInit.MakesAll.of_get? {s : Scopes} {shape : Shape} {fs : List FieldInit}
    {given : Bindings Value} (h : MakesAll s shape fs given) {n : String} {w : Value}
    (hget : given.get? n = some w) : ∃ f ∈ fs, f.name = n ∧ f.value.Makes s w.type w := by
  induction fs generalizing given with
  | nil =>
      cases h
      cases hget
  | cons f fs ih =>
      cases h with
      | @cons _ _ _ u v given _ hmakes hrest =>
          rw [Bindings.get?] at hget
          split at hget
          · rename_i hname
            cases hget
            refine ⟨f, List.mem_cons_self, hname, ?_⟩
            rw [hmakes.type_eq]
            exact hmakes
          · obtain ⟨g, hg, hmakes'⟩ := ih hrest hget
            exact ⟨g, List.mem_cons_of_mem _ hg, hmakes'⟩

/-- At every point of the run of an accepted program that gives no two shapes the same name, and to
which the host has given nothing but functions, every field of the shape of an object that is found
under a name or a member path can be read, unless a limit is outgrown.  The object was built by the
run from a new object of the program.  If the field was written there, it has the value that it was
given; if not, it is an empty array or nothing, which is what a binding of the field's type without
a value would bind.  And for every type, the three rules for what may be left out agree. -/
theorem Block.field_of_bound_object {b : Block} {c : Chunk} (h : b.compile = .ok c)
    (hnames : b.objectNames.Nodup) (limits : Limits) (functions : List Function)
    {done rest : Code} {s : RunState}
    (hreach : (c.machine limits (functions.map .register)).Reaches done rest s)
    {e : Expr} {v : Value} (hv : e.evalPath s.frames.scopes = .ok v)
    (hobject : v.type.isObject = true) (hpresent : v.isNil = false)
    {shape : Shape} (hshape : v.type.shape = some shape) {n : String} {u : DataType}
    (hfield : DataType.field? shape n = some u) {span : Span} {code : Code}
    (hcode : (Expr.member e n span).compile false = .ok code) {next : Option Instr}
    (hnext : Step.isCall next = false)
    (hroom : ∀ e, (runCode next code s).2 = some e → e.cause.isOverflow = false) :
    (∃ fields scopes given w, v.payload = .object given ∧
      (c.machine limits (functions.map .register)).Built b done fields scopes given ∧
      runCode next code s = (s.withCells (.value w :: s.stack.cells), none) ∧ w.type = u ∧
      ((∃ f ∈ fields, f.name = n ∧ f.value.Makes scopes u w) ∨
        n ∉ fields.map (·.name) ∧ u.DefaultsTo w ∧
          (u.isArray = true ∧ w = .array u [] ∨
            u.isArray = false ∧ u.isOptional = true ∧ w = .nil u))) ∧
    ∀ (t : DataType) (shape : Shape) (given : Bindings Value), t.isObject = true →
      t.shape = some shape → t.RulesAgree shape given := by
  refine ⟨?_, fun t shape given ht hshape => DataType.rulesAgree ht hshape given⟩
  obtain ⟨defs, l, hl, hdefs⟩ := shaping_of_reaches h hreach
  have hshaped : v.Everywhere (Value.Shaped defs) := hl.value_of_evalPath hv
  obtain ⟨given, w, hgiven, hmember, hw, hvalue⟩ :=
    hshaped.here.read_field (hdefs hnames) hobject hpresent hshape hfield
  obtain ⟨fields, scopes, hbuilt⟩ := ((Block.built_of_reaches h hreach).evalPath hv).here given
    hgiven
  have hread : (Expr.member e n span).evalPath s.frames.scopes = .ok w := by
    rw [Expr.evalPath, hv]
    exact located_eq_ok.mpr hmember
  refine ⟨fields, scopes, given, w, hgiven, hbuilt,
    Expr.runCode_of_evalPath hcode hnext hl.linked hread hroom, hw, ?_⟩
  cases hbuilt with
  | intro _ _ _ _ _ _ hmakes =>
      rcases hvalue with hget | ⟨hget, hdefault⟩
      · obtain ⟨f, hf, hname, hmade⟩ := hmakes.of_get? hget
        rw [hw] at hmade
        exact Or.inl ⟨f, hf, hname, hmade⟩
      · refine Or.inr ⟨?_, (DataType.defaultsTo_iff.mpr hdefault).1,
          Step.default?_eq_some.mp hdefault⟩
        rw [← hmakes.names_eq, ← Bindings.get?_isSome_iff, hget]
        exact Bool.false_ne_true

/-- Whether a value is found that is an object with the given field in its shape. -/
def hasField (n : String) : Except RuntimeError Value → Bool
  | .ok v => v.type.isObject && !v.isNil &&
      (v.type.shape.bind fun shape => DataType.field? shape n).isSome
  | .error _ => false

lemma of_hasField {n : String} {x : Except RuntimeError Value} (h : hasField n x = true) :
    ∃ v shape u, x = .ok v ∧ v.type.isObject = true ∧ v.isNil = false ∧
      v.type.shape = some shape ∧ DataType.field? shape n = some u := by
  cases x with
  | error e => cases h
  | ok v =>
      simp only [hasField, Bool.and_eq_true, Bool.not_eq_true'] at h
      obtain ⟨⟨hobject, hpresent⟩, hfield⟩ := h
      obtain ⟨u, hu⟩ := Option.isSome_iff_exists.mp hfield
      obtain ⟨shape, hshape, hu⟩ := Option.bind_eq_some_iff.mp hu
      exact ⟨v, shape, u, rfl, hobject, hpresent, hshape, hu⟩

/-- The label is read of a point that was made without one. -/
theorem Block.field_of_bound_object_sample : ∃ c s code w, sample.compile = .ok c ∧
    (c.machine {} (sampleFunctions.map .register)).Reaches c.located [] s ∧
    (Expr.member (.name "p" {}) "label" {}).compile false = .ok code ∧
    runCode none code s = (s.withCells (.value w :: s.stack.cells), none) := by
  obtain ⟨c, hc⟩ := compile_sample
  have hnames : sample.objectNames.Nodup := by decide +kernel
  have hcode : (c.machine {} (sampleFunctions.map .register)).pending = c.located ++ [] := by
    rw [Chunk.pending_machine, List.append_nil]
  have hrun : (runCode (firstOf [] none) c.located
      (c.machine {} (sampleFunctions.map .register)).state).2 = none := by
    cases hc
    decide +kernel
  have hreach := Machine.reaches_of_run hcode hrun
  obtain ⟨code, hmember⟩ : ∃ code, (Expr.member (.name "p" {}) "label" {}).compile false =
    .ok code := ⟨_, rfl⟩
  have hfound : hasField "label" ((Expr.name "p" {}).evalPath (runCode (firstOf [] none) c.located
      (c.machine {} (sampleFunctions.map .register)).state).1.frames.scopes) = true := by
    cases hc
    decide +kernel
  have hread : (runCode none code (runCode (firstOf [] none) c.located
      (c.machine {} (sampleFunctions.map .register)).state).1).2 = none := by
    cases hc
    cases hmember
    decide +kernel
  obtain ⟨v, shape, u, hv, hobject, hpresent, hshape, hfield⟩ := of_hasField hfound
  obtain ⟨⟨fields, scopes, given, w, -, -, hw, -, -⟩, -⟩ :=
    field_of_bound_object hc hnames {} sampleFunctions hreach hv hobject hpresent hshape hfield
      hmember rfl fun e he => by rw [hread] at he; cases he
  exact ⟨c, _, code, w, hc, hreach, hmember, hw⟩

end TypedConfig
