import Mathlib.Data.List.Nodup
import TypedConfig.Proofs.Preservation

/-!
# Values conform to their types

A value conforms if its payload is one that its type admits, and the values inside it conform as
well (`Value.Conforms`).  Equality of types does not look at shapes, so an assignment alone does not
make a value conform: it gives an object a type with whatever shape has the right name.

**What every run keeps to.** An object was built for some shape that its type's name has been given
to (`shaping`).  This survives every assignment, since the name stays the same.

**What follows.** If no two shapes of a program have the same name, then that shape is the one that
the type has, and every value conforms (`Block.bound_values_conform`).
-/

namespace TypedConfig

/-! ## Values and types -/

/-- Whether a type admits a payload, given which shapes count as those of an object type. -/
inductive DataType.Admits (shapes : DataType → Shape → Prop) (t : DataType) : Payload → Prop
  | nil (ho : t.isOptional = true) (ha : t.isArray = false) : Admits shapes t .nil
  | string (s : String) (ht : t.tag = .string) : Admits shapes t (.string s)
  | integer (n : Int64) (ht : t.tag = .integer) : Admits shapes t (.integer n)
  | float (x : Binary64) (ht : t.tag = .float) : Admits shapes t (.float x)
  | boolean (x : Bool) (ht : t.tag = .boolean) : Admits shapes t (.boolean x)
  | function (f : Function) (ht : t.tag = .function) : Admits shapes t (.function f)
  | array (items : List Value) (ht : t.tag = .array)
      (hitems : ∀ v ∈ items, ∃ item ∈ t.params, v.type.equals item = true) :
      Admits shapes t (.array items)
  /-- The fields are fields of the shape and have the types it gives them, and those that have
  neither an optional nor an array type are there. -/
  | object (fields : Bindings Value) {shape : Shape} (ht : t.tag = .object) (hs : shapes t shape)
      (hfields : ∀ f ∈ fields, field? shape f.1 = some f.2.type)
      (hrequired : ∀ f ∈ shape, f.2.isOptional = false → f.2.isArray = false →
        fields.contains f.1 = true) :
      Admits shapes t (.object fields)

namespace Value

/-- Whether the payload is one that the type admits, for an object by the type's own shape. -/
def Conforms (v : Value) : Prop :=
  v.Everywhere fun w => w.type.Admits (fun t shape => t.shape = some shape) w.payload

/-- Whether the fields of an object may change. -/
def FieldsMutable (v : Value) : Prop :=
  ∀ fields : Bindings Value, v.payload = .object fields → ∀ f ∈ fields, f.2.isMutable = true

/-- Whether a value may change, and so may the fields inside it at any depth. -/
def DeeplyMutable (v : Value) : Prop := v.isMutable = true ∧ v.Everywhere FieldsMutable

end Value

namespace DataType

variable {shapes shapes' : DataType → Shape → Prop} {t u : DataType} {p : Payload}

lemma Admits.imp (h : t.Admits shapes p)
    (himp : ∀ shape, t.tag = .object → shapes t shape → shapes' t shape) :
    t.Admits shapes' p := by
  cases h with
  | nil ho ha => exact .nil ho ha
  | string s ht => exact .string s ht
  | integer n ht => exact .integer n ht
  | float x ht => exact .float x ht
  | boolean x ht => exact .boolean x ht
  | function f ht => exact .function f ht
  | array items ht hitems => exact .array items ht hitems
  | object fields ht hs hfields hrequired =>
      exact .object fields ht (himp _ ht hs) hfields hrequired

/-- An object type admits objects, and nothing at all if it is optional. -/
lemma Admits.nil_or_object (h : t.Admits shapes p) (ht : t.tag = .object) :
    p = .nil ∨ ∃ fields, p = .object fields := by
  cases h with
  | nil _ _ => exact Or.inl rfl
  | object fields _ _ _ _ => exact Or.inr ⟨fields, rfl⟩
  | string _ hs | integer _ hs | float _ hs | boolean _ hs | function _ hs | array _ hs _ =>
      rw [ht] at hs
      cases hs

lemma exists_equals_of_mem : ∀ {ts us : List DataType}, equalsAll ts us = true →
    ∀ t ∈ ts, ∃ u ∈ us, t.equals u = true
  | [], _, _, t, ht => by cases ht
  | t :: ts, [], h, _, _ => by cases h
  | t :: ts, u :: us, h, t', ht' => by
      rw [equalsAll, Bool.and_eq_true] at h
      rcases List.mem_cons.mp ht' with rfl | ht'
      · exact ⟨u, List.mem_cons_self, h.1⟩
      · obtain ⟨u', hu', heq⟩ := exists_equals_of_mem h.2 t' ht'
        exact ⟨u', List.mem_cons_of_mem _ hu', heq⟩

/-- An equal type admits the same payloads, except that it may not be optional. -/
lemma Admits.of_equals (h : t.Admits shapes p) (hequals : t.equals u = true)
    (hnil : p = .nil → u.isOptional = true)
    (hshapes : ∀ shape, shapes t shape → shapes u shape) : u.Admits shapes p := by
  obtain ⟨htag, -, hparams⟩ := equals_iff.mp hequals
  cases h with
  | nil ho ha => exact .nil (hnil rfl) ((isArray_of_equals hequals).symm.trans ha)
  | string s ht => exact .string s (htag.symm.trans ht)
  | integer n ht => exact .integer n (htag.symm.trans ht)
  | float x ht => exact .float x (htag.symm.trans ht)
  | boolean x ht => exact .boolean x (htag.symm.trans ht)
  | function f ht => exact .function f (htag.symm.trans ht)
  | array items ht hitems =>
      refine .array items (htag.symm.trans ht) ?_
      intro v hv
      obtain ⟨item, hitem, hv⟩ := hitems v hv
      obtain ⟨item', hitem', heq⟩ := exists_equals_of_mem hparams item hitem
      exact ⟨item', hitem', equals_trans hv heq⟩
  | object fields ht hs hfields hrequired =>
      exact .object fields (htag.symm.trans ht) (hshapes _ hs) hfields hrequired

/-! ## Types of a run -/

/-- The types that come up when the shapes that names have been given to are among `defs`. -/
inductive Known (defs : List (String × Shape)) : DataType → Prop
  | plain {t : DataType} (ht : t.tag ≠ .object) (hs : t.shape = none) : Known defs t
  | object {t : DataType} {shape : Shape} (ht : t.tag = .object) (hs : t.shape = some shape)
      (hmem : (t.name, shape) ∈ defs) (hshape : ∀ f ∈ shape, Known defs f.2) : Known defs t

variable {defs : List (String × Shape)}

lemma known_of_primitive? {ref : TypeRef} (h : primitive? ref = some t) : Known defs t := by
  cases ref <;> cases h <;> exact .plain (by decide) rfl

lemma Known.withOptional (h : Known defs t) (b : Bool) : Known defs (t.withOptional b) := by
  cases h with
  | plain ht hs => exact .plain ht hs
  | object ht hs hmem hshape => exact .object ht hs hmem hshape

/-- The shape of a known type has been given to its name, and the types in it are known. -/
lemma Known.of_shape (h : Known defs t) {shape : Shape} (hs : t.shape = some shape) :
    t.tag = .object ∧ (t.name, shape) ∈ defs ∧ ∀ f ∈ shape, Known defs f.2 := by
  cases h with
  | plain _ hnone =>
      rw [hs] at hnone
      cases hnone
  | object ht hs' hmem hshape =>
      rw [hs] at hs'
      cases hs'
      exact ⟨ht, hmem, hshape⟩

lemma Known.shape_of_object (h : Known defs t) (ht : t.tag = .object) :
    ∃ shape, t.shape = some shape := by
  cases h with
  | plain ht' _ => exact absurd ht ht'
  | object _ hs _ _ => exact ⟨_, hs⟩

lemma mem_of_field? {shape : Shape} {n : String} (h : field? shape n = some u) :
    ∃ f ∈ shape, f.2 = u := by
  obtain ⟨f, hf, rfl⟩ := Option.map_eq_some_iff.mp h
  exact ⟨f, List.mem_of_find?_eq_some hf, rfl⟩

lemma Known.fieldType (h : Known defs t) {n : String} (hu : Step.fieldType t n = .ok u) :
    Known defs u := by
  obtain ⟨shape, hs, hfield⟩ := Step.fieldType_eq_ok.mp hu
  obtain ⟨f, hf, rfl⟩ := mem_of_field? hfield
  exact (h.of_shape hs).2.2 f hf

end DataType

/-! ## What every run keeps to -/

namespace Value

/-- Whether a value has a known type that admits its payload, where any shape that has been given to
the name of the type counts, and its fields may change. -/
structure Shaped (defs : List (String × Shape)) (v : Value) : Prop where
  known : v.type.Known defs
  admits : v.type.Admits (fun t shape => (t.name, shape) ∈ defs) v.payload
  fields : v.FieldsMutable

variable {defs : List (String × Shape)} {v w : Value} {t u : DataType} {n : String}

lemma Shaped.isBacked (h : v.Shaped defs) : v.IsBacked := by
  intro hobject
  exact h.admits.nil_or_object (of_decide_eq_true hobject)

/-- A value with nothing inside it only needs to be admitted. -/
lemma shaped_leaf (hknown : v.type.Known defs)
    (hadmits : v.type.Admits (fun t shape => (t.name, shape) ∈ defs) v.payload)
    (hinner : v.payload.inner = []) : v.Everywhere (Shaped defs) := by
  refine .leaf ⟨hknown, hadmits, ?_⟩ hinner
  intro fields hfields f hf
  rw [hfields] at hinner
  rw [List.map_eq_nil_iff.mp hinner] at hf
  cases hf

lemma shaped_default (hu : u.Known defs) (h : Step.default? u = some v) :
    v.Everywhere (Shaped defs) := by
  rcases Step.default?_eq_some.mp h with ⟨harray, rfl⟩ | ⟨harray, ho, rfl⟩
  · exact shaped_leaf hu (.array [] (of_decide_eq_true harray) nofun) rfl
  · exact shaped_leaf hu (.nil ho harray) rfl

/-- An assignment changes the type, but not its name. -/
lemma shaped_assign (hu : u.Known defs) (hv : v.Everywhere (Shaped defs))
    (h : Step.assign n u v = .ok w) : w.mutable.Everywhere (Shaped defs) ∧ w.type = u := by
  obtain ⟨hequals, hnil, rfl⟩ := Step.assign_ok h
  refine ⟨hv.replace rfl ⟨hu, ?_, hv.here.fields⟩, rfl⟩
  refine hv.here.admits.of_equals hequals ?_ ?_
  · intro hpayload
    refine hnil ?_
    rw [isNil, hpayload]
  · intro shape hshape
    -- the shapes of a known type are looked up by its name, and equal types have one name
    rwa [(DataType.equals_iff.mp hequals).2.1] at hshape

lemma shaped_literal (l : Literal) : (ofLiteral l).Everywhere (Shaped defs) := by
  cases l with
  | string s => exact shaped_leaf (.plain nofun rfl) (.string s rfl) rfl
  | integer n => exact shaped_leaf (.plain nofun rfl) (.integer n rfl) rfl
  | float x => exact shaped_leaf (.plain nofun rfl) (.float x rfl) rfl
  | boolean x => exact shaped_leaf (.plain nofun rfl) (.boolean x rfl) rfl

lemma shaped_function (f : Function) : (function f).Everywhere (Shaped defs) :=
  shaped_leaf (.plain nofun rfl) (.function f rfl) rfl

end Value

/-- Every object was built for a shape that the name of its type has been given to, and everything
that is bound may change, functions apart. -/
def shaping (defs : List (String × Shape)) : Discipline where
  shape n fields := (n, fields) ∈ defs
  type := DataType.Known defs
  value v := v.Everywhere (Value.Shaped defs)
  bound v := v.Everywhere (Value.Shaped defs) ∧ (v.function? = none → v.isMutable = true)
  building t given := t.tag = .object ∧ ∀ f ∈ given, Step.fieldType t f.1 = .ok f.2.type ∧
    f.2.isMutable = true ∧ f.2.Everywhere (Value.Shaped defs)
  type_primitive h := DataType.known_of_primitive? h
  type_arrayOf _ := .plain nofun rfl
  type_withOptional b h := h.withOptional b
  type_object h hfields := .object rfl rfl h hfields
  type_field h hu := h.fieldType hu
  building_nil _ hobject := ⟨of_decide_eq_true hobject, fun f hf => by cases hf⟩
  building_add ht hgiven hv h := by
    obtain ⟨u, w, hu, hassign, rfl⟩ := Step.addField_ok h
    refine ⟨hgiven.1, ?_⟩
    intro f hf
    rcases Bindings.mem_set hf with rfl | hf
    · obtain ⟨hw, rfl⟩ := Value.shaped_assign (ht.fieldType hu) hv hassign
      exact ⟨hu, rfl, hw⟩
    · exact hgiven.2 f hf
  value_built ht hgiven h := by
    obtain ⟨shape, hs, hrequired⟩ := Step.checkSealed_ok h
    refine .object ⟨ht, .object _ hgiven.1 (ht.of_shape hs).2.1 ?_ ?_, ?_⟩ fun f hf =>
      (hgiven.2 f hf).2.2
    · intro f hf
      obtain ⟨shape', hs', hfield⟩ := Step.fieldType_eq_ok.mp (hgiven.2 f hf).1
      rw [hs] at hs'
      cases hs'
      exact hfield
    · intro f hf ho ha
      -- a field has a default exactly if its type is optional or one of arrays
      refine hrequired f hf ?_
      rw [Step.default?, ha, ho]
      rfl
    · intro fields hfields f hf
      cases hfields
      exact (hgiven.2 f hf).2.1
  value_literal := Value.shaped_literal
  value_bound h := h.1
  value_member hv h := by
    obtain ⟨-, fields, hfields, hget | ⟨-, u, hu, hdefault⟩⟩ := Step.member_ok h
    · exact hv.field hfields (Bindings.mem_of_get? hget)
    · exact Value.shaped_default (hv.here.known.fieldType hu) hdefault
  not_internal_member hv h := Step.not_internal_member hv.here.isBacked h
  bound_assign ht hv h := ⟨(Value.shaped_assign ht hv h).1, fun _ => rfl⟩
  bound_default ht h := by
    have hv := Value.shaped_default ht (Step.defaultFor_ok h)
    exact ⟨hv.replace rfl ⟨hv.here.known, hv.here.admits, hv.here.fields⟩, fun _ => rfl⟩

/-- The functions of the host are bound as they should be. -/
lemma shaping_bound_register (defs : List (String × Shape)) {functions : List Function}
    {x : HostBinding} (hx : x ∈ functions.map .register) : (shaping defs).bound x.entry.2 := by
  obtain ⟨f, -, rfl⟩ := List.mem_map.mp hx
  refine ⟨Value.shaped_function f, ?_⟩
  intro hf
  cases hf

/-! ## What follows if no two shapes have the same name -/

/-- A list that gives different names to shapes gives one shape to a name. -/
lemma shape_unique {defs : List (String × Shape)} (h : (defs.map (·.1)).Nodup) {n : String}
    {shape shape' : Shape} (hs : (n, shape) ∈ defs) (hs' : (n, shape') ∈ defs) : shape = shape' :=
  congrArg Prod.snd (List.inj_on_of_nodup_map h hs hs' rfl)

/-- The shapes that a run gives names to have different names if those of the program do. -/
lemma nodup_boundShapes {b : Block} {l : Layout} {rest : Code} {shapes : List (String × Shape)}
    (hnames : b.objectNames.Nodup) (hrest : Code.Moves none rest l { defined := b.objectNames })
    (hl : l.defined = shapes.map (·.1)) : (shapes.map (·.1)).Nodup := by
  rw [← hl]
  exact hnames.sublist hrest.defined_prefix.sublist

/-- Every state that an accepted program reaches meets the conditions, for the shapes that the run
has given names to. -/
lemma Block.shaping_of_reaches {b : Block} {c : Chunk} (h : b.compile = .ok c) {limits : Limits}
    {functions : List Function} {done rest : Code} {s : RunState}
    (hreach : (c.machine limits (functions.map .register)).Reaches done rest s) :
    ∃ defs l, (shaping defs).Holds l s ∧ (b.objectNames.Nodup → (defs.map (·.1)).Nodup) := by
  obtain ⟨l, hl, hrest, hdefined⟩ := (shaping _).holds_of_reaches h
    (fun x hx => shaping_bound_register _ hx) hreach fun e he => he
  exact ⟨_, l, hl, fun hnames => nodup_boundShapes hnames hrest hdefined⟩

lemma Value.Shaped.conforms {defs : List (String × Shape)} {v : Value}
    (hdefs : (defs.map (·.1)).Nodup) (h : v.Everywhere (Value.Shaped defs)) : v.Conforms := by
  refine h.imp ?_
  intro w hw
  refine hw.admits.imp ?_
  intro shape ht hshape
  obtain ⟨own, hown⟩ := hw.known.shape_of_object ht
  obtain ⟨-, hmem, -⟩ := hw.known.of_shape hown
  rw [shape_unique hdefs hshape hmem]
  exact hown

/-- If no two shapes of an accepted program have the same name and the host has bound nothing but
functions, then at every point of the run, whatever the limits are, every bound value conforms to
its type and, functions apart, may change with all the fields inside it; and every value that has
been given to a function conforms. -/
theorem Block.bound_values_conform {b : Block} {c : Chunk} (h : b.compile = .ok c)
    (hnames : b.objectNames.Nodup) (limits : Limits) (functions : List Function)
    {done rest : Code} {s : RunState}
    (hreach : (c.machine limits (functions.map .register)).Reaches done rest s) :
    (∀ f ∈ s.frames.frames, ∀ e ∈ f.values,
      e.2.Conforms ∧ (e.2.function? = none → e.2.DeeplyMutable)) ∧
    ∀ call ∈ s.calls, ∀ v ∈ call.arguments, v.Conforms := by
  obtain ⟨l, hl, hrest, hdefined⟩ := (shaping _).holds_of_reaches h
    (fun x hx => shaping_bound_register _ hx) hreach fun e he => he
  have hdefs := nodup_boundShapes hnames hrest hdefined
  refine ⟨?_, ?_⟩
  · intro f hf e he
    obtain ⟨hshaped, hmutable⟩ := hl.values f hf e he
    refine ⟨Value.Shaped.conforms hdefs hshaped, ?_⟩
    intro hfunction
    exact ⟨hmutable hfunction, hshaped.imp fun hw => hw.fields⟩
  · intro call hcall v hv
    exact Value.Shaped.conforms hdefs (hl.arguments call hcall v hv)

/-- At the end of a run that has made a call. -/
theorem Block.bound_values_conform_sample : ∃ c s, sample.compile = .ok c ∧
    (c.machine {} (sampleFunctions.map .register)).Reaches c.located [] s ∧
    s.calls.length = 1 ∧ ∀ call ∈ s.calls, ∀ v ∈ call.arguments, v.Conforms := by
  obtain ⟨c, hc⟩ := compile_sample
  have hnames : sample.objectNames.Nodup := by decide +kernel
  have hcode : (c.machine {} (sampleFunctions.map .register)).pending = c.located ++ [] := by
    rw [Chunk.pending_machine, List.append_nil]
  have hrun : (runCode (firstOf [] none) c.located
      (c.machine {} (sampleFunctions.map .register)).state).2 = none := by
    cases hc
    decide +kernel
  have hreach := Machine.reaches_of_run hcode hrun
  refine ⟨c, _, hc, hreach, ?_, (bound_values_conform hc hnames {} sampleFunctions hreach).2⟩
  cases hc
  decide +kernel

end TypedConfig
