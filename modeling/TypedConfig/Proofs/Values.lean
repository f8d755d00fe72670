import TypedConfig.Proofs.Execution

/-!
# Types that are equal and values inside values

**Equality of types** is reflexive and transitive, and equal types are of the same kind and have the
same name.  That is all that assigning a value sees to.

**Inside a value** there are other values: the fields of an object and the items of an array.
`Value.Everywhere p` says that `p` holds of a value and of all values inside it.  Giving a value a
new type or making it mutable changes nothing inside it (`Value.Everywhere.replace`).

**What the computations give** is said once for each of them: what must have been true for an
assignment, a default or a member to come out, and what it is.
-/

namespace TypedConfig

/-! ## Equality of types -/

namespace DataType

lemma equals_iff {t u : DataType} :
    t.equals u = true ↔ t.tag = u.tag ∧ t.name = u.name ∧ equalsAll t.params u.params = true := by
  obtain ⟨tag, name, isOptional, shape, params⟩ := t
  simp only [equals, Bool.and_eq_true, decide_eq_true_eq, and_assoc]

mutual

lemma equals_refl : ∀ t : DataType, t.equals t = true
  | ⟨_, _, _, _, params⟩ => equals_iff.mpr ⟨rfl, rfl, equalsAll_refl params⟩

lemma equalsAll_refl : ∀ ts : List DataType, equalsAll ts ts = true
  | [] => rfl
  | t :: ts => by rw [equalsAll, equals_refl t, equalsAll_refl ts]; rfl

end

mutual

lemma equals_trans : ∀ {t u w : DataType},
    t.equals u = true → u.equals w = true → t.equals w = true
  | ⟨_, _, _, _, params⟩, _, _, htu, huw => by
      obtain ⟨htag, hname, hparams⟩ := equals_iff.mp htu
      obtain ⟨htag', hname', hparams'⟩ := equals_iff.mp huw
      exact equals_iff.mpr ⟨htag.trans htag', hname.trans hname', equalsAll_trans hparams hparams'⟩

lemma equalsAll_trans : ∀ {ts us ws : List DataType},
    equalsAll ts us = true → equalsAll us ws = true → equalsAll ts ws = true
  | [], [], _, _, h => h
  | t :: ts, u :: us, [], _, h => by cases h
  | t :: ts, u :: us, w :: ws, htu, huw => by
      rw [equalsAll, Bool.and_eq_true] at htu huw ⊢
      exact ⟨equals_trans htu.1 huw.1, equalsAll_trans htu.2 huw.2⟩

end

lemma isObject_of_equals {t u : DataType} (h : t.equals u = true) : t.isObject = u.isObject := by
  rw [isObject, isObject, (equals_iff.mp h).1]

lemma isArray_of_equals {t u : DataType} (h : t.equals u = true) : t.isArray = u.isArray := by
  rw [isArray, isArray, (equals_iff.mp h).1]

lemma isObject_of_isArray {t : DataType} (h : t.isArray = true) : t.isObject = false := by
  rw [isArray, decide_eq_true_eq] at h
  rw [isObject, h]
  rfl

end DataType

/-! ## Inside a value -/

/-- The values that a payload is made of. -/
def Payload.inner : Payload → List Value
  | .object fields => fields.map (·.2)
  | .array items => items
  | _ => []

lemma Payload.sizeOf_lt_of_mem_inner {p : Payload} {v : Value} (h : v ∈ p.inner) :
    sizeOf v < sizeOf p := by
  cases p with
  | object fields =>
      obtain ⟨f, hf, rfl⟩ := List.mem_map.mp h
      have hlt := List.sizeOf_lt_of_mem hf
      have hfield : sizeOf f = 1 + sizeOf f.1 + sizeOf f.2 := rfl
      rw [Payload.object.sizeOf_spec]
      omega
  | array items =>
      have hlt : sizeOf v < sizeOf items := List.sizeOf_lt_of_mem h
      rw [Payload.array.sizeOf_spec]
      omega
  | _ => cases h

/-- Whether `p` holds of a value and of all values inside it. -/
inductive Value.Everywhere (p : Value → Prop) : Value → Prop
  | intro {v : Value} (here : p v) (inside : ∀ w ∈ v.payload.inner, Everywhere p w) :
      Everywhere p v

namespace Value.Everywhere

variable {p q : Value → Prop} {v w : Value}

lemma here (h : Everywhere p v) : p v := by
  cases h with
  | intro here inside => exact here

lemma inside (h : Everywhere p v) (hw : w ∈ v.payload.inner) : Everywhere p w := by
  cases h with
  | intro here inside => exact inside w hw

lemma field {fields : Bindings Value} (h : Everywhere p v) (hv : v.payload = .object fields)
    {f : String × Value} (hf : f ∈ fields) : Everywhere p f.2 := by
  refine h.inside ?_
  rw [hv]
  exact List.mem_map_of_mem hf

/-- A value with the same payload has the same values inside it. -/
lemma replace (h : Everywhere p v) (hpayload : w.payload = v.payload) (hw : p w) :
    Everywhere p w := by
  refine .intro hw ?_
  intro x hx
  rw [hpayload] at hx
  exact h.inside hx

lemma object {t : DataType} {fields : Bindings Value} (h : p (.object t fields))
    (hfields : ∀ f ∈ fields, Everywhere p f.2) : Everywhere p (.object t fields) := by
  refine .intro h ?_
  intro x hx
  obtain ⟨f, hf, rfl⟩ := List.mem_map.mp hx
  exact hfields f hf

/-- There is nothing inside a value without fields and items. -/
lemma leaf (h : p v) (hinner : v.payload.inner = []) : Everywhere p v := by
  refine .intro h ?_
  intro x hx
  rw [hinner] at hx
  cases hx

lemma imp (h : Everywhere p v) (hpq : ∀ {x : Value}, p x → q x) : Everywhere q v := by
  induction h with
  | intro here _ ih => exact .intro (hpq here) ih

/-- What holds of all values holds everywhere in a value. -/
lemma of_forall (h : ∀ v, p v) (v : Value) : Everywhere p v :=
  .intro (h v) fun w _ => of_forall h w
termination_by sizeOf v
decreasing_by
  have hpayload : sizeOf v.payload < sizeOf v := by
    cases v
    simp only [Value.mk.sizeOf_spec]
    omega
  exact Nat.lt_trans (Payload.sizeOf_lt_of_mem_inner ‹_›) hpayload

end Value.Everywhere

/-! ## What the computations give -/

namespace Step

variable {t u : DataType} {n : String} {v w : Value} {given given' : Bindings Value}

lemma fieldType_eq_ok : fieldType t n = .ok u ↔
    ∃ shape, t.shape = some shape ∧ DataType.field? shape n = some u := by
  rw [fieldType]
  cases t.shape with
  | none => simp [throw, throwThe, MonadExceptOf.throw]
  | some shape =>
      cases hfield : DataType.field? shape n with
      | none => simp [hfield, throw, throwThe, MonadExceptOf.throw]
      | some field => simp [hfield, pure, Except.pure]

lemma assign_ok (h : assign n t v = .ok w) :
    v.type.equals t = true ∧ (v.isNil = true → t.isOptional = true) ∧ w = v.retype t := by
  rw [assign] at h
  split at h
  · cases h
  · rename_i hequals
    split at h
    · cases h
    · rename_i hnil
      cases h
      simp only [Bool.not_eq_true', Bool.not_eq_false] at hequals
      refine ⟨hequals, ?_, rfl⟩
      intro hv
      simpa [hv] using hnil

/-- A default is an empty array or nothing at all. -/
lemma default?_eq_some : default? t = some v ↔
    t.isArray = true ∧ v = .array t [] ∨
      t.isArray = false ∧ t.isOptional = true ∧ v = .nil t := by
  rw [default?]
  cases t.isArray <;> cases t.isOptional <;> simp [eq_comm]

lemma default?_eq_none : default? t = none ↔ t.isOptional = false ∧ t.isArray = false := by
  rw [default?]
  cases t.isArray <;> cases t.isOptional <;> simp

lemma type_of_default? (h : default? t = some v) : v.type = t := by
  rcases default?_eq_some.mp h with ⟨-, rfl⟩ | ⟨-, -, rfl⟩ <;> rfl

lemma defaultFor_ok (h : defaultFor n t = .ok v) : default? t = some v := by
  rw [defaultFor] at h
  split at h <;> cases h
  assumption

lemma addField_ok (h : addField t given n v = .ok given') :
    ∃ u w, fieldType t n = .ok u ∧ assign n u v = .ok w ∧ given' = given.set n w.mutable := by
  rw [addField] at h
  split at h
  · cases h
  · rename_i u hu
    split at h
    · cases h
    · cases hassign : assign n u v with
      | error fault =>
          rw [hassign] at h
          cases h
      | ok w =>
          rw [hassign] at h
          cases h
          exact ⟨u, w, hu, hassign, rfl⟩

/-- The fields that have no default are given. -/
lemma checkSealed_ok (h : checkSealed t given = .ok ()) : ∃ shape, t.shape = some shape ∧
    ∀ f ∈ shape, default? f.2 = none → given.contains f.1 = true := by
  rw [checkSealed] at h
  split at h
  · cases h
  · rename_i shape hshape
    split at h
    · cases h
    · rename_i hfind
      refine ⟨shape, hshape, ?_⟩
      intro f hf hdefault
      have hnot := List.find?_eq_none.mp hfind f hf
      simpa [hdefault] using hnot

lemma member_other (h : v.type.isObject = false) :
    member v n = .error (.notAnObject v.type.fullName) := by
  rw [member]
  dsimp only
  rw [h]
  rfl

lemma member_nil (h : v.type.isObject = true) (hv : v.payload = .nil) :
    member v n = .error (.missingValue (v.type.name ++ "." ++ n)) := by
  rw [member]
  dsimp only
  rw [h, hv]
  rfl

lemma member_given (h : v.type.isObject = true) (hv : v.payload = .object given)
    (hget : given.get? n = some w) : member v n = .ok w := by
  rw [member]
  dsimp only
  rw [h, hv]
  dsimp only
  rw [hget]
  rfl

lemma member_missing (h : v.type.isObject = true) (hv : v.payload = .object given)
    (hget : given.get? n = none) :
    member v n = (fieldType v.type n).bind fun u => match default? u with
      | some w => .ok w
      | none => .error (.missingValue (v.type.name ++ "." ++ n)) := by
  rw [member]
  dsimp only
  rw [h, hv]
  dsimp only
  rw [hget]
  cases fieldType v.type n with
  | error fault => rfl
  | ok u =>
      cases hdefault : default? u <;> simp [Except.bind, bind, hdefault] <;> rfl

/-- A member is a field that the object has, or the default of one that its type has. -/
lemma member_ok (h : member v n = .ok w) :
    v.type.isObject = true ∧ ∃ fields : Bindings Value, v.payload = .object fields ∧
      (fields.get? n = some w ∨
        fields.get? n = none ∧ ∃ u, fieldType v.type n = .ok u ∧ default? u = some w) := by
  cases hobject : v.type.isObject with
  | false =>
      rw [member_other hobject] at h
      cases h
  | true =>
      refine ⟨rfl, ?_⟩
      cases hpayload : v.payload with
      | object fields =>
          refine ⟨fields, rfl, ?_⟩
          cases hget : Bindings.get? fields n with
          | some x =>
              rw [member_given hobject hpayload hget] at h
              cases h
              exact Or.inl rfl
          | none =>
              rw [member_missing hobject hpayload hget] at h
              obtain ⟨u, hu, h⟩ := bind_eq_ok.mp h
              refine Or.inr ⟨rfl, u, hu, ?_⟩
              split at h <;> cases h
              assumption
      | _ =>
          rw [member] at h
          dsimp only at h
          rw [hobject, hpayload] at h
          cases h

end Step

/-! ## Faults of the program

Whatever goes wrong in these computations is the program's fault, with one exception: a value of an
object type may be no object. -/

/-- Whether a value of an object type has the fields of an object, or is not there. -/
def Value.IsBacked (v : Value) : Prop :=
  v.type.isObject = true → v.payload = .nil ∨ ∃ fields, v.payload = .object fields

namespace Step

variable {t : DataType} {n : String} {v : Value} {fault : RuntimeFault}

lemma not_internal_fieldType (h : fieldType t n = .error fault) : fault.isInternal = false := by
  rw [fieldType] at h
  split at h
  · cases h
    rfl
  · split at h <;> cases h
    rfl

lemma not_internal_assign (h : assign n t v = .error fault) : fault.isInternal = false := by
  rw [assign] at h
  split at h
  · cases h
    rfl
  · split at h <;> cases h
    rfl

lemma not_internal_addField {given : Bindings Value} (h : addField t given n v = .error fault) :
    fault.isInternal = false := by
  rw [addField] at h
  cases hfield : fieldType t n with
  | error fault =>
      rw [hfield] at h
      cases h
      exact not_internal_fieldType hfield
  | ok declared =>
      rw [hfield] at h
      dsimp only at h
      split at h
      · cases h
        rfl
      · cases hassign : assign n declared v with
        | error fault =>
            rw [hassign] at h
            cases h
            exact not_internal_assign hassign
        | ok w =>
            rw [hassign] at h
            cases h

lemma not_internal_checkSealed {given : Bindings Value} (h : checkSealed t given = .error fault) :
    fault.isInternal = false := by
  rw [checkSealed] at h
  split at h
  · cases h
    rfl
  · split at h <;> cases h
    rfl

lemma not_internal_defaultFor (h : defaultFor n t = .error fault) : fault.isInternal = false := by
  rw [defaultFor] at h
  split at h <;> cases h
  rfl

lemma not_internal_resolvedType {lookup : String → Option DataType} {ref : TypeRef}
    {isArray isOptional : Bool} (h : resolvedType lookup ref n isArray isOptional = .error fault) :
    fault.isInternal = false := by
  rw [resolvedType] at h
  split at h <;> cases h
  rfl

lemma not_internal_member (hv : v.IsBacked) (h : member v n = .error fault) :
    fault.isInternal = false := by
  cases hobject : v.type.isObject with
  | false =>
      rw [member_other hobject] at h
      cases h
      rfl
  | true =>
      rcases hv hobject with hnil | ⟨fields, hfields⟩
      · rw [member_nil hobject hnil] at h
        cases h
        rfl
      · cases hget : Bindings.get? fields n with
        | some w =>
            rw [member_given hobject hfields hget] at h
            cases h
        | none =>
            rw [member_missing hobject hfields hget] at h
            cases hfield : fieldType v.type n with
            | error fault =>
                rw [hfield] at h
                cases h
                exact not_internal_fieldType hfield
            | ok u =>
                rw [hfield] at h
                simp only [Except.bind] at h
                split at h <;> cases h
                rfl

end Step

end TypedConfig
