import TypedConfig.Proofs.Conformance

/-!
# Which members a value has

A member is looked for among the fields that an object was given, and only then in the shape of its
type.  The two need not agree: an assignment gives an object another shape of the same name.

**What holds.** A member that is read is a field of some shape that the name of the receiver's type
has been given to, and has the type that this shape gives it (`Block.loadMember_of_shape`).  It is
the receiver's own shape if the field was not given, or if no two shapes have the same name.

**What does not.** A program with two shapes of the same name can read a member that the receiver's
own shape does not have (`Block.loadMember_outside_shape`).
-/

namespace TypedConfig

variable {defs : List (String × Shape)} {v w : Value} {n : String}

/-- A field that was given is one of the shape that the object was built for; one that was not is
one of the type's own shape. -/
lemma Value.Shaped.member (hv : v.Shaped defs) (h : Step.member v n = .ok w) :
    v.type.tag = .object ∧ ∃ (fields : Bindings Value) (shape : Shape),
      v.payload = .object fields ∧ (v.type.name, shape) ∈ defs ∧
      DataType.field? shape n = some w.type ∧
      (fields.get? n = none → v.type.shape = some shape) := by
  obtain ⟨hobject, fields, hfields, hmember⟩ := Step.member_ok h
  refine ⟨of_decide_eq_true hobject, fields, ?_⟩
  rcases hmember with hget | ⟨hget, u, hu, hdefault⟩
  · have hadmits := hv.admits
    rw [hfields] at hadmits
    cases hadmits with
    | @object _ shape _ hs hshape _ =>
        refine ⟨shape, hfields, hs, hshape _ (Bindings.mem_of_get? hget), ?_⟩
        intro hnone
        rw [hget] at hnone
        cases hnone
  · obtain ⟨shape, hs, hfield⟩ := Step.fieldType_eq_ok.mp hu
    refine ⟨shape, hfields, (hv.known.of_shape hs).2.1, ?_, fun _ => hs⟩
    rcases Step.default?_eq_some.mp hdefault with ⟨-, rfl⟩ | ⟨-, -, rfl⟩
    · exact hfield
    · exact hfield

/-- If names are given to one shape each, an object type has the shape that its name is given to. -/
lemma Value.Shaped.shape_eq (hdefs : (defs.map (·.1)).Nodup) (hv : v.Shaped defs)
    (ht : v.type.tag = .object) {shape : Shape} (hs : (v.type.name, shape) ∈ defs) :
    v.type.shape = some shape := by
  obtain ⟨own, hown⟩ := hv.known.shape_of_object ht
  rw [hown, shape_unique hdefs hs (hv.known.of_shape hown).2.1]

/-- What a member is read from and what comes of it lie on the stack. -/
lemma Step.loadMember_ok {next : Option Instr} (hnext : isCall next = false) {s s' : RunState}
    {cs : List Cell} (hcells : s.stack.cells = .name n :: .value v :: cs)
    (h : loadMember next s = .ok ((), s')) :
    ∃ w, member v n = .ok w ∧ s'.stack.cells = .value w :: cs := by
  rw [loadMember_value hnext (.value v) hcells] at h
  obtain ⟨w, hw, h⟩ := bind_eq_ok.mp h
  refine ⟨w, hw, ?_⟩
  rw [push_eq] at h
  split at h <;> cases h
  rfl

/-- Whatever the limits are and whatever functions the host has bound, when an accepted program
reads a member, the receiver is of an object type, and the member is a field of a shape that the
name of this type has been given to before and has the type that this shape gives it.  It is the
type's own shape if no two shapes of the program have the same name, or if the object was not given
the field. -/
theorem Block.loadMember_of_shape {b : Block} {c : Chunk} (h : b.compile = .ok c)
    (limits : Limits) (functions : List Function) {done rest : Code} {span : Span}
    {s s' : RunState}
    (hreach : (c.machine limits (functions.map .register)).Reaches done
      ((.loadMember, span) :: rest) s)
    (hnext : Step.isCall (firstOf rest none) = false)
    (hexec : Instr.loadMember.execute (firstOf rest none) span s = .ok ((), s')) :
    ∃ n v w cs shape field, s.stack.cells = .name n :: .value v :: cs ∧
      s'.stack.cells = .value w :: cs ∧ v.type.isObject = true ∧
      (v.type.name, shape) ∈ (c.machine limits (functions.map .register)).boundShapes done
        ((.loadMember, span) :: rest) ∧
      DataType.field? shape n = some field ∧ w.type.equals field = true ∧
      (b.objectNames.Nodup ∨
          (∀ fields : Bindings Value, v.payload = .object fields → fields.get? n = none) →
        v.type.shape = some shape) := by
  obtain ⟨l, hl, hrest, hdefined⟩ := (shaping _).holds_of_reaches h
    (fun x hx => shaping_bound_register _ hx) hreach fun e he => he
  have hdefs := fun hnames => nodup_boundShapes hnames hrest hdefined
  cases hrest with
  | cons hi _ =>
      cases hi with
      | loadMethod hcall =>
          -- ahead of a call the cells are the same, but no member is read
          rw [hnext] at hcall
          cases hcall
      | loadMember _ n =>
          obtain ⟨_, hcells, hname⟩ := hl.cells.of_name
          obtain ⟨v, cs, rfl, hv, -⟩ := hname.of_value
          obtain ⟨w, hw, hcells'⟩ := Step.loadMember_ok hnext hcells hexec
          obtain ⟨ht, fields, shape, hfields, hs, hfield, hown⟩ := hv.here.member hw
          refine ⟨n, v, w, cs, shape, w.type, hcells, hcells', decide_eq_true ht, hs, hfield,
            DataType.equals_refl _, ?_⟩
          rintro (hnames | hmissing)
          · exact hv.here.shape_eq (hdefs hnames) ht hs
          · exact hown (hmissing fields hfields)

/-! ## Two shapes of the same name -/

/-- A program that gives an object another shape of the same name and then reads a member:
`type T: object { a: int } let x: T = new { a = 1 }` and then
`s { type T: object { b: int } let y: T = x let z: int = y.a }`. -/
def Block.shadowing : Block where
  statements := [
    Stmt.typedef "T" (.object [⟨"a", .named "int" {}, {}⟩] {}) {},
    .binding "x" (.named "T" {}) (some (.object [⟨"a", .literal (.integer 1) {}, {}⟩] {})) {},
    .scope "s" [
      Stmt.typedef "T" (.object [⟨"b", .named "int" {}, {}⟩] {}) {},
      .binding "y" (.named "T" {}) (some (.name "x" {})) {},
      .binding "z" (.named "int" {}) (some (.member (.name "y" {}) "a" {})) {}] {} {}]
  span := {}

/-- Whether the topmost cells are a value and the name of a member that its own shape lacks. -/
def lacksMember : List Cell → Bool
  | .name n :: .value v :: _ =>
    match v.type.shape with
    | some shape => (DataType.field? shape n).isNone
    | none => false
  | _ => false

lemma of_lacksMember {cells : List Cell} (h : lacksMember cells = true) :
    ∃ n v cs shape, cells = .name n :: .value v :: cs ∧ v.type.shape = some shape ∧
      DataType.field? shape n = none := by
  rw [lacksMember.eq_def] at h
  split at h
  · rename_i n v cs
    split at h
    · rename_i shape hshape
      exact ⟨n, v, cs, shape, rfl, hshape, Option.isNone_iff_eq_none.mp h⟩
    · cases h
  · cases h

/-- The run comes to the member, and reads it although the receiver's shape does not have it. -/
lemma Block.shadowing_reads : ∃ c done rest span s s', shadowing.compile = .ok c ∧
    (c.machine {} []).Reaches done ((.loadMember, span) :: rest) s ∧
    Step.isCall (firstOf rest none) = false ∧
    Instr.loadMember.execute (firstOf rest none) span s = .ok ((), s') ∧
    lacksMember s.stack.cells = true := by
  obtain ⟨c, hc⟩ : ∃ c, shadowing.compile = .ok c := ⟨_, rfl⟩
  have hcode : (c.machine {} []).pending =
      c.located.take 34 ++ (.loadMember, {}) :: c.located.drop 35 := by
    rw [Chunk.pending_machine]
    cases hc
    decide +kernel
  have hrun : (runCode (some .loadMember) (c.located.take 34)
      (c.machine {} []).state).2 = none := by
    cases hc
    decide +kernel
  have hnext : Step.isCall (firstOf (c.located.drop 35) none) = false := by
    cases hc
    decide +kernel
  have hlacks : lacksMember (runCode (some .loadMember) (c.located.take 34)
      (c.machine {} []).state).1.stack.cells = true := by
    cases hc
    decide +kernel
  have hok : (Instr.loadMember.execute (firstOf (c.located.drop 35) none) {}
      (runCode (some .loadMember) (c.located.take 34)
        (c.machine {} []).state).1).isOk = true := by
    cases hc
    decide +kernel
  have hreach := Machine.reaches_of_run hcode hrun
  cases hexec : Instr.loadMember.execute (firstOf (c.located.drop 35) none) {}
      (runCode (some .loadMember) (c.located.take 34)
        (c.machine {} []).state).1 with
  | error fault =>
      rw [hexec] at hok
      cases hok
  | ok r => exact ⟨c, _, _, _, _, r.2, hc, hreach, hnext, hexec, hlacks⟩

/-- The name of a member that is read need not be one of the receiver's own shape. -/
theorem Block.loadMember_outside_shape : ∃ c done rest span s s' n v cs shape,
    shadowing.compile = .ok c ∧
    (c.machine {} []).Reaches done ((.loadMember, span) :: rest) s ∧
    Step.isCall (firstOf rest none) = false ∧
    Instr.loadMember.execute (firstOf rest none) span s = .ok ((), s') ∧
    s.stack.cells = .name n :: .value v :: cs ∧ v.type.shape = some shape ∧
    DataType.field? shape n = none := by
  obtain ⟨c, done, rest, span, s, s', hc, hreach, hnext, hexec, hlacks⟩ := shadowing_reads
  obtain ⟨n, v, cs, shape, hcells, hshape, hfield⟩ := of_lacksMember hlacks
  exact ⟨c, done, rest, span, s, s', n, v, cs, shape, hc, hreach, hnext, hexec, hcells, hshape,
    hfield⟩

/-- It is one of another shape that the name of its type has been given to. -/
theorem Block.loadMember_of_shape_shadowing : ∃ c done rest span s n v cs shape own,
    shadowing.compile = .ok c ∧
    (c.machine {} []).Reaches done ((.loadMember, span) :: rest) s ∧
    s.stack.cells = .name n :: .value v :: cs ∧
    (v.type.name, shape) ∈ (c.machine {} []).boundShapes done ((.loadMember, span) :: rest) ∧
    (DataType.field? shape n).isSome = true ∧ v.type.shape = some own ∧
    DataType.field? own n = none := by
  obtain ⟨c, done, rest, span, s, s', hc, hreach, hnext, hexec, hlacks⟩ := shadowing_reads
  obtain ⟨n, v, cs, own, hcells, hown, hnone⟩ := of_lacksMember hlacks
  obtain ⟨n', v', w, cs', shape, field, hcells', -, -, hs, hfield, -, -⟩ :=
    loadMember_of_shape hc {} [] hreach hnext hexec
  rw [hcells] at hcells'
  cases hcells'
  refine ⟨c, done, rest, span, s, n, v, cs, shape, own, hc, hreach, hcells, hs, ?_, hown, hnone⟩
  rw [hfield]
  rfl

end TypedConfig
