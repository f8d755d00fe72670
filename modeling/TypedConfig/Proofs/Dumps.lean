import Mathlib.Data.List.Forall2
import Mathlib.Data.List.Nodup
import TypedConfig.Proofs.Histories
import TypedConfig.Proofs.JsonTrees
import TypedConfig.Proofs.Values

/-!
# What a dump tells

Whatever the host has done with a machine, the JSON that it gives for the values of its root frame
is read back as one object (`Machine.dump_reads_back`): its members are the bindings, functions
apart, with their names in order and the trees that stand for their values.

**Trees.** Which tree stands for a value is said by `Value.ShownAs`, one constructor for each kind
of payload.  It is the tree that `Value.toJson` makes if all numbers inside the value are finite.

**Order.** Bindings can only come to the end of a frame.  No call of the host, a run among them,
does more to the names of the root frame than to put new ones behind them (`Bindings.GrowsTo`), so a
name stays where it was bound first and there is no name twice.
-/

namespace TypedConfig

/-! ## Trees that stand for values -/

/-- Which JSON tree stands for a value.  Types are not shown. -/
inductive Value.ShownAs : Value → Json → Prop
  | nil {v : Value} (h : v.payload = .nil) : ShownAs v .null
  | string {v : Value} {s : String} (h : v.payload = .string s) : ShownAs v (.string s)
  | integer {v : Value} {n : Int64} (h : v.payload = .integer n) : ShownAs v (.integer n)
  | float {v : Value} {x : Binary64} (h : v.payload = .float x) : ShownAs v (.float x)
  | boolean {v : Value} {b : Bool} (h : v.payload = .boolean b) : ShownAs v (.boolean b)
  | object {v : Value} {fields : Bindings Value} {members : List (String × Json)}
      (h : v.payload = .object fields) (names : members.map (·.1) = fields.names)
      (values : List.Forall₂ ShownAs (fields.map (·.2)) (members.map (·.2))) :
      ShownAs v (.object members)
  | array {v : Value} {items : List Value} {js : List Json} (h : v.payload = .array items)
      (values : List.Forall₂ ShownAs items js) : ShownAs v (.array js)
  | function {v : Value} {f : Function} (h : v.payload = .function f) :
      ShownAs v (.string ("<function " ++ f.name ++ ">"))

/-- Whether a value is no number that is infinite or not a number. -/
def Value.Finite (v : Value) : Prop := ∀ x, v.payload = .float x → x.isFinite = true

lemma itemsToJson_eq_map : ∀ items : List Value, itemsToJson items = items.map Value.toJson :=
  eq_map_of_cons rfl fun _ _ => rfl

lemma membersToJson_eq_map : ∀ fields : List (String × Value),
    membersToJson fields = fields.map fun f => (f.1, f.2.toJson) :=
  eq_map_of_cons rfl fun _ _ => rfl

lemma map_fst_membersToJson (fields : Bindings Value) :
    (membersToJson fields).map (·.1) = fields.names := by
  rw [membersToJson_eq_map, List.map_map]
  rfl

lemma map_snd_membersToJson (fields : Bindings Value) :
    (membersToJson fields).map (·.2) = (fields.map (·.2)).map Value.toJson := by
  rw [membersToJson_eq_map, List.map_map, List.map_map]
  rfl

lemma Value.toJson_eq (v : Value) : v.toJson = v.payload.toJson := by
  obtain ⟨type, isMutable, payload⟩ := v
  rw [toJson]

lemma forall₂_toJson {vs : List Value} (h : ∀ v ∈ vs, v.ShownAs v.toJson) :
    List.Forall₂ Value.ShownAs vs (vs.map Value.toJson) := by
  rw [List.forall₂_map_right_iff, List.forall₂_same]
  exact h

/-- The tree of a value stands for it. -/
lemma Value.shownAs_toJson {v : Value} (hv : v.Everywhere Finite) : v.ShownAs v.toJson := by
  induction hv with
  | @intro v here inside ih =>
      rw [toJson_eq]
      cases hpayload : v.payload with
      | nil => exact .nil hpayload
      | string s => exact .string hpayload
      | integer n => exact .integer hpayload
      | float x =>
          rw [Payload.toJson, if_pos (here x hpayload)]
          exact .float hpayload
      | boolean b => exact .boolean hpayload
      | object fields =>
          rw [hpayload] at ih
          rw [Payload.toJson]
          refine .object hpayload (map_fst_membersToJson fields) ?_
          rw [map_snd_membersToJson]
          exact forall₂_toJson ih
      | array items =>
          rw [hpayload] at ih
          rw [Payload.toJson, itemsToJson_eq_map]
          exact .array hpayload (forall₂_toJson ih)
      | function f => exact .function hpayload

/-- Only finite numbers come into the tree of a value, whatever numbers there are inside it. -/
lemma Value.finite_toJson (v : Value) : v.toJson.Finite := by
  have hv : v.Everywhere fun _ => True := .of_forall (fun _ => trivial) v
  induction hv with
  | @intro v here inside ih =>
      rw [toJson_eq]
      cases hpayload : v.payload with
      | nil => exact .null
      | string s => exact .string s
      | integer n => exact .integer n
      | float x =>
          rw [Payload.toJson]
          split
          · exact .float ‹_›
          · exact .null
      | boolean b => exact .boolean b
      | object fields =>
          rw [hpayload] at ih
          rw [Payload.toJson, membersToJson_eq_map]
          refine .object fun m hm => ?_
          obtain ⟨f, hf, rfl⟩ := List.mem_map.mp hm
          exact ih f.2 (List.mem_map_of_mem hf)
      | array items =>
          rw [hpayload] at ih
          rw [Payload.toJson, itemsToJson_eq_map]
          refine .array fun j hj => ?_
          obtain ⟨w, hw, rfl⟩ := List.mem_map.mp hj
          exact ih w hw
      | function f => exact .string _

/-! ## Names of the root frame -/

/-- Whether bindings have become others with nothing but new names behind the old ones. -/
structure Bindings.GrowsTo {α : Type} (b b' : Bindings α) : Prop where
  behind : b.names <+: b'.names
  distinct : b.names.Nodup → b'.names.Nodup

namespace Bindings.GrowsTo

variable {α : Type} {a b c : Bindings α}

lemma refl (b : Bindings α) : b.GrowsTo b := ⟨List.prefix_rfl, id⟩

lemma trans (hab : a.GrowsTo b) (hbc : b.GrowsTo c) : a.GrowsTo c :=
  ⟨hab.behind.trans hbc.behind, hbc.distinct ∘ hab.distinct⟩

/-- A name that is bound again stays where it is, a new one comes to the end. -/
lemma set (b : Bindings α) (name : String) (x : α) : b.GrowsTo (b.set name x) := by
  constructor
  · rw [names_set]
    split
    · exact List.prefix_rfl
    · exact List.prefix_append _ _
  · intro hb
    rw [names_set]
    split
    · exact hb
    · rename_i hnew
      exact hb.append (List.nodup_singleton name) (List.disjoint_singleton.mpr hnew)

end Bindings.GrowsTo

namespace RunState

/-- The bindings of the root frame. -/
def rootValues (s : RunState) : Bindings Value := s.frames.root.values

lemma growsTo_apply (effect : Effect) (s : RunState) :
    s.rootValues.GrowsTo (effect.apply s).rootValues := by
  cases effect with
  | bind name v =>
      obtain ⟨stack, ⟨inner, root⟩, maxFrames, calls⟩ := s
      cases inner with
      | nil => exact .set root.values name v
      | cons f fs => exact .refl root.values
  | bindType name t =>
      obtain ⟨stack, ⟨inner, root⟩, maxFrames, calls⟩ := s
      cases inner <;> exact .refl root.values
  | _ => exact .refl s.rootValues

lemma growsTo_runCode (next : Option Instr) (code : Code) (s : RunState) :
    s.rootValues.GrowsTo (runCode next code s).1.rootValues := by
  induction code generalizing s with
  | nil => exact .refl _
  | cons p code ih =>
      obtain ⟨i, span⟩ := p
      rw [runCode]
      cases hexec : i.execute (firstOf code next) span s with
      | error fault => exact .refl _
      | ok r =>
          obtain ⟨stack, effect, -, -, hr⟩ := Instr.execute_ok hexec
          have hstep : s.rootValues.GrowsTo r.2.rootValues := by
            rw [hr]
            exact growsTo_apply effect (s.withStack stack)
          exact hstep.trans (ih r.2)

lemma growsTo_runToEnd (code : Code) (s : RunState) :
    s.rootValues.GrowsTo (runToEnd code s).1.rootValues := by
  have hgrows := growsTo_runCode none code s
  rw [runToEnd]
  rcases hrun : runCode none code s with ⟨t, _ | e⟩ <;> rw [hrun] at hgrows <;> exact hgrows

end RunState

namespace Machine

lemma growsTo_run (m : Machine) : m.globals.GrowsTo m.run.globals := by
  have hgrows := RunState.growsTo_runToEnd m.pending m.state
  rw [run]
  split
  · exact .refl _
  · rcases hrun : runToEnd m.pending m.state with ⟨s, _ | e⟩ <;> rw [hrun] at hgrows <;>
      exact hgrows

lemma growsTo_action (m : Machine) (a : HostAction) : m.globals.GrowsTo (a.apply m).globals := by
  cases a with
  | bind b => cases b <;> exact .set m.globals _ _
  | run => exact m.growsTo_run
  | ask => exact .refl _

/-- Whatever the host does, the names of the root frame stay where they are. -/
lemma growsTo_after (m : Machine) (actions : List HostAction) :
    m.globals.GrowsTo (m.after actions).globals := by
  induction actions generalizing m with
  | nil => exact .refl _
  | cons a actions ih => exact (m.growsTo_action a).trans (ih (a.apply m))

end Machine

/-- Let `m` be a machine with which the host has done whatever it likes, and let the numbers in the
values of its root frame be finite.  Then its dump is read as one object.  The names of its members
are those of the bindings whose type is not that of functions, in order and without repetition, and
the values of its members stand for the values of these bindings.  The order is that in which the
names were first bound: whatever the host does `later`, new names come behind the old ones. -/
theorem Machine.dump_reads_back (c : Chunk) (l : Limits) (actions : List HostAction)
    (hfinite : ∀ e ∈ ((Machine.ofChunk c l).after actions).globals, e.2.Everywhere Value.Finite) :
    let m := (Machine.ofChunk c l).after actions
    let data : Bindings Value := m.globals.filter fun e => e.2.type.tag ≠ .function
    ∃ members, Json.read? m.dump = some (.object members) ∧
      members.map (·.1) = data.names ∧ data.names.Nodup ∧
      List.Forall₂ Value.ShownAs (data.map (·.2)) (members.map (·.2)) ∧
      ∀ later, m.globals.names <+: (m.after later).globals.names := by
  intro m data
  have htree : (Json.object (membersToJson data)).Finite := by
    refine .object fun x hx => ?_
    rw [membersToJson_eq_map] at hx
    obtain ⟨e, -, rfl⟩ := List.mem_map.mp hx
    exact e.2.finite_toJson
  have hdistinct : m.globals.names.Nodup :=
    ((Machine.ofChunk c l).growsTo_after actions).distinct List.nodup_nil
  have hdata : data.Sublist m.globals := List.filter_sublist
  refine ⟨membersToJson data, Json.read?_pretty htree 0, map_fst_membersToJson data,
    hdistinct.sublist (hdata.map _), ?_, fun later => (m.growsTo_after later).behind⟩
  rw [map_snd_membersToJson]
  refine forall₂_toJson fun v hv => ?_
  obtain ⟨e, he, rfl⟩ := List.mem_map.mp hv
  exact Value.shownAs_toJson (hfinite e (hdata.subset he))

/-- The name of a function that is given a truth value later is a member, in its old place; that of
another function is none. -/
theorem Machine.dump_reads_back_sample :
    let code := Chunk.mk [.pushName "float", .resolveType .float false false,
      .pushLiteral (.float ⟨0xC004000000000000⟩), .pushName "ratio", .store true] []
    let server := Value.object (.object "Server" [])
      [("na\"me", .string "a\n"), ("ports", .array (.arrayOf .integer) [.integer 80])]
    let m := (Machine.ofChunk code {}).after [.bind (.register ⟨"print", .print⟩),
      .bind (.register ⟨"show", .recorded⟩), .bind (.set "server" server), .run,
      .bind (.set "print" (.boolean true))]
    ∃ members, Json.read? m.dump = some (.object members) ∧
      members.map (·.1) = ["print", "server", "ratio"] := by
  intro code server m
  have hglobals : m.globals = [("print", .boolean true), ("show", .function ⟨"show", .recorded⟩),
      ("server", server), ("ratio", (Value.float ⟨0xC004000000000000⟩).mutable)] := rfl
  have hports : (Value.array (.arrayOf .integer) [.integer 80]).Everywhere Value.Finite := by
    refine .intro (by simp [Value.Finite, Value.array]) ?_
    intro v hv
    rw [List.mem_singleton.mp hv]
    exact .leaf (by simp [Value.Finite, Value.integer]) rfl
  have hserver : server.Everywhere Value.Finite := by
    refine .object (by simp [Value.Finite, Value.object]) ?_
    intro f hf
    rcases List.mem_pair.mp hf with rfl | rfl
    · exact .leaf (by simp [Value.Finite, Value.string]) rfl
    · exact hports
  have hfinite : ∀ e ∈ m.globals, e.2.Everywhere Value.Finite := by
    rw [hglobals]
    intro e he
    simp only [List.mem_cons, List.not_mem_nil, or_false] at he
    rcases he with rfl | rfl | rfl | rfl
    · exact .leaf (by simp [Value.Finite, Value.boolean]) rfl
    · exact .leaf (by simp [Value.Finite, Value.function]) rfl
    · exact hserver
    · refine .leaf ?_ rfl
      rintro x ⟨⟩
      decide
  obtain ⟨members, hread, hnames, -⟩ := dump_reads_back code {} _ hfinite
  exact ⟨members, hread, hnames.trans (by rw [hglobals]; rfl)⟩

end TypedConfig
