import TypedConfig.Proofs.FailedRuns
import TypedConfig.Proofs.Likeness

/-!
# Statements that can be left out

Calls, scopes and definitions of types with builtin names have no influence on the other statements
(`Stmt.isIdle`).  Whichever of them are left out of a program, and however deep they stand, what is
left of the program is accepted, runs to its end within the same limits and gives the same values
(`Block.pruned_run`).

**Leaving out.** `Stmt.Prunes` relates statements to what is left of them, and marks which calls are
still made.  There is a mark for each call, in the order of the text, and this is also the order in
which the calls are made: when a run comes to an instruction, it has made as many calls as there
are call instructions before it.
-/

namespace TypedConfig

/-! ## Counting the calls of statements -/

mutual

/-- How many calls are made by a statement. -/
def Stmt.callCount : Stmt → Nat
  | .scope _ body _ _ => callCountAll body
  | .effect _ _ => 1
  | .typedef .. | .binding .. => 0

/-- How many calls are made by statements. -/
def Stmt.callCountAll : List Stmt → Nat
  | [] => 0
  | st :: ss => st.callCount + callCountAll ss

end

mutual

/-- The code of a statement makes the calls of the statement. -/
lemma Stmt.callCount_compile (st : Stmt) {code : Code} (h : st.compile = .ok code) :
    code.callCount = st.callCount := by
  match st, h with
  | .scope name body bodySpan span, h =>
      obtain ⟨inner, hinner, rfl⟩ := Stmt.compile_scope_ok h
      have hbody := Stmt.callCount_compileAll body hinner
      rw [Stmt.callCount, ← hbody, Code.callCount_append]
      rfl
  | .typedef name type span, h =>
      obtain ⟨definition, hdefinition, rfl⟩ := Stmt.compile_typedef_ok h
      rw [Code.callCount_append, (type.isQuiet_of_compileDefinition hdefinition).callCount]
      rfl
  | .binding name type value span, h =>
      obtain ⟨declared, bound, hdeclared, hbound, rfl⟩ := Stmt.compile_binding_ok h
      have hvalue := Code.isQuiet_of_value (Expr.isOfValue_of_compileBound hbound)
      rw [Code.callCount_append, Code.callCount_append,
        (type.isQuiet_of_compile hdeclared).callCount, hvalue.callCount]
      rfl
  | .effect e span, h =>
      obtain ⟨callee, arguments, callSpan, operands, target, rfl, hoperands, htarget, rfl⟩ :=
        Stmt.compile_effect_ok h
      have hoperands := Code.isQuiet_of_value (Expr.isOfValue_of_compileArguments hoperands)
      have htarget := Code.isQuiet_of_value (callee.isOfValue_of_compile htarget)
      rw [Code.callCount_append, Code.callCount_append, hoperands.callCount, htarget.callCount]
      rfl

lemma Stmt.callCount_compileAll (ss : List Stmt) {code : Code}
    (h : Stmt.compileAll ss = .ok code) : code.callCount = Stmt.callCountAll ss := by
  match ss, h with
  | [], h =>
      cases h
      rfl
  | st :: ss, h =>
      obtain ⟨first, rest, hfirst, hrest, rfl⟩ := Stmt.compileAll_cons_ok h
      rw [Code.callCount_append, Stmt.callCount_compile st hfirst,
        Stmt.callCount_compileAll ss hrest, Stmt.callCountAll]

end

/-! ## Leaving statements out -/

/-- Whether a statement has no influence on others: a call, a scope, or the definition of a type
that has the name of a builtin one. -/
def Stmt.isIdle : Stmt → Bool
  | .scope .. | .effect .. => true
  | .typedef name _ _ => name ∈ TypeRef.builtinNames
  | .binding .. => false

/-- Whether the second statements are left of the first ones when some that have no influence are
left out, at any depth.  The marks say for each call of the first ones whether it is still made. -/
inductive Stmt.Prunes : List Stmt → List Stmt → List Bool → Prop
  | nil : Prunes [] [] []
  | keep {ss ss' : List Stmt} {marks : List Bool} (st : Stmt) : Prunes ss ss' marks →
      Prunes (st :: ss) (st :: ss') (List.replicate st.callCount true ++ marks)
  | inside {body body' ss ss' : List Stmt} {inner marks : List Bool} (name : String)
      (bodySpan span : Span) : Prunes body body' inner → Prunes ss ss' marks →
      Prunes (.scope name body bodySpan span :: ss) (.scope name body' bodySpan span :: ss')
        (inner ++ marks)
  | drop {ss ss' : List Stmt} {marks : List Bool} (st : Stmt) : st.isIdle = true →
      Prunes ss ss' marks → Prunes (st :: ss) ss' (List.replicate st.callCount false ++ marks)

/-- The items that are marked. -/
def marked {α : Type} (marks : List Bool) (items : List α) : List α :=
  ((marks.zip items).filter (·.1)).map (·.2)

section

variable {α : Type}

lemma marked_append {marks : List Bool} {items : List α} (h : marks.length = items.length)
    (marks' : List Bool) (items' : List α) :
    marked (marks ++ marks') (items ++ items') = marked marks items ++ marked marks' items' := by
  rw [marked, List.zip_append h, List.filter_append, List.map_append]
  rfl

lemma marked_true {n : Nat} {items : List α} (h : items.length = n) :
    marked (List.replicate n true) items = items := by
  subst h
  induction items with
  | nil => rfl
  | cons x items ih => exact congrArg (x :: ·) ih

lemma marked_false {n : Nat} {items : List α} (h : items.length = n) :
    marked (List.replicate n false) items = [] := by
  subst h
  induction items with
  | nil => rfl
  | cons x items ih => exact ih

end

/-! ## What idle statements leave as it is -/

lemma Scopes.withoutBuiltin_bindType {name : String} (h : name ∈ TypeRef.builtinNames)
    (s : Scopes) (t : DataType) : (s.bindType name t).withoutBuiltin = s.withoutBuiltin := by
  obtain ⟨_ | ⟨c, cs⟩, root⟩ := s <;>
    simp [bindType, update, withoutBuiltin, Scope.withoutBuiltin, Bindings.withoutBuiltin_set h]

lemma World.andThen_ok {α : Type} {w w' : World} {x : Except RuntimeError α} {f : α → World}
    (h : w.andThen x f = (w', none)) : ∃ a, w' = f a := by
  cases x with
  | error e => cases h
  | ok a => exact ⟨a, (Prod.mk.inj h).1.symm⟩

lemma CallStack.scopes_eq_of_frames {s t : CallStack} (h : s.frames = t.frames) :
    s.scopes = t.scopes := by
  obtain ⟨hinner, hroot⟩ := List.append_inj' h rfl
  rw [scopes, scopes, hinner, List.cons.inj hroot |>.1]

/-- A statement that has no influence leaves everything as it was, as far as it matters. -/
lemma Stmt.alike_of_idle {st : Stmt} (hidle : st.isIdle = true) {code : Code}
    (h : st.compile = .ok code) {next : Option Instr} {s t : RunState} (hs : s.frames.Linked)
    (hrun : runCode next code s = (t, none)) : s.Alike t := by
  have hperforms : Performs next code s s.stack.cells (st.eval s.world) :=
    Stmt.performs_eval st h hs
  have hlimits := runCode_limits next code s
  rw [Performs] at hperforms
  rw [hrun] at hperforms hlimits
  obtain ⟨heval, hcells, -, hlinked⟩ := hperforms
  refine ⟨DataStack.eq_of_cells hcells.symm hlimits.1.symm, hlimits.2.symm, ?_, hs, hlinked⟩
  cases st with
  | scope name body bodySpan span =>
      obtain ⟨inner, hinner, rfl⟩ := Stmt.compile_scope_ok h
      have hframes := StaysInside.scope name bodySpan span
        (Stmt.staysInside body hinner (some .closeScope)) next s
      rw [hrun] at hframes
      rw [CallStack.scopes_eq_of_frames hframes]
  | typedef name type span =>
      rw [Stmt.eval] at heval
      obtain ⟨d, hworld⟩ := World.andThen_ok heval
      have hscopes : t.frames.scopes = s.frames.scopes.bindType name d :=
        congrArg World.scopes hworld
      rw [hscopes, Scopes.withoutBuiltin_bindType (of_decide_eq_true hidle)]
  | binding => cases hidle
  | effect e span =>
      obtain ⟨callee, arguments, callSpan, _, _, rfl, -⟩ := Stmt.compile_effect_ok h
      rw [Stmt.eval] at heval
      obtain ⟨c, hworld⟩ := World.andThen_ok heval
      have hscopes : t.frames.scopes = s.frames.scopes := congrArg World.scopes hworld
      rw [hscopes]

/-! ## Running what is left -/

/-- Whether the second code gets through from every state that is like one from which the first code
does, whatever stands behind it, ends in a state that is alike, and makes those of the calls that
are marked. -/
def Code.Prunes (code code' : Code) (marks : List Bool) : Prop :=
  ∀ (next : Option Instr) (s s' t : RunState), s.Alike s' → runCode next code s = (t, none) →
    ∃ t' made, (∀ next', runCode next' code' s' = (t', none)) ∧
      RunState.Together s s' t t' made (marked marks made) ∧ made.length = marks.length

namespace Code.Prunes

lemma nil : Prunes [] [] [] := by
  intro next s s' t hs h
  cases h
  exact ⟨s', [], fun _ => rfl, ⟨hs, by simp, by simp [marked]⟩, rfl⟩

lemma append {first first' rest rest' : Code} {marks marks' : List Bool}
    (hfirst : Prunes first first' marks) (hrest : Prunes rest rest' marks') :
    Prunes (first ++ rest) (first' ++ rest') (marks ++ marks') := by
  intro next s s' t hs h
  obtain ⟨u, hbefore, hbehind⟩ := runCode_append_ok h
  obtain ⟨u', made, hu', hsofar, hmade⟩ := hfirst _ s s' u hs hbefore
  obtain ⟨t', more, ht', htogether, hmore⟩ := hrest next u u' t hsofar.alike hbehind
  refine ⟨t', made ++ more, fun next' => ?_, ?_, ?_⟩
  · rw [runCode_append, hu']
    exact ht' next'
  · rw [marked_append hmade.symm]
    exact hsofar.trans htogether
  · rw [List.length_append, List.length_append, hmade, hmore]

/-- What is kept makes all of its calls. -/
lemma kept {code : Code} (htypes : code.NamesTypes)
    (hnext : ∀ next next' s, runCode next code s = runCode next' code s) :
    Prunes code code (List.replicate code.callCount true) := by
  intro next s s' t hs h
  obtain ⟨t', made, ht', htogether⟩ := runCode_alike htypes hs h
  have hlength := calls_runCode h
  rw [htogether.calls, List.length_append] at hlength
  have hmade : made.length = code.callCount := Nat.add_left_cancel hlength
  refine ⟨t', made, fun next' => (hnext next' next s').trans ht', ?_, ?_⟩
  · rw [marked_true hmade]
    exact htogether
  · rw [hmade, List.length_replicate]

/-- What is dropped makes none. -/
lemma dropped {code : Code} (hidle : ∀ {next : Option Instr} {s t : RunState}, s.frames.Linked →
    runCode next code s = (t, none) → s.Alike t) :
    Prunes code [] (List.replicate code.callCount false) := by
  intro next s s' t hs h
  have hlength := calls_runCode h
  obtain ⟨made, hmade⟩ := calls_prefix_runCode next code s
  rw [h] at hmade
  rw [← hmade, List.length_append] at hlength
  replace hlength : made.length = code.callCount := Nat.add_left_cancel hlength
  refine ⟨s', made, fun _ => rfl, ⟨(hidle hs.linked h).symm.trans hs, hmade.symm, ?_⟩, ?_⟩
  · rw [marked_false hlength, List.append_nil]
  · rw [hlength, List.length_replicate]

/-- A scope keeps what its body keeps. -/
lemma scope {inner inner' : Code} {marks : List Bool} (h : Prunes inner inner' marks)
    (name : String) (bodySpan span : Span) :
    Prunes ((.pushName name, span) :: (.openScope, span) :: inner ++ [(.closeScope, bodySpan)])
      ((.pushName name, span) :: (.openScope, span) :: inner' ++ [(.closeScope, bodySpan)])
      marks := by
  have hopen := kept (NamesTypes.opening name span) fun next next' =>
    runCode_next_of_concat next next' rfl [(.pushName name, span)]
  have hclose := kept (NamesTypes.closing bodySpan) fun next next' =>
    runCode_next_of_concat next next' rfl []
  have hscope := (hopen.append h).append hclose
  rwa [show List.replicate (callCount [(.pushName name, span), (.openScope, span)]) true = []
    from rfl, show List.replicate (callCount [(.closeScope, bodySpan)]) true = [] from rfl,
    List.nil_append, List.append_nil] at hscope

end Code.Prunes

/-- What is left of accepted statements is accepted, and runs wherever they run. -/
theorem Stmt.Prunes.code {ss ss' : List Stmt} {marks : List Bool} (h : Stmt.Prunes ss ss' marks)
    {code : Code} (hcode : Stmt.compileAll ss = .ok code) :
    ∃ code', Stmt.compileAll ss' = .ok code' ∧ Code.Prunes code code' marks := by
  induction h generalizing code with
  | nil =>
      cases hcode
      exact ⟨[], rfl, .nil⟩
  | keep st _ ih =>
      obtain ⟨first, rest, hfirst, hrest, rfl⟩ := Stmt.compileAll_cons_ok hcode
      obtain ⟨rest', hrest', hprunes⟩ := ih hrest
      have hkept := Code.Prunes.kept (st.namesTypes hfirst) (Stmt.runCode_next hfirst)
      rw [st.callCount_compile hfirst] at hkept
      exact ⟨first ++ rest', Stmt.compileAll_cons hfirst hrest', hkept.append hprunes⟩
  | inside name bodySpan span _ _ ihbody ih =>
      obtain ⟨first, rest, hfirst, hrest, rfl⟩ := Stmt.compileAll_cons_ok hcode
      obtain ⟨inner, hinner, rfl⟩ := Stmt.compile_scope_ok hfirst
      obtain ⟨inner', hinner', hbody⟩ := ihbody hinner
      obtain ⟨rest', hrest', hprunes⟩ := ih hrest
      exact ⟨_, Stmt.compileAll_cons (Stmt.compile_scope hinner' name bodySpan span) hrest',
        (hbody.scope name bodySpan span).append hprunes⟩
  | drop st hidle _ ih =>
      obtain ⟨first, rest, hfirst, hrest, rfl⟩ := Stmt.compileAll_cons_ok hcode
      obtain ⟨rest', hrest', hprunes⟩ := ih hrest
      have hdropped := Code.Prunes.dropped (Stmt.alike_of_idle hidle hfirst)
      rw [st.callCount_compile hfirst] at hdropped
      exact ⟨rest', hrest', hdropped.append hprunes⟩

/-- When a run that succeeds comes to an instruction, it has made one call for each call instruction
before it. -/
lemma Machine.Reaches.calls_eq {c : Chunk} {limits : Limits} {host : List HostBinding}
    {before after : Code} {s t : RunState}
    (hreaches : (c.machine limits host).Reaches before after s)
    (hends : runCode none c.located (.hosted limits host) = (t, none)) :
    s.calls = t.calls.take before.callCount := by
  have hcode := hreaches.code
  have hbefore := hreaches.run
  rw [Chunk.pending_machine] at hcode
  rw [Chunk.state_machine] at hbefore
  rw [hcode, runCode_append, hbefore] at hends
  replace hends : runCode none after s = (t, none) := hends
  have hprefix := calls_prefix_runCode none after s
  have hlength := calls_runCode hbefore
  rw [hends] at hprefix
  rw [List.prefix_iff_eq_take.mp hprefix, hlength]
  simp [RunState.hosted]

/-- Whatever the host has bound and whatever the limits are, if the run of an accepted program
succeeds, then what is left of the program when calls, scopes and definitions of types with builtin
names are left out, at any depth, is accepted too, and its run

* succeeds and leaves the same values in the root scope, in the same order;
* leaves the same types there, in the same order, but for those with builtin names;
* makes the calls of the first run that are marked as still made.

There is one mark for each call.  They are in the order of the program: when the first run comes to
an instruction, it has made one call for each call instruction before it. -/
theorem Block.pruned_run {b b' : Block} {marks : List Bool}
    (hprunes : Stmt.Prunes b.statements b'.statements marks) {c : Chunk} (h : b.compile = .ok c)
    (limits : Limits) (host : List HostBinding)
    (hrun : (c.machine limits host).run.failure = none) :
    ∃ c' values types types' calls, b'.compile = .ok c' ∧
      (c.machine limits host).run.outcome = ⟨none, values, types, calls⟩ ∧
      (c'.machine limits host).run.outcome = ⟨none, values, types', marked marks calls⟩ ∧
      types'.withoutBuiltin = types.withoutBuiltin ∧ marks.length = calls.length ∧
      ∀ before after s, (c.machine limits host).Reaches before after s →
        s.calls = calls.take before.callCount := by
  obtain ⟨all, hall, hlocated⟩ := compile_ok h
  rw [← hlocated] at hall
  obtain ⟨all', hall', hcode⟩ := hprunes.code hall
  obtain ⟨c', hc', hlocated'⟩ := compile_of_compileAll hall'
  rw [← hlocated'] at hall' hcode
  rcases hends : runCode none c.located (.hosted limits host) with ⟨t, r⟩
  have houtcome := Stmt.outcome_of_runCode hall hends
  obtain rfl : r = none := (congrArg Outcome.failure houtcome).symm.trans hrun
  obtain ⟨t', made, hends', htogether, hmade⟩ :=
    hcode none _ _ t (.refl (RunState.linked_hosted limits host)) hends
  have houtcome' := Stmt.outcome_of_runCode hall' (hends' none)
  have hcalls : t.calls = made := htogether.calls
  have hcalls' : t'.calls = marked marks made := htogether.calls'
  have hroot : t'.frames.root.scope.withoutBuiltin = t.frames.root.scope.withoutBuiltin :=
    congrArg Scopes.root htogether.alike.scopes.symm
  have hvalues : t'.frames.root.values = t.frames.root.values := congrArg Scope.values hroot
  refine ⟨c', t.frames.root.values, t.frames.root.types, t'.frames.root.types, made, hc', ?_, ?_,
    congrArg Scope.types hroot, hmade.symm, ?_⟩
  · rw [houtcome, hcalls]
  · rw [houtcome', hvalues, hcalls']
  · intro before after s hreaches
    rw [hreaches.calls_eq hends, hcalls]

/-- A program with much that can be left out: `type float: int` and then
`s { print(1) t { print(2) } } let a: int = 3 print(a)`. -/
def Block.cluttered : Block where
  statements := [
    Stmt.typedef "float" (.named "int" {}) {},
    .scope "s" [
      .effect (.call (.name "print" {}) [.literal (.integer 1) {}] {}) {},
      .scope "t" [.effect (.call (.name "print" {}) [.literal (.integer 2) {}] {}) {}] {} {}] {} {},
    .binding "a" (.named "int" {}) (some (.literal (.integer 3) {})) {},
    .effect (.call (.name "print" {}) [.name "a" {}] {}) {}]
  span := {}

/-- What is left of it without the definition of the type, the inner scope and the last call. -/
def Block.tidied : Block where
  statements := [
    Stmt.scope "s" [.effect (.call (.name "print" {}) [.literal (.integer 1) {}] {}) {}] {} {},
    .binding "a" (.named "int" {}) (some (.literal (.integer 3) {})) {}]
  span := {}

/-- Statements are left out at the top and in a scope; of three calls the first one is left. -/
theorem Block.pruned_run_tidied : ∃ c c' values types types' calls, cluttered.compile = .ok c ∧
    Stmt.Prunes cluttered.statements tidied.statements [true, false, false] ∧
    (c.machine {} [.register ⟨"print", .print⟩]).run.failure = none ∧
    tidied.compile = .ok c' ∧
    (c.machine {} [.register ⟨"print", .print⟩]).run.outcome = ⟨none, values, types, calls⟩ ∧
    (c'.machine {} [.register ⟨"print", .print⟩]).run.outcome =
      ⟨none, values, types', marked [true, false, false] calls⟩ := by
  obtain ⟨c, hc⟩ : ∃ c, cluttered.compile = .ok c := ⟨_, rfl⟩
  have hprunes : Stmt.Prunes cluttered.statements tidied.statements [true, false, false] :=
    .drop _ rfl (.inside "s" {} {} (.keep _ (.drop _ rfl .nil)) (.keep _ (.drop _ rfl .nil)))
  have hrun : (c.machine {} [.register ⟨"print", .print⟩]).run.failure = none := by
    cases hc
    decide +kernel
  obtain ⟨c', values, types, types', calls, hc', h, h', -⟩ :=
    pruned_run hprunes hc {} [.register ⟨"print", .print⟩] hrun
  exact ⟨c, c', values, types, types', calls, hc, hprunes, hrun, hc', h, h'⟩

end TypedConfig
