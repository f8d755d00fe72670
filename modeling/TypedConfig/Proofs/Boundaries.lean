import TypedConfig.Proofs.Effects
import TypedConfig.Proofs.Refinement

/-!
# Between statements

The code of a statement is a closed piece of code.  It ends with an instruction that does not look
ahead, so what stands behind it does not matter (`Stmt.runCode_next`), and whatever comes of it, the
frames around the innermost one stay as they are (`Stmt.actsLast`).

**Quiet code.** Types and values compile to instructions that change the cells alone.  Every
statement but a scope is quiet code and one instruction that does what the statement is for; if it
fails, it has done nothing.

**The first statement that fails.** A failed run of statements is a run of those before some
statement, and then a failed run of this one (`Stmt.runCode_compileAll_failed`).
-/

namespace TypedConfig

/-! ## Quiet code -/

/-- Whether an instruction changes the cells alone. -/
def Instr.IsQuiet (i : Instr) : Prop := ∀ effect, i.Allows effect → effect = .none

/-- Whether all instructions of a piece of code change the cells alone. -/
def Code.IsQuiet (code : Code) : Prop := ∀ p ∈ code, p.1.IsQuiet

/-- Whether an instruction occurs in the code of values. -/
def Instr.isOfValue : Instr → Bool
  | .pushName _ | .pushLiteral _ | .loadValue | .newObject | .setField | .sealObject
  | .loadMember => true
  | _ => false

lemma Instr.isQuiet_of_value {i : Instr} (h : i.isOfValue = true) : i.IsQuiet := by
  cases i <;> first | exact fun _ h => h | cases h

lemma Code.IsQuiet.append {first rest : Code} (hfirst : first.IsQuiet) (hrest : rest.IsQuiet) :
    Code.IsQuiet (first ++ rest) := by
  intro p hp
  exact (List.mem_append.mp hp).elim (hfirst p) (hrest p)

mutual

/-- The code of a value is made of the instructions for values. -/
lemma Expr.isOfValue_of_compile (e : Expr) {typed : Bool} {code : Code}
    (h : e.compile typed = .ok code) : ∀ p ∈ code, p.1.isOfValue = true := by
  match e, h with
  | .name _ _, h =>
      cases h
      simp [Instr.isOfValue]
  | .literal _ _, h =>
      cases h
      simp [Instr.isOfValue]
  | .member value name span, h =>
      obtain ⟨receiver, hreceiver, rfl⟩ := Expr.compile_member_ok h
      have hvalue := value.isOfValue_of_compile hreceiver
      intro p hp
      simp only [List.mem_append, List.mem_cons, List.not_mem_nil, or_false] at hp
      rcases hp with hp | rfl | rfl
      · exact hvalue p hp
      · rfl
      · rfl
  | .object fields span, h =>
      obtain ⟨-, inits, hinits, rfl⟩ := Expr.compile_object_ok h
      have hfields := FieldInit.isOfValue_of_compileAll fields hinits
      intro p hp
      rcases List.mem_append.mp hp with hp | hp
      · rcases List.mem_cons.mp hp with rfl | hp
        · rfl
        · exact hfields p hp
      · rw [List.mem_singleton.mp hp]
        rfl
  | .call _ _ _, h => cases h

lemma FieldInit.isOfValue_of_compileAll (fs : List FieldInit) {code : Code}
    (h : FieldInit.compileAll fs = .ok code) : ∀ p ∈ code, p.1.isOfValue = true := by
  match fs, h with
  | [], h =>
      cases h
      simp
  | ⟨name, value, span⟩ :: fs, h =>
      obtain ⟨init, rest, hinit, hrest, rfl⟩ := FieldInit.compileAll_cons_ok h
      have hvalue := value.isOfValue_of_compile hinit
      have hfields := FieldInit.isOfValue_of_compileAll fs hrest
      intro p hp
      simp only [List.cons_append, List.append_assoc, List.mem_cons, List.mem_append,
        List.nil_append] at hp
      rcases hp with rfl | hp | rfl | hp
      · rfl
      · exact hvalue p hp
      · rfl
      · exact hfields p hp

end

lemma Expr.isOfValue_of_compileBound {e : Option Expr} {code : Code}
    (h : Expr.compileBound e = .ok code) : ∀ p ∈ code, p.1.isOfValue = true := by
  cases e with
  | none =>
      cases h
      simp
  | some e => exact e.isOfValue_of_compile h

lemma Expr.isOfValue_of_compileArguments {es : List Expr} {code : Code}
    (h : Expr.compileArguments es = .ok code) : ∀ p ∈ code, p.1.isOfValue = true := by
  induction es generalizing code with
  | nil =>
      cases h
      simp
  | cons e es ih =>
      obtain ⟨argument, rest, hargument, hrest, rfl⟩ := Expr.compileArguments_cons_ok h
      intro p hp
      exact (List.mem_append.mp hp).elim (e.isOfValue_of_compile hargument p) (ih hrest p)

lemma Code.isQuiet_of_value {code : Code} (h : ∀ p ∈ code, p.1.isOfValue = true) :
    code.IsQuiet :=
  fun p hp => Instr.isQuiet_of_value (h p hp)

lemma TypeExpr.isQuiet_of_compile {t : TypeExpr} {code : Code} (h : t.compile = .ok code) :
    code.IsQuiet := by
  obtain rfl := TypeExpr.compile_ok h
  intro p hp
  simp only [List.mem_cons, List.not_mem_nil, or_false] at hp
  rcases hp with rfl | rfl <;> exact fun _ h => h

lemma FieldDecl.isQuiet_of_compileAll {fs : List FieldDecl} {code : Code}
    (h : compileAll fs = .ok code) : code.IsQuiet := by
  induction fs generalizing code with
  | nil =>
      cases h
      intro p hp
      cases hp
  | cons f fs ih =>
      obtain ⟨type, rest, htype, hrest, rfl⟩ := compileAll_cons_ok h
      refine (f.type.isQuiet_of_compile htype).append ?_
      intro p hp
      rcases List.mem_cons.mp hp with rfl | hp
      · exact fun _ h => h
      · exact ih hrest p hp

lemma TypeExpr.isQuiet_of_compileDefinition {t : TypeExpr} {code : Code}
    (h : t.compileDefinition = .ok code) : code.IsQuiet := by
  rcases TypeExpr.compileDefinition_ok h with ⟨-, htype⟩ | ⟨-, fields, hfields, rfl⟩
  · exact t.isQuiet_of_compile htype
  · refine (FieldDecl.isQuiet_of_compileAll hfields).append ?_
    intro p hp
    rw [List.mem_singleton.mp hp]
    exact fun _ h => h

/-- Quiet code changes the data stack alone, also when it fails. -/
lemma Code.IsQuiet.runCode {code : Code} (h : code.IsQuiet) (next : Option Instr) (s : RunState) :
    ∃ stack, (TypedConfig.runCode next code s).1 = s.withStack stack := by
  induction code generalizing s with
  | nil => exact ⟨s.stack, rfl⟩
  | cons p code ih =>
      obtain ⟨i, span⟩ := p
      have hi : i.IsQuiet := h _ List.mem_cons_self
      have hcode : Code.IsQuiet code := fun q hq => h q (List.mem_cons_of_mem _ hq)
      rw [TypedConfig.runCode]
      cases hexec : i.execute (firstOf code next) span s with
      | error fault => exact ⟨s.stack, rfl⟩
      | ok r =>
          obtain ⟨stack, effect, hallows, -, ht⟩ := Instr.execute_ok hexec
          rw [hi effect hallows] at ht
          obtain ⟨stack', hrest⟩ := ih hcode r.2
          exact ⟨stack', by rw [hrest, ht]; rfl⟩

/-! ## Statements -/

/-- Whether an instruction ends a statement that is no scope.  What it does, it does in the
innermost frame. -/
def Instr.isLast : Instr → Bool
  | .bindType | .store _ | .call _ => true
  | _ => false

/-- The code of a statement is quiet code and one more instruction, or that of a scope. -/
lemma Stmt.compile_cases {st : Stmt} {code : Code} (h : st.compile = .ok code) :
    (∃ quiet i span, code = quiet ++ [(i, span)] ∧ Code.IsQuiet quiet ∧ i.isLast = true) ∨
      ∃ name body bodySpan span inner, st = .scope name body bodySpan span ∧
        Stmt.compileAll body = .ok inner ∧
        code = (.pushName name, span) :: (.openScope, span) :: inner ++
          [(.closeScope, bodySpan)] := by
  have hname (name : String) (span : Span) : Code.IsQuiet [(.pushName name, span)] := by
    intro p hp
    rw [List.mem_singleton.mp hp]
    exact fun _ h => h
  cases st with
  | scope name body bodySpan span =>
      obtain ⟨inner, hinner, rfl⟩ := Stmt.compile_scope_ok h
      exact Or.inr ⟨name, body, bodySpan, span, inner, rfl, hinner, rfl⟩
  | typedef name type span =>
      obtain ⟨definition, hdefinition, rfl⟩ := Stmt.compile_typedef_ok h
      have hquiet := (type.isQuiet_of_compileDefinition hdefinition).append (hname name span)
      exact Or.inl ⟨_, .bindType, span, by simp, hquiet, rfl⟩
  | binding name type value span =>
      obtain ⟨declared, bound, hdeclared, hbound, rfl⟩ := Stmt.compile_binding_ok h
      have hvalue := Code.isQuiet_of_value (Expr.isOfValue_of_compileBound hbound)
      have hquiet := ((type.isQuiet_of_compile hdeclared).append hvalue).append (hname name span)
      exact Or.inl ⟨_, .store value.isSome, span, by simp, hquiet, rfl⟩
  | effect e span =>
      obtain ⟨callee, arguments, callSpan, operands, target, rfl, hoperands, htarget, rfl⟩ :=
        Stmt.compile_effect_ok h
      have hoperands := Code.isQuiet_of_value (Expr.isOfValue_of_compileArguments hoperands)
      have htarget := Code.isQuiet_of_value (callee.isOfValue_of_compile htarget)
      exact Or.inl ⟨_, .call arguments.length, callSpan, rfl, hoperands.append htarget, rfl⟩

/-- Code whose last instruction does not look ahead does the same whatever stands behind it. -/
lemma runCode_next_of_concat {i : Instr} {span : Span} (next next' : Option Instr)
    (hi : i.execute next span = i.execute next' span) (code : Code) (s : RunState) :
    runCode next (code ++ [(i, span)]) s = runCode next' (code ++ [(i, span)]) s := by
  have hlast (t : RunState) : runCode next [(i, span)] t = runCode next' [(i, span)] t := by
    have hi' : i.execute (firstOf [] next) span = i.execute (firstOf [] next') span := hi
    rw [runCode, runCode, hi']
    rfl
  rw [runCode_append, runCode_append]
  simp only [hlast]
  rfl

/-- What stands behind a statement does not matter to it. -/
lemma Stmt.runCode_next {st : Stmt} {code : Code} (h : st.compile = .ok code)
    (next next' : Option Instr) (s : RunState) : runCode next code s = runCode next' code s := by
  rcases Stmt.compile_cases h with ⟨quiet, i, span, rfl, -, hlast⟩ |
    ⟨name, body, bodySpan, span, inner, -, -, rfl⟩
  · have hi : i.execute next span = i.execute next' span := by
      cases i <;> first | rfl | cases hlast
    exact runCode_next_of_concat next next' hi quiet s
  · exact runCode_next_of_concat (i := .closeScope) next next' rfl _ s

/-- What stands behind statements does not matter to them. -/
lemma Stmt.runCode_next_all {ss : List Stmt} {code : Code} (h : Stmt.compileAll ss = .ok code)
    (next next' : Option Instr) (s : RunState) : runCode next code s = runCode next' code s := by
  induction ss generalizing code s with
  | nil =>
      cases h
      rfl
  | cons st ss ih =>
      obtain ⟨first, rest, hfirst, hrest, rfl⟩ := Stmt.compileAll_cons_ok h
      rw [runCode_append, runCode_append, Stmt.runCode_next hfirst _ (firstOf rest next')]
      simp only [ih hrest]

/-! ## The frames around -/

lemma Effect.tail_frames {effect : Effect} {i : Instr} (hi : i.isLast = true)
    (h : i.Allows effect) (s : RunState) :
    (effect.apply s).frames.frames.tail = s.frames.frames.tail := by
  obtain ⟨stack, ⟨inner, root⟩, maxFrames, calls⟩ := s
  cases i with
  | bindType =>
      obtain ⟨name, t, rfl⟩ := h
      cases inner <;> rfl
  | store hasValue =>
      obtain ⟨name, v, rfl⟩ := h
      cases inner <;> rfl
  | call count =>
      obtain ⟨c, rfl⟩ := h
      rfl
  | _ => cases hi

/-- Whether code works in the innermost frame: the frames around it are the same behind it, and they
are still there, below what was opened since, when it fails. -/
def StaysInside (s : RunState) (r : RunState × Option RuntimeError) : Prop :=
  match r with
  | (t, none) => t.frames.frames.tail = s.frames.frames.tail
  | (t, some _) => s.frames.frames.tail <:+ t.frames.frames

/-- Whether code changes the frame it begins in only when all of it has been executed. -/
def ActsLast (s : RunState) (r : RunState × Option RuntimeError) : Prop :=
  match r with
  | (t, none) => t.frames.frames.tail = s.frames.frames.tail
  | (t, some _) => s.frames.frames <:+ t.frames.frames

lemma ActsLast.staysInside {s : RunState} {r : RunState × Option RuntimeError}
    (h : ActsLast s r) : StaysInside s r := by
  rcases r with ⟨t, _ | e⟩
  · exact h
  · exact (List.tail_suffix _).trans h

/-- Quiet code and one more instruction act last. -/
lemma Code.IsQuiet.actsLast {quiet : Code} (hquiet : quiet.IsQuiet) {i : Instr} {span : Span}
    (hlast : i.isLast = true) (next : Option Instr) (s : RunState) :
    ActsLast s (TypedConfig.runCode next (quiet ++ [(i, span)]) s) := by
  obtain ⟨stack, hstack⟩ := hquiet.runCode (firstOf [(i, span)] next) s
  rw [runCode_append]
  rcases hrun : TypedConfig.runCode (firstOf [(i, span)] next) quiet s with ⟨t, _ | e⟩
  · rw [hrun] at hstack
    obtain rfl : t = s.withStack stack := hstack
    dsimp only
    rw [TypedConfig.runCode]
    cases hexec : i.execute (firstOf [] next) span (s.withStack stack) with
    | error fault => exact List.suffix_rfl
    | ok r =>
        obtain ⟨stack', effect, hallows, -, ht⟩ := Instr.execute_ok hexec
        have htail := Effect.tail_frames hlast hallows ((s.withStack stack).withStack stack')
        rw [← ht] at htail
        exact htail
  · rw [hrun] at hstack
    obtain rfl : t = s.withStack stack := hstack
    exact List.suffix_rfl

/-- Closing a scope takes away the innermost frame. -/
lemma frames_of_closeScope {next : Option Instr} {span : Span} {s t : RunState}
    (h : Instr.closeScope.execute next span s = .ok ((), t)) :
    t.frames.frames = s.frames.frames.tail := by
  obtain ⟨stack, ⟨inner, root⟩, maxFrames, calls⟩ := s
  cases inner with
  | nil => cases h
  | cons f fs =>
      cases h
      rfl

/-- If code works inside the frame that is opened for it, then the scope acts last. -/
lemma StaysInside.scope (name : String) (bodySpan span : Span) {inner : Code}
    (h : ∀ s, StaysInside s (runCode (some .closeScope) inner s)) (next : Option Instr)
    (s : RunState) :
    match runCode next ((.pushName name, span) :: (.openScope, span) :: inner ++
      [(.closeScope, bodySpan)]) s with
    | (t, none) => t.frames.frames = s.frames.frames
    | (t, some _) => s.frames.frames <:+ t.frames.frames := by
  rw [List.cons_append, List.cons_append, runCode]
  cases hname : (Instr.pushName name).execute
    (firstOf ((Instr.openScope, span) :: (inner ++ [(Instr.closeScope, bodySpan)])) next)
    span s with
  | error fault => exact List.suffix_rfl
  | ok r =>
      obtain ⟨stack, _, rfl, -, hr⟩ := Instr.execute_ok hname
      replace hr : r.2 = s.withStack stack := hr
      dsimp only
      rw [runCode, hr]
      cases hopen : Instr.openScope.execute
        (firstOf (inner ++ [(Instr.closeScope, bodySpan)]) next) span (s.withStack stack) with
      | error fault => exact List.suffix_rfl
      | ok u =>
          obtain ⟨stack', _, ⟨name', span', rfl⟩, -, hu⟩ := Instr.execute_ok hopen
          have htail : u.2.frames.frames.tail = s.frames.frames := by rw [hu]; rfl
          have hinner := h u.2
          dsimp only
          rw [runCode_append, show firstOf [(Instr.closeScope, bodySpan)] next =
            some .closeScope from rfl]
          rcases hrun : runCode (some .closeScope) inner u.2 with ⟨t, _ | e⟩
          · rw [hrun] at hinner
            replace hinner : t.frames.frames.tail = u.2.frames.frames.tail := hinner
            rw [htail] at hinner
            dsimp only
            rw [runCode]
            cases hclose : Instr.closeScope.execute (firstOf [] next) bodySpan t with
            | error fault =>
                have hsuffix : s.frames.frames <:+ t.frames.frames := by
                  rw [← hinner]
                  exact List.tail_suffix _
                exact hsuffix
            | ok v => exact (frames_of_closeScope hclose).trans hinner
          · rw [hrun] at hinner
            replace hinner : u.2.frames.frames.tail <:+ t.frames.frames := hinner
            rw [htail] at hinner
            exact hinner

mutual

/-- A statement changes the frames around the innermost one never, and the innermost one only when
all of it has been executed. -/
lemma Stmt.actsLast (st : Stmt) {code : Code} (h : st.compile = .ok code) (next : Option Instr)
    (s : RunState) : ActsLast s (runCode next code s) := by
  match st, h with
  | .scope name body bodySpan span, h =>
      obtain ⟨inner, hinner, rfl⟩ := Stmt.compile_scope_ok h
      have hscope := StaysInside.scope name bodySpan span
        (Stmt.staysInside body hinner (some .closeScope)) next s
      split at hscope <;> rename_i hrun
      · rw [hrun]
        exact congrArg List.tail hscope
      · rw [hrun]
        exact hscope
  | .typedef .., h | .binding .., h | .effect .., h =>
      rcases Stmt.compile_cases h with
        ⟨quiet, i, span, rfl, hquiet, hlast⟩ | ⟨_, _, _, _, _, heq, -⟩
      · exact hquiet.actsLast hlast next s
      · cases heq

/-- Statements never change the frames around the innermost one. -/
lemma Stmt.staysInside (ss : List Stmt) {code : Code} (h : Stmt.compileAll ss = .ok code)
    (next : Option Instr) (s : RunState) : StaysInside s (runCode next code s) := by
  match ss, h with
  | [], h =>
      cases h
      rfl
  | st :: ss, h =>
      obtain ⟨first, rest, hfirst, hrest, rfl⟩ := Stmt.compileAll_cons_ok h
      have hst := Stmt.actsLast st hfirst (firstOf rest next) s
      rw [runCode_append]
      rcases hrun : runCode (firstOf rest next) first s with ⟨t, _ | e⟩
      · rw [hrun] at hst
        have hss := Stmt.staysInside ss hrest next t
        replace hst : t.frames.frames.tail = s.frames.frames.tail := hst
        dsimp only
        rcases hrest : runCode next rest t with ⟨u, _ | e⟩
        · rw [hrest] at hss
          exact hss.trans hst
        · rw [hrest] at hss
          replace hss : t.frames.frames.tail <:+ u.frames.frames := hss
          rw [hst] at hss
          exact hss
      · rw [hrun] at hst
        exact hst.staysInside

end

/-! ## The first statement that fails -/

/-- An error shows the place of an instruction of the code that failed. -/
lemma mem_of_runCode_failed {next : Option Instr} {code : Code} {s t : RunState}
    {e : RuntimeError} (h : runCode next code s = (t, some e)) : ∃ i, (i, e.span) ∈ code := by
  induction code generalizing s with
  | nil => cases h
  | cons p code ih =>
      obtain ⟨i, span⟩ := p
      rw [runCode] at h
      cases hexec : i.execute (firstOf code next) span s with
      | error fault =>
          rw [hexec] at h
          cases h
          exact ⟨i, List.mem_cons_self⟩
      | ok r =>
          rw [hexec] at h
          obtain ⟨j, hj⟩ := ih h
          exact ⟨j, List.mem_cons_of_mem _ hj⟩

/-- Calls are only ever added to the record. -/
lemma calls_prefix_runCode (next : Option Instr) (code : Code) (s : RunState) :
    s.calls <+: (runCode next code s).1.calls := by
  induction code generalizing s with
  | nil => exact List.prefix_rfl
  | cons p code ih =>
      obtain ⟨i, span⟩ := p
      rw [runCode]
      cases hexec : i.execute (firstOf code next) span s with
      | error fault => exact List.prefix_rfl
      | ok r =>
          obtain ⟨stack, effect, -, -, ht⟩ := Instr.execute_ok hexec
          have hstep : s.calls <+: r.2.calls := by
            rw [ht]
            cases effect with
            | call c => exact List.prefix_append s.calls [c]
            | _ => exact List.prefix_rfl
          exact hstep.trans (ih r.2)

lemma Stmt.compile_scope {body : List Stmt} {inner : Code} (h : Stmt.compileAll body = .ok inner)
    (name : String) (bodySpan span : Span) :
    (Stmt.scope name body bodySpan span).compile =
      .ok ((.pushName name, span) :: (.openScope, span) :: inner ++
        [(.closeScope, bodySpan)]) := by
  rw [Stmt.compile, h]
  rfl

lemma Stmt.compileAll_cons {st : Stmt} {ss : List Stmt} {first rest : Code}
    (hfirst : st.compile = .ok first) (hrest : Stmt.compileAll ss = .ok rest) :
    Stmt.compileAll (st :: ss) = .ok (first ++ rest) := by
  rw [Stmt.compileAll, hfirst, hrest]
  rfl

lemma Stmt.compileAll_append {ss ss' : List Stmt} {first rest : Code}
    (hfirst : Stmt.compileAll ss = .ok first) (hrest : Stmt.compileAll ss' = .ok rest) :
    Stmt.compileAll (ss ++ ss') = .ok (first ++ rest) := by
  induction ss generalizing first with
  | nil =>
      cases hfirst
      exact hrest
  | cons st ss ih =>
      obtain ⟨before, behind, hbefore, hbehind, rfl⟩ := Stmt.compileAll_cons_ok hfirst
      rw [List.append_assoc]
      exact Stmt.compileAll_cons hbefore (ih hbehind)

/-- Statements fail where one of them fails after those before it have been executed. -/
lemma Stmt.runCode_compileAll_failed {ss : List Stmt} {code : Code}
    (h : Stmt.compileAll ss = .ok code) {next : Option Instr} {s t : RunState} {e : RuntimeError}
    (hrun : runCode next code s = (t, some e)) :
    ∃ pre st post before first after u, ss = pre ++ st :: post ∧
      Stmt.compileAll pre = .ok before ∧ st.compile = .ok first ∧
      code = before ++ (first ++ after) ∧
      runCode none before s = (u, none) ∧ runCode (firstOf after next) first u = (t, some e) := by
  induction ss generalizing code s with
  | nil =>
      cases h
      cases hrun
  | cons st ss ih =>
      obtain ⟨first, rest, hfirst, hrest, rfl⟩ := Stmt.compileAll_cons_ok h
      rw [runCode_append] at hrun
      rcases hst : runCode (firstOf rest next) first s with ⟨u, _ | e'⟩
      · rw [hst] at hrun
        obtain ⟨pre, st', post, before, first', after, v, rfl, hpre, hst', rfl, hbefore, hfails⟩ :=
          ih hrest hrun
        refine ⟨st :: pre, st', post, first ++ before, first', after, v, rfl, ?_, hst', ?_, ?_,
          hfails⟩
        · exact Stmt.compileAll_cons hfirst hpre
        · rw [List.append_assoc]
        · have hnext := Stmt.runCode_next hfirst (firstOf before none)
            (firstOf (before ++ (first' ++ after)) next) s
          rw [runCode_append, hnext, hst]
          exact hbefore
      · rw [hst] at hrun
        cases hrun
        exact ⟨[], st, ss, [], first, rest, s, rfl, rfl, hfirst, rfl, rfl, hst⟩

end TypedConfig
