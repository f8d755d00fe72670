import TypedConfig.Proofs.Reachability

/-!
# What lies on the stack while a program runs

Which kinds of cells lie on the stack at a place in the code does not depend on the run.  A `Layout`
says what they are, how many scopes are open and which names have been given to shapes so far.

**Slots.** An object under construction and its type are two cells but one slot.  Nothing takes them
apart, and the instructions that look for a type below an object find it.

**One rule for each case.** `Instr.Moves` says how an instruction changes the layout.  An
instruction with a rule for what it finds cannot miss a cell.  The code of an accepted program has a
rule at every place (`Block.moves_of_compile`), and what a node leaves on the stack is what its
lemma says.
-/

namespace TypedConfig

/-- What lies on the stack, as far as the place in the code tells. -/
inductive Slot where
  | name (n : String)
  | type
  | value
  /-- An object that still gets fields, on top of its type. -/
  | building
  /-- An object with all its fields, on top of its type. -/
  | built
  | field
  | shape
  | method
deriving DecidableEq, Repr

/-- The slots that can be popped as a value. -/
inductive Slot.Operand : Slot → Prop
  | value : Operand .value
  | built : Operand .built

/-- The slots with the topmost first, the number of open scopes, and the names given to shapes, in
order. -/
structure Layout where
  slots : List Slot := []
  depth : Nat := 0
  defined : List String := []
deriving DecidableEq, Repr

/-- How an instruction changes the layout, given the instruction behind it. -/
inductive Instr.Moves (next : Option Instr) : Instr → Layout → Layout → Prop
  | pushName (n : String) (ss : List Slot) (d : Nat) (ns : List String) :
      Moves next (.pushName n) ⟨ss, d, ns⟩ ⟨.name n :: ss, d, ns⟩
  | pushLiteral (l : Literal) (ss : List Slot) (d : Nat) (ns : List String) :
      Moves next (.pushLiteral l) ⟨ss, d, ns⟩ ⟨.value :: ss, d, ns⟩
  | loadValue (n : String) (ss : List Slot) (d : Nat) (ns : List String) :
      Moves next .loadValue ⟨.name n :: ss, d, ns⟩ ⟨.value :: ss, d, ns⟩
  | resolveType (ref : TypeRef) (isArray isOptional : Bool) (n : String) (ss : List Slot) (d : Nat)
      (ns : List String) :
      Moves next (.resolveType ref isArray isOptional) ⟨.name n :: ss, d, ns⟩ ⟨.type :: ss, d, ns⟩
  | makeField (n : String) (ss : List Slot) (d : Nat) (ns : List String) :
      Moves next (.makeField n) ⟨.type :: ss, d, ns⟩ ⟨.field :: ss, d, ns⟩
  | makeShape (count : Nat) (ss : List Slot) (d : Nat) (ns : List String) :
      Moves next (.makeShape count) ⟨List.replicate count .field ++ ss, d, ns⟩
        ⟨.shape :: ss, d, ns⟩
  | bindShape (n : String) (ss : List Slot) (d : Nat) (ns : List String) :
      Moves next .bindType ⟨.name n :: .shape :: ss, d, ns⟩ ⟨ss, d, ns ++ [n]⟩
  | bindType (n : String) (ss : List Slot) (d : Nat) (ns : List String) :
      Moves next .bindType ⟨.name n :: .type :: ss, d, ns⟩ ⟨ss, d, ns⟩
  | storeValue (n : String) {o : Slot} (ho : o.Operand) (ss : List Slot) (d : Nat)
      (ns : List String) :
      Moves next (.store true) ⟨.name n :: o :: .type :: ss, d, ns⟩ ⟨ss, d, ns⟩
  | storeDefault (n : String) (ss : List Slot) (d : Nat) (ns : List String) :
      Moves next (.store false) ⟨.name n :: .type :: ss, d, ns⟩ ⟨ss, d, ns⟩
  | newObject (ss : List Slot) (d : Nat) (ns : List String) :
      Moves next .newObject ⟨.type :: ss, d, ns⟩ ⟨.building :: .type :: ss, d, ns⟩
  | newField (n : String) (ss : List Slot) (d : Nat) (ns : List String) :
      Moves next .newObject ⟨.name n :: .building :: ss, d, ns⟩
        ⟨.building :: .name n :: .building :: ss, d, ns⟩
  | setField (n : String) {o : Slot} (ho : o.Operand) (ss : List Slot) (d : Nat)
      (ns : List String) :
      Moves next .setField ⟨o :: .name n :: .building :: ss, d, ns⟩ ⟨.building :: ss, d, ns⟩
  | sealObject (ss : List Slot) (d : Nat) (ns : List String) :
      Moves next .sealObject ⟨.building :: ss, d, ns⟩ ⟨.built :: ss, d, ns⟩
  | loadMember (hnext : Step.isCall next = false) (n : String) (ss : List Slot) (d : Nat)
      (ns : List String) :
      Moves next .loadMember ⟨.name n :: .value :: ss, d, ns⟩ ⟨.value :: ss, d, ns⟩
  | loadMethod (hnext : Step.isCall next = true) (n : String) (ss : List Slot) (d : Nat)
      (ns : List String) :
      Moves next .loadMember ⟨.name n :: .value :: ss, d, ns⟩ ⟨.method :: ss, d, ns⟩
  | callValue (count : Nat) (ss : List Slot) (d : Nat) (ns : List String) :
      Moves next (.call count) ⟨.value :: (List.replicate count .value ++ ss), d, ns⟩ ⟨ss, d, ns⟩
  | callMethod (count : Nat) (ss : List Slot) (d : Nat) (ns : List String) :
      Moves next (.call count) ⟨.method :: (List.replicate count .value ++ ss), d, ns⟩ ⟨ss, d, ns⟩
  | openScope (n : String) (ss : List Slot) (d : Nat) (ns : List String) :
      Moves next .openScope ⟨.name n :: ss, d, ns⟩ ⟨ss, d + 1, ns⟩
  | closeScope (ss : List Slot) (d : Nat) (ns : List String) :
      Moves next .closeScope ⟨ss, d + 1, ns⟩ ⟨ss, d, ns⟩

/-- How a piece of code changes the layout, given the instruction behind it. -/
inductive Code.Moves (next : Option Instr) : Code → Layout → Layout → Prop
  | nil (l : Layout) : Moves next [] l l
  | cons {i : Instr} {span : Span} {rest : Code} {l m r : Layout}
      (hi : i.Moves (firstOf rest next) l m) (hrest : Moves next rest m r) :
      Moves next ((i, span) :: rest) l r

namespace Code.Moves

variable {next : Option Instr} {first rest : Code} {l m r : Layout}

lemma append (h : Moves (firstOf rest next) first l m) (hrest : Moves next rest m r) :
    Moves next (first ++ rest) l r := by
  induction h with
  | nil => exact hrest
  | @cons i span code l m m' hi hcode ih =>
      rw [List.cons_append]
      refine cons ?_ (ih hrest)
      rwa [firstOf_append]

/-- There is a layout between two pieces of code. -/
lemma split (h : Moves next (first ++ rest) l r) :
    ∃ m, Moves (firstOf rest next) first l m ∧ Moves next rest m r := by
  induction first generalizing l with
  | nil => exact ⟨l, nil l, h⟩
  | cons p first ih =>
      obtain ⟨i, span⟩ := p
      rw [List.cons_append] at h
      cases h with
      | cons hi hcode =>
          obtain ⟨m, hfirst, hrest⟩ := ih hcode
          rw [firstOf_append] at hi
          exact ⟨m, cons hi hfirst, hrest⟩

/-- A last instruction is added to a piece of code. -/
lemma concat {i : Instr} {span : Span} (h : Moves (some i) first l m)
    (hi : i.Moves next m r) : Moves next (first ++ [(i, span)]) l r :=
  append h (cons hi (nil r))

end Code.Moves

/-- Names are only ever added. -/
lemma Instr.Moves.defined_prefix {i : Instr} {next : Option Instr} {l r : Layout}
    (h : i.Moves next l r) : l.defined <+: r.defined := by
  cases h with
  | bindShape n ss d ns => exact List.prefix_append ns [n]
  | _ => exact List.prefix_rfl

lemma Code.Moves.defined_prefix {code : Code} {next : Option Instr} {l r : Layout}
    (h : Code.Moves next code l r) : l.defined <+: r.defined := by
  induction h with
  | nil => exact List.prefix_rfl
  | cons hi _ ih => exact hi.defined_prefix.trans ih

/-! ## Types -/

section

variable {next : Option Instr} {code : Code}

lemma TypeExpr.moves_of_compile {t : TypeExpr} (h : t.compile = .ok code) (ss : List Slot)
    (d : Nat) (ns : List String) : Code.Moves next code ⟨ss, d, ns⟩ ⟨.type :: ss, d, ns⟩ := by
  obtain rfl := compile_ok h
  exact .cons (.pushName t.name ss d ns) (.cons (.resolveType _ _ _ t.name ss d ns) (.nil _))

lemma FieldDecl.moves_of_compileAll {fs : List FieldDecl} (h : compileAll fs = .ok code)
    (ss : List Slot) (d : Nat) (ns : List String) :
    Code.Moves next code ⟨ss, d, ns⟩ ⟨List.replicate fs.length .field ++ ss, d, ns⟩ := by
  induction fs generalizing code ss with
  | nil =>
      cases h
      exact .nil _
  | cons f fs ih =>
      obtain ⟨type, rest, htype, hrest, rfl⟩ := compileAll_cons_ok h
      refine (f.type.moves_of_compile htype ss d ns).append (.cons (.makeField f.name ss d ns) ?_)
      rw [List.length_cons, List.replicate_succ', List.append_assoc]
      exact ih hrest (.field :: ss)

/-- A type definition and the instructions behind it bind the name; what the name is bound to is a
new object type if the definition is a shape. -/
lemma TypeExpr.moves_of_compileDefinition {t : TypeExpr} (h : t.compileDefinition = .ok code)
    (name : String) (span : Span) (ss : List Slot) (d : Nat) (ns : List String) :
    Code.Moves next (code ++ [(.pushName name, span), (.bindType, span)]) ⟨ss, d, ns⟩
      ⟨ss, d, ns ++ if t.isObject then [name] else []⟩ := by
  rcases compileDefinition_ok h with ⟨hobject, htype⟩ | ⟨hobject, fields, hfields, rfl⟩
  · rw [hobject, if_neg Bool.false_ne_true, List.append_nil]
    refine (t.moves_of_compile htype ss d ns).append ?_
    exact .cons (.pushName name _ d ns) (.cons (.bindType name ss d ns) (.nil _))
  · rw [hobject, if_pos rfl, List.append_assoc]
    refine (FieldDecl.moves_of_compileAll hfields ss d ns).append ?_
    refine .cons (.makeShape t.fields.length ss d ns) ?_
    exact .cons (.pushName name _ d ns) (.cons (.bindShape name ss d ns) (.nil _))

/-! ## Values and calls -/

lemma Expr.moves_of_path {e : Expr} {next : Option Instr} {code : Code}
    (h : e.compile false = .ok code)
    (hnext : Step.isCall next = false) (ss : List Slot) (d : Nat) (ns : List String) :
    Code.Moves next code ⟨ss, d, ns⟩ ⟨.value :: ss, d, ns⟩ := by
  match e, h with
  | .name n span, h =>
      cases h
      exact .cons (.pushName n ss d ns) (.cons (.loadValue n ss d ns) (.nil _))
  | .literal l span, h =>
      cases h
      exact .cons (.pushLiteral l ss d ns) (.nil _)
  | .member value n span, h =>
      obtain ⟨receiver, hreceiver, rfl⟩ := compile_member_ok h
      refine (moves_of_path hreceiver rfl ss d ns).append ?_
      exact .cons (.pushName n _ d ns) (.cons (.loadMember hnext n ss d ns) (.nil _))

/-- The slots on which a new object may begin. -/
inductive Slot.Awaiting : List Slot → Prop
  | type (ss : List Slot) : Awaiting (.type :: ss)
  | field (n : String) (ss : List Slot) : Awaiting (.name n :: .building :: ss)

mutual

lemma Expr.moves_of_compile (e : Expr) {next : Option Instr} {code : Code}
    (h : e.compile true = .ok code) (hnext : Step.isCall next = false) {ss : List Slot}
    (hss : Slot.Awaiting ss) (d : Nat) (ns : List String) :
    ∃ o : Slot, o.Operand ∧ Code.Moves next code ⟨ss, d, ns⟩ ⟨o :: ss, d, ns⟩ := by
  match e, h with
  | .object fields span, h =>
      obtain ⟨-, inits, hinits, rfl⟩ := Expr.compile_object_ok h
      have hfields : Code.Moves (some .sealObject) inits _ _ :=
        FieldInit.moves_of_compileAll fields hinits ss d ns
      have hseal : Code.Moves next (inits ++ [(.sealObject, span)]) _ _ :=
        hfields.concat (.sealObject ss d ns)
      refine ⟨.built, .built, ?_⟩
      cases hss with
      | type ss => exact .cons (.newObject ss d ns) hseal
      | field n ss => exact .cons (.newField n ss d ns) hseal
  | .name n span, h =>
      exact ⟨.value, .value, Expr.moves_of_path (e := .name n span) h hnext ss d ns⟩
  | .literal l span, h =>
      exact ⟨.value, .value, Expr.moves_of_path (e := .literal l span) h hnext ss d ns⟩
  | .member value n span, h =>
      refine ⟨.value, .value, Expr.moves_of_path (e := .member value n span) ?_ hnext ss d ns⟩
      rwa [Expr.compile] at h ⊢
  | .call _ _ _, h => cases h

lemma FieldInit.moves_of_compileAll (fs : List FieldInit) {next : Option Instr} {code : Code}
    (h : FieldInit.compileAll fs = .ok code) (ss : List Slot) (d : Nat) (ns : List String) :
    Code.Moves next code ⟨.building :: ss, d, ns⟩ ⟨.building :: ss, d, ns⟩ := by
  match fs, h with
  | [], h =>
      cases h
      exact .nil _
  | ⟨name, value, span⟩ :: fs, h =>
      obtain ⟨init, rest, hinit, hrest, rfl⟩ := FieldInit.compileAll_cons_ok h
      have hset : Step.isCall (firstOf ((.setField, span) :: rest) next) = false := rfl
      obtain ⟨o, ho, hvalue⟩ := value.moves_of_compile hinit hset (.field name ss) d ns
      rw [List.append_assoc, List.cons_append]
      refine .cons (.pushName name _ d ns) (hvalue.append (.cons (.setField name ho ss d ns) ?_))
      exact FieldInit.moves_of_compileAll fs hrest ss d ns

end

lemma Expr.moves_of_compileArguments {es : List Expr} (h : compileArguments es = .ok code)
    (hnext : Step.isCall next = false) (ss : List Slot) (d : Nat) (ns : List String) :
    Code.Moves next code ⟨ss, d, ns⟩ ⟨List.replicate es.length .value ++ ss, d, ns⟩ := by
  induction es generalizing code ss with
  | nil =>
      cases h
      exact .nil _
  | cons e es ih =>
      obtain ⟨argument, rest, hargument, hrest, rfl⟩ := compileArguments_cons_ok h
      refine (moves_of_path hargument (firstOf_compileArguments hrest hnext) ss d ns).append ?_
      rw [List.length_cons, List.replicate_succ', List.append_assoc]
      exact ih hrest (.value :: ss)

/-- What is called lies on top of the arguments, as a value or as a method. -/
lemma Expr.moves_of_callee {callee : Expr} (h : callee.compile false = .ok code) (count : Nat)
    (span : Span) (ss : List Slot) (d : Nat) (ns : List String) :
    Code.Moves next (code ++ [(.call count, span)])
      ⟨List.replicate count .value ++ ss, d, ns⟩ ⟨ss, d, ns⟩ := by
  match callee, h with
  | .name n nameSpan, h =>
      cases h
      exact .cons (.pushName n _ d ns) (.cons (.loadValue n _ d ns)
        (.cons (.callValue count ss d ns) (.nil _)))
  | .literal l literalSpan, h =>
      cases h
      exact .cons (.pushLiteral l _ d ns) (.cons (.callValue count ss d ns) (.nil _))
  | .member value n memberSpan, h =>
      obtain ⟨receiver, hreceiver, rfl⟩ := compile_member_ok h
      rw [List.append_assoc]
      refine (moves_of_path hreceiver rfl _ d ns).append ?_
      exact .cons (.pushName n _ d ns) (.cons (.loadMethod rfl n _ d ns)
        (.cons (.callMethod count ss d ns) (.nil _)))

end

/-! ## Statements -/

mutual

/-- The names that a statement gives to shapes, those in the body of a scope included. -/
def Stmt.objectNames : Stmt → List String
  | .scope _ body _ _ => objectNamesAll body
  | .typedef name type _ => if type.isObject then [name] else []
  | .binding .. => []
  | .effect .. => []

/-- The names that statements give to shapes, in order. -/
def Stmt.objectNamesAll : List Stmt → List String
  | [] => []
  | s :: ss => s.objectNames ++ objectNamesAll ss

end

mutual

lemma Stmt.moves_of_compile (st : Stmt) {next : Option Instr} {code : Code}
    (h : st.compile = .ok code) (ss : List Slot) (d : Nat) (ns : List String) :
    Code.Moves next code ⟨ss, d, ns⟩ ⟨ss, d, ns ++ st.objectNames⟩ := by
  match st, h with
  | .scope name body bodySpan span, h =>
      obtain ⟨inner, hinner, rfl⟩ := Stmt.compile_scope_ok h
      have hbody : Code.Moves (some .closeScope) inner _ _ :=
        Stmt.moves_of_compileAll body hinner ss (d + 1) ns
      have hclose : Code.Moves next (inner ++ [(.closeScope, bodySpan)]) _ _ :=
        hbody.concat (.closeScope ss d _)
      rw [Stmt.objectNames]
      exact .cons (.pushName name ss d ns) (.cons (.openScope name ss d ns) hclose)
  | .typedef name type span, h =>
      obtain ⟨definition, hdefinition, rfl⟩ := Stmt.compile_typedef_ok h
      rw [Stmt.objectNames]
      exact type.moves_of_compileDefinition hdefinition name span ss d ns
  | .binding name type value span, h =>
      obtain ⟨declared, bound, hdeclared, hbound, rfl⟩ := Stmt.compile_binding_ok h
      rw [Stmt.objectNames, List.append_nil, List.append_assoc]
      refine (type.moves_of_compile hdeclared ss d ns).append ?_
      cases value with
      | none =>
          cases hbound
          exact .cons (.pushName name _ d ns) (.cons (.storeDefault name ss d ns) (.nil _))
      | some e =>
          have hstore : Step.isCall (firstOf [(.pushName name, span), (.store true, span)] next) =
            false := rfl
          obtain ⟨o, ho, hvalue⟩ := e.moves_of_compile hbound hstore (.type ss) d ns
          refine hvalue.append ?_
          exact .cons (.pushName name _ d ns) (.cons (.storeValue name ho ss d ns) (.nil _))
  | .effect e span, h =>
      obtain ⟨callee, arguments, callSpan, operands, target, rfl, hoperands, htarget, rfl⟩ :=
        Stmt.compile_effect_ok h
      rw [Stmt.objectNames, List.append_nil, List.append_assoc]
      have hfirst := Expr.firstOf_compile htarget [(.call arguments.length, callSpan)] next
      refine (Expr.moves_of_compileArguments hoperands hfirst ss d ns).append ?_
      exact Expr.moves_of_callee htarget arguments.length callSpan ss d ns

lemma Stmt.moves_of_compileAll (ss : List Stmt) {next : Option Instr} {code : Code}
    (h : Stmt.compileAll ss = .ok code) (slots : List Slot) (d : Nat) (ns : List String) :
    Code.Moves next code ⟨slots, d, ns⟩ ⟨slots, d, ns ++ Stmt.objectNamesAll ss⟩ := by
  match ss, h with
  | [], h =>
      cases h
      rw [Stmt.objectNamesAll, List.append_nil]
      exact .nil _
  | st :: ss, h =>
      obtain ⟨first, rest, hfirst, hrest, rfl⟩ := Stmt.compileAll_cons_ok h
      rw [Stmt.objectNamesAll, ← List.append_assoc]
      refine (st.moves_of_compile hfirst slots d ns).append ?_
      exact Stmt.moves_of_compileAll ss hrest slots d _

end

/-- The names that a program gives to shapes. -/
def Block.objectNames (b : Block) : List String := Stmt.objectNamesAll b.statements

/-- The code of an accepted program has a rule at every place.  It begins and ends with nothing on
the stack and no scope open. -/
theorem Block.moves_of_compile {b : Block} {c : Chunk} (h : b.compile = .ok c) :
    Code.Moves none c.located {} { defined := b.objectNames } := by
  obtain ⟨code, hcode, hlocated⟩ := compile_ok h
  rw [hlocated]
  exact Stmt.moves_of_compileAll b.statements hcode [] 0 []

end TypedConfig
