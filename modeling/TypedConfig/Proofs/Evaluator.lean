import TypedConfig.Proofs.Reachability

/-!
# Evaluating a program directly

What a program means can be said without instructions and without a data stack.  The evaluator below
walks over the tree and keeps the open scopes and the calls made, nothing else.

**Values.** A path is looked up, the innermost scope first.  A new object is evaluated against a
schema: the declared type of the binding it is for, or the type of the field it is for
(`Expr.evalAs`).  Its fields are added one by one, and then it must have all the fields it needs.

**Calls.** The arguments come first, from left to right, and then what is called.  The member `m` of
a value of type `T` stands for what is bound to `T_m`, called with the value first.

**Trees that mean nothing.** Some trees are never accepted: a new object as an argument, a call as a
value, a value as a statement.  The evaluator gives an internal fault for them, so that it is a
function on all trees.
-/

namespace TypedConfig

/-- A fault becomes an error once it is known where in the text it belongs. -/
def located {α : Type} (span : Span) (x : Except RuntimeFault α) : Except RuntimeError α :=
  x.mapError fun fault => ⟨fault, span⟩

@[simp] lemma located_ok {α : Type} (span : Span) (a : α) :
    located span (.ok a : Except RuntimeFault α) = .ok a := rfl

/-! ## Types -/

/-- The type that a written type refers to. -/
def TypeExpr.eval (s : Scopes) (t : TypeExpr) : Except RuntimeError DataType :=
  located t.span (Step.resolvedType s.type? (.ofName t.name) t.name t.isArray t.isOptional)

/-- The fields of a shape. -/
def FieldDecl.evalAll (s : Scopes) : List FieldDecl → Except RuntimeError Shape
  | [] => return []
  | f :: fs => do
    let t ← f.type.eval s
    let rest ← evalAll s fs
    return (f.name, t) :: rest

/-- The type that a type definition binds to a name: a new object type for a shape, or the type
itself. -/
def TypeExpr.evalDefinition (s : Scopes) (name : String) (t : TypeExpr) :
    Except RuntimeError DataType :=
  if !t.isObject then t.eval s
  else do
    let shape ← FieldDecl.evalAll s t.fields
    match Step.firstRepeated [] (shape.map (·.1)) with
    | some n => throw ⟨.duplicateField n, t.span⟩
    | none => return .object name shape

/-! ## Values -/

/-- The value of a name, a literal or a member of such a value. -/
def Expr.evalPath (s : Scopes) : Expr → Except RuntimeError Value
  | .name n span =>
    match s.value? n with
    | some v => return v
    | none => throw ⟨.nameNotFound n, span⟩
  | .literal l _ => return .ofLiteral l
  | .member value n span => do
    let receiver ← value.evalPath s
    located span (Step.member receiver n)
  | .object _ span | .call _ _ span => throw ⟨.internal "not a path", span⟩

mutual

/-- The value of an expression where a value of the type `schema` is wanted.  Only a new object
looks at the schema. -/
def Expr.evalAs (s : Scopes) (schema : Except RuntimeFault DataType) :
    Expr → Except RuntimeError Value
  | .object fields span => do
    let t ← located span schema
    if !t.isObject then throw ⟨.typeMismatch t.fullName "object", span⟩
    let given ← FieldInit.evalAll s t [] fields
    located span (Step.checkSealed t given)
    return .object t given
  | e => e.evalPath s

/-- The fields of an object of type `t`, the given ones in front. -/
def FieldInit.evalAll (s : Scopes) (t : DataType) (given : Bindings Value) :
    List FieldInit → Except RuntimeError (Bindings Value)
  | [] => return given
  | ⟨name, value, span⟩ :: fs => do
    let v ← value.evalAs s (Step.fieldType t name)
    let given ← located span (Step.addField t given name v)
    FieldInit.evalAll s t given fs

end

/-- The value that a binding binds. -/
def Expr.evalBound (s : Scopes) (name : String) (declared : DataType) (span : Span) :
    Option Expr → Except RuntimeError Value
  | some e => do
    let v ← e.evalAs s (.ok declared)
    located span (Step.assign name declared v)
  | none => located span (Step.defaultFor name declared)

/-! ## Calls -/

/-- The values of arguments. -/
def Expr.evalArguments (s : Scopes) : List Expr → Except RuntimeError (List Value)
  | [] => return []
  | e :: es => do
    let v ← e.evalPath s
    let rest ← evalArguments s es
    return v :: rest

/-- What is called, and the receiver if a method is. -/
def Expr.evalCallee (s : Scopes) (callSpan : Span) :
    Expr → Except RuntimeError (Value × List Value)
  | .name n span =>
    match s.value? n with
    | some v => return (v, [])
    | none => throw ⟨.functionNotFound n, span⟩
  | .member value n _ => do
    let receiver ← value.evalPath s
    match s.value? (receiver.type.name ++ "_" ++ n) with
    | some v => return (v, [receiver])
    | none => throw ⟨.functionNotFound (receiver.type.name ++ "_" ++ n), callSpan⟩
  | e => do
    let v ← e.evalPath s
    return (v, [])

/-- The call of a value with arguments. -/
def Value.toCall (span : Span) (v : Value) (arguments : List Value) : Except RuntimeError Call :=
  match v.payload with
  | .function f => return ⟨f, arguments⟩
  | _ => throw ⟨.notCallable v.type.fullName, span⟩

/-- The call of a host function. -/
def Expr.evalCall (s : Scopes) (callee : Expr) (arguments : List Expr) (span : Span) :
    Except RuntimeError Call := do
  let values ← evalArguments s arguments
  let (v, receiver) ← callee.evalCallee s span
  v.toCall span (receiver ++ values)

/-! ## Statements -/

/-- What an evaluation keeps: the open scopes, and the calls made so far. -/
structure World where
  scopes : Scopes
  calls : List Call := []

/-- The world after a computation that may fail, which changes it only if it does not. -/
def World.andThen {α : Type} (w : World) (x : Except RuntimeError α) (f : α → World) :
    World × Option RuntimeError :=
  match x with
  | .ok a => (f a, none)
  | .error e => (w, some e)

/-- Goes on from where an evaluation has come to, unless an error has stopped it. -/
def World.resume (r : World × Option RuntimeError)
    (f : World → World × Option RuntimeError) : World × Option RuntimeError :=
  match r with
  | (w, none) => f w
  | (w, some e) => (w, some e)

mutual

/-- What a statement does to the world.  With an error comes the world as it is when the error
occurs. -/
def Stmt.eval : Stmt → World → World × Option RuntimeError
  | .scope _ body _ _, w =>
    World.resume (evalAll body { w with scopes := w.scopes.opened }) fun w =>
      ({ w with scopes := w.scopes.closed }, none)
  | .typedef name type _, w =>
    w.andThen (type.evalDefinition w.scopes name) fun t =>
      { w with scopes := w.scopes.bindType name t }
  | .binding name type value span, w =>
    let bound := do
      let declared ← type.eval w.scopes
      Expr.evalBound w.scopes name declared span value
    w.andThen bound fun v => { w with scopes := w.scopes.bind name v.mutable }
  | .effect (.call callee arguments span) _, w =>
    w.andThen (Expr.evalCall w.scopes callee arguments span) fun c =>
      { w with calls := w.calls ++ [c] }
  | .effect _ span, w => (w, some ⟨.internal "not a call", span⟩)

/-- What statements do to the world, one after the other, up to the first error. -/
def Stmt.evalAll : List Stmt → World → World × Option RuntimeError
  | [], w => (w, none)
  | s :: ss, w => World.resume (s.eval w) fun w => evalAll ss w

end

/-- The world when a program begins: a root scope that binds what the host has bound. -/
def World.initial (host : List HostBinding) : World :=
  { scopes := { root := { values := Bindings.setAll [] (host.map (·.entry)) } } }

/-- The outcome of a program. -/
def Block.evaluate (b : Block) (host : List HostBinding) : Outcome :=
  let (w, failure) := Stmt.evalAll b.statements (.initial host)
  ⟨failure, w.scopes.root.values, w.scopes.root.types, w.calls⟩

end TypedConfig
