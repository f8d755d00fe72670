import TypedConfig.Code.Instr
import TypedConfig.Tree.Basic

/-!
# Compiling a program

Compiling is one walk over the tree.  Names and types are not looked up: whether they exist is for
the machine to say.

**What each construct leaves on the stack.** A statement leaves nothing, a type leaves one type and
a value leaves one value.  The declared type of a binding stays below the value, where a new object
finds it; a field of a new object leaves its name below the value for the same reason.

**Where a new object may stand.** Only where a type is waiting for it.  `typed` says whether one is.
-/

namespace TypedConfig

/-- Why a tree cannot be compiled. -/
inductive CompileFault where
  | effectIsNoCall
  | objectOutsideTypedef
  | optionalObject
  | untypedObject
  | callAsValue
  | other (message : String)
deriving DecidableEq, Repr

/-- The words for a fault. -/
def CompileFault.text : CompileFault → String
  | .effectIsNoCall => "Only calls can be used as statements"
  | .objectOutsideTypedef => "'object' can only be used as the type of a typedef"
  | .optionalObject => "'object' types cannot be optional"
  | .untypedObject => "An initializer needs a declared type"
  | .callAsValue => "Calls have no result and cannot be used as values"
  | .other message => message

/-- The node that cannot be compiled, and why. -/
abbrev CompileError := Located CompileFault

/-- Instructions with their spans. -/
abbrev Code := List (Instr × Span)

/-! ## Types -/

/-- A type in a binding or a field, where a shape cannot stand. -/
def TypeExpr.compile (t : TypeExpr) : Except CompileError Code :=
  if t.isObject then throw ⟨.objectOutsideTypedef, t.span⟩
  else return [(.pushName t.name, t.span),
    (.resolveType (.ofName t.name) t.isArray t.isOptional, t.span)]

/-- The fields of a shape. -/
def FieldDecl.compileAll : List FieldDecl → Except CompileError Code
  | [] => return []
  | f :: fs => do
    let type ← f.type.compile
    let rest ← compileAll fs
    return type ++ (.makeField f.name, f.span) :: rest

/-- The type of a type definition: a shape or any other type. -/
def TypeExpr.compileDefinition (t : TypeExpr) : Except CompileError Code :=
  if !t.isObject then t.compile
  else if t.isArray then throw ⟨.objectOutsideTypedef, t.span⟩
  else if t.isOptional then throw ⟨.optionalObject, t.span⟩
  else do
    let fields ← FieldDecl.compileAll t.fields
    return fields ++ [(.makeShape t.fields.length, t.span)]

/-! ## Values -/

mutual

/-- A value. -/
def Expr.compile (typed : Bool) : Expr → Except CompileError Code
  | .name name s => return [(.pushName name, s), (.loadValue, s)]
  | .literal l s => return [(.pushLiteral l, s)]
  | .member value name s => do
    let value ← value.compile false
    return value ++ [(.pushName name, s), (.loadMember, s)]
  | .object fields s =>
    if typed then do
      let fields ← FieldInit.compileAll fields
      return (.newObject, s) :: fields ++ [(.sealObject, s)]
    else throw ⟨.untypedObject, s⟩
  | .call _ _ s => throw ⟨.callAsValue, s⟩

/-- A field of a new object. -/
def FieldInit.compile : FieldInit → Except CompileError Code
  | ⟨name, value, s⟩ => do
    let value ← value.compile true
    return (.pushName name, s) :: value ++ [(.setField, s)]

/-- The fields of a new object. -/
def FieldInit.compileAll : List FieldInit → Except CompileError Code
  | [] => return []
  | f :: fs => do
    let field ← f.compile
    let rest ← FieldInit.compileAll fs
    return field ++ rest

end

/-- The arguments of a call. -/
def Expr.compileArguments : List Expr → Except CompileError Code
  | [] => return []
  | e :: es => do
    let argument ← e.compile false
    let rest ← compileArguments es
    return argument ++ rest

/-! ## Statements -/

/-- The value of a binding, if it has one. -/
def Expr.compileBound : Option Expr → Except CompileError Code
  | none => return []
  | some e => e.compile true

mutual

/-- A statement. -/
def Stmt.compile : Stmt → Except CompileError Code
  | .scope name body bodySpan s => do
    let body ← compileAll body
    return (.pushName name, s) :: (.openScope, s) :: body ++ [(.closeScope, bodySpan)]
  | .typedef name type s => do
    let type ← type.compileDefinition
    return type ++ [(.pushName name, s), (.bindType, s)]
  | .binding name type value s => do
    let type ← type.compile
    let bound ← Expr.compileBound value
    return type ++ bound ++ [(.pushName name, s), (.store value.isSome, s)]
  | .effect (.call callee arguments s) _ => do
    let arguments' ← Expr.compileArguments arguments
    let callee ← callee.compile false
    return arguments' ++ callee ++ [(.call arguments.length, s)]
  | .effect e _ => throw ⟨.effectIsNoCall, e.span⟩

/-- Statements, one after the other. -/
def Stmt.compileAll : List Stmt → Except CompileError Code
  | [] => return []
  | s :: ss => do
    let first ← s.compile
    let rest ← compileAll ss
    return first ++ rest

end

/-- A program. -/
def Block.compile (b : Block) : Except CompileError Chunk :=
  Chunk.ofPairs <$> Stmt.compileAll b.statements

/-- A compiled program has a span for every instruction. -/
theorem Block.length_spans_of_compile {b : Block} {c : Chunk} (h : b.compile = .ok c) :
    c.spans.length = c.code.length := by
  unfold compile at h
  cases hs : Stmt.compileAll b.statements with
  | error e =>
    rw [hs] at h
    cases h
  | ok ps =>
    rw [hs] at h
    cases h
    simp [Chunk.ofPairs]

end TypedConfig
