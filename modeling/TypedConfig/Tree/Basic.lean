import TypedConfig.Literal
import TypedConfig.Span

/-!
# The tree of a program

A program is a list of statements: type definitions, bindings, named scopes that hold further
statements, and calls made for their effect.

**Only paths are called and only literals, paths and `new` are values,** but the types below allow
more than the text can say, such as a call as an argument: a tree may also be built by hand, and
whether it makes sense is then for the compiler to say.

**Spans.** Every node carries the part of the text it was read from.  No function on trees looks at
a span except to pass it on.
-/

namespace TypedConfig

/-- The name that introduces a shape instead of referring to a type. -/
def objectName : String := "object"

mutual

/-- A type as it is written: `int`, `[]User`, `string?`, or `object` with the fields of a shape. -/
structure TypeExpr where
  name : String
  isArray : Bool
  isOptional : Bool
  fields : List FieldDecl
  span : Span

/-- A field of a shape: `name: type`. -/
structure FieldDecl where
  name : String
  type : TypeExpr
  span : Span

end

mutual

/-- An expression. -/
inductive Expr where
  /-- A reference to a binding. -/
  | name (name : String) (span : Span)
  | literal (literal : Literal) (span : Span)
  /-- A new object: `new` with its fields. -/
  | object (fields : List FieldInit) (span : Span)
  | call (callee : Expr) (arguments : List Expr) (span : Span)
  /-- A field or method of a value: `value.name`. -/
  | member (value : Expr) (name : String) (span : Span)

/-- A field of a new object: `name = value`. -/
structure FieldInit where
  name : String
  value : Expr
  span : Span

end

/-- A statement. -/
inductive Stmt where
  /-- A named scope; `bodySpan` runs from its opening to its closing brace. -/
  | scope (name : String) (body : List Stmt) (bodySpan : Span) (span : Span)
  /-- A type definition: `type name: type`. -/
  | typedef (name : String) (type : TypeExpr) (span : Span)
  /-- A binding: `let name: type`, with or without a value. -/
  | binding (name : String) (type : TypeExpr) (value : Option Expr) (span : Span)
  /-- An expression evaluated for its effect. -/
  | effect (expr : Expr) (span : Span)

/-- A list of statements: a whole program, or what stands between braces. -/
structure Block where
  statements : List Stmt
  span : Span

namespace TypeExpr

/-- A type that is just a name. -/
def named (name : String) (span : Span) : TypeExpr := ⟨name, false, false, [], span⟩

/-- A shape with the given fields. -/
def object (fields : List FieldDecl) (span : Span) : TypeExpr :=
  ⟨objectName, false, false, fields, span⟩

/-- Whether the type is a shape. -/
def isObject (t : TypeExpr) : Bool := t.name = objectName

end TypeExpr

instance : Inhabited TypeExpr := ⟨.named "" {}⟩
instance : Inhabited Expr := ⟨.name "" {}⟩
instance : Inhabited Stmt := ⟨.effect default {}⟩

mutual

/-- The text of a type.  Fields have no commas between them. -/
def TypeExpr.text : TypeExpr → String
  | ⟨name, isArray, isOptional, fields, _⟩ =>
    (if isArray then "[]" else "") ++ name ++
      (if fields.isEmpty then "" else " \x7b " ++ fieldsText fields ++ "\x7d") ++
      (if isOptional then "?" else "")

/-- The text of a field of a shape. -/
def FieldDecl.text : FieldDecl → String
  | ⟨name, type, _⟩ => name ++ ": " ++ type.text ++ " "

/-- The texts of fields, one after the other. -/
def fieldsText : List FieldDecl → String
  | [] => ""
  | f :: fs => f.text ++ fieldsText fs

end

/-- The part of the text that an expression was read from. -/
def Expr.span : Expr → Span
  | .name _ s | .literal _ s | .object _ s | .call _ _ s | .member _ _ s => s

/-- Whether an expression gives a value.  Calls never do. -/
def Expr.isValue : Expr → Bool
  | .call .. => false
  | _ => true

/-- The part of the text that a statement was read from. -/
def Stmt.span : Stmt → Span
  | .scope _ _ _ s | .typedef _ _ s | .binding _ _ _ s | .effect _ s => s

end TypedConfig
