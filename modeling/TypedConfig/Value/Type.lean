import TypedConfig.Code.Instr

/-!
# Types at run time

A `DataType` is what the written name of a type resolves to.  Values carry their type with them.

**Equality of types.** Two types are the same when they are of the same kind, have the same name
and the same parameters.  Whether a type is optional does not matter, and neither does the shape of
an object type: types of objects are told apart by their names alone.
-/

namespace TypedConfig

/-- The kinds of types. -/
inductive TypeTag where
  | string
  | integer
  | boolean
  | float
  | array
  | object
  | function
deriving DecidableEq, Repr

/-- A resolved type.  The types of objects have a shape, their fields in order; the type of an
array has one parameter, the type of its items. -/
structure DataType where
  tag : TypeTag
  name : String
  isOptional : Bool := false
  shape : Option (List (String × DataType)) := none
  params : List DataType := []

/-- The fields of an object type, in order. -/
abbrev Shape := List (String × DataType)

namespace DataType

def string : DataType := { tag := .string, name := "string" }
def integer : DataType := { tag := .integer, name := "int" }
def boolean : DataType := { tag := .boolean, name := "bool" }
def float : DataType := { tag := .float, name := "float" }
def function : DataType := { tag := .function, name := "function" }

instance : Inhabited DataType := ⟨string⟩

/-- The type of arrays with items of the given type. -/
def arrayOf (item : DataType) : DataType := { tag := .array, name := "array", params := [item] }

/-- The type of objects with the given name and shape. -/
def object (name : String) (shape : Shape) : DataType :=
  { tag := .object, name := name, shape := some shape }

/-- The builtin type that a reference stands for, if it stands for one. -/
def primitive? : TypeRef → Option DataType
  | .string => some string
  | .integer => some integer
  | .boolean => some boolean
  | .float => some float
  | .user => none

/-- The same type, optional or not. -/
def withOptional (t : DataType) (isOptional : Bool) : DataType := { t with isOptional }

def isArray (t : DataType) : Bool := t.tag = .array

def isObject (t : DataType) : Bool := t.tag = .object

/-- The type of the first field of that name in the shape. -/
def field? (shape : Shape) (name : String) : Option DataType :=
  (shape.find? fun f => f.1 = name).map (·.2)

mutual

/-- Whether two types are the same, whether or not they are optional and whatever their shapes. -/
def equals : DataType → DataType → Bool
  | ⟨tag, name, _, _, params⟩, u => tag = u.tag && name = u.name && equalsAll params u.params

/-- Whether two lists of types are the same, one by one. -/
def equalsAll : List DataType → List DataType → Bool
  | [], [] => true
  | t :: ts, u :: us => t.equals u && equalsAll ts us
  | _, _ => false

end

mutual

/-- The name of a type in messages: `[]T` for arrays, `T[P, Q]` for other types with parameters,
and a question mark behind an optional type. -/
def fullName : DataType → String
  | ⟨tag, name, isOptional, _, params⟩ =>
    let base := match tag, fullNames params with
      | .array, [item] => "[]" ++ item
      | _, [] => name
      | _, names => name ++ "[" ++ String.intercalate ", " names ++ "]"
    if isOptional then base ++ "?" else base

/-- The names of types in messages. -/
def fullNames : List DataType → List String
  | [] => []
  | t :: ts => t.fullName :: fullNames ts

end

/-- Equality does not look at whether a type is optional. -/
theorem equals_withOptional (t u : DataType) (b : Bool) :
    (t.withOptional b).equals u = t.equals u := by
  cases t
  simp [withOptional, equals]

end DataType

end TypedConfig
