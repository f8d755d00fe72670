import TypedConfig.Value.Basic

/-!
# How values are shown

Values are shown to the people who run a program: strings without quotes, numbers in full, and
objects with the name of their type.
-/

namespace TypedConfig

mutual

/-- The text of a value. -/
def Value.text : Value → String
  | ⟨type, _, payload⟩ => payload.text type.name

/-- The text of a payload whose type has the given name. -/
def Payload.text (typeName : String) : Payload → String
  | .nil => "nil"
  | .string s => s
  | .integer n => integerText n
  | .float x => x.render .plain
  | .boolean b => booleanText b
  | .object fields => typeName ++ " \x7b" ++ fieldTexts "" fields ++ " \x7d"
  | .array items => "[" ++ itemTexts "" items ++ "]"
  | .function f => "<function " ++ f.name ++ ">"

/-- The texts of fields, the first one behind the given separator and the others behind commas. -/
def fieldTexts (separator : String) : List (String × Value) → String
  | [] => ""
  | (name, value) :: rest =>
    separator ++ " " ++ name ++ " = " ++ value.text ++ fieldTexts "," rest

/-- The texts of items, the first one behind the given separator and the others behind commas. -/
def itemTexts (separator : String) : List Value → String
  | [] => ""
  | v :: vs => separator ++ v.text ++ itemTexts ", " vs

end

/-- The text of arguments, with blanks between them. -/
def argumentsText (args : List Value) : String := String.intercalate " " (args.map Value.text)

end TypedConfig
