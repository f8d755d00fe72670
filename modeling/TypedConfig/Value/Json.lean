import TypedConfig.Value.Basic

/-!
# Values as JSON

A value is written as JSON by way of a JSON tree: `Value.toJson` forgets types and the tree is then
written on one line or indented.

**What JSON has no word for.** Numbers that are not finite and values that are not there become
`null`; a function becomes a string with its name.

**Strings.** The quote, the backslash and the characters below the blank are escaped; all others
are written as they are.
-/

namespace TypedConfig

/-- A JSON tree.  The members of an object keep their order. -/
inductive Json where
  | null
  | boolean (b : Bool)
  | integer (n : Int64)
  | float (x : Binary64)
  | string (s : String)
  | array (items : List Json)
  | object (members : List (String × Json))

mutual

/-- The JSON tree of a value. -/
def Value.toJson : Value → Json
  | ⟨_, _, payload⟩ => payload.toJson

/-- The JSON tree of a payload. -/
def Payload.toJson : Payload → Json
  | .nil => .null
  | .string s => .string s
  | .integer n => .integer n
  | .float x => if x.isFinite then .float x else .null
  | .boolean b => .boolean b
  | .object fields => .object (membersToJson fields)
  | .array items => .array (itemsToJson items)
  | .function f => .string ("<function " ++ f.name ++ ">")

/-- The JSON trees of fields. -/
def membersToJson : List (String × Value) → List (String × Json)
  | [] => []
  | (name, value) :: rest => (name, value.toJson) :: membersToJson rest

/-- The JSON trees of items. -/
def itemsToJson : List Value → List Json
  | [] => []
  | v :: vs => v.toJson :: itemsToJson vs

end

namespace Json

/-- The written form of one character in a JSON string. -/
def escapeChar (c : Char) : List Char :=
  if c = '"' then ['\\', '"']
  else if c = '\\' then ['\\', '\\']
  else if c = '\x08' then ['\\', 'b']
  else if c = '\x0c' then ['\\', 'f']
  else if c = '\n' then ['\\', 'n']
  else if c = '\r' then ['\\', 'r']
  else if c = '\t' then ['\\', 't']
  else if c.toNat < 32 then
    let digits := Text.hexDigits c.toNat
    '\\' :: 'u' :: (List.replicate (4 - digits.length) '0' ++ digits)
  else [c]

/-- The written form of a JSON string, with its quotes. -/
def quote (s : String) : String :=
  String.ofList ('"' :: (s.toList.flatMap escapeChar ++ ['"']))

/-- A line feed and the indentation of a depth. -/
def newline (depth : Nat) : String := String.ofList ('\n' :: List.replicate (2 * depth) ' ')

mutual

/-- A JSON tree on one line. -/
def compact : Json → String
  | .null => "null"
  | .boolean b => booleanText b
  | .integer n => integerText n
  | .float x => x.render .json
  | .string s => quote s
  | .array items => "[" ++ compactItems "" items ++ "]"
  | .object members => "\x7b" ++ compactMembers "" members ++ "\x7d"

/-- Items on one line, the first one behind the given separator. -/
def compactItems (separator : String) : List Json → String
  | [] => ""
  | j :: js => separator ++ j.compact ++ compactItems "," js

/-- Members on one line, the first one behind the given separator. -/
def compactMembers (separator : String) : List (String × Json) → String
  | [] => ""
  | (name, j) :: rest => separator ++ quote name ++ ":" ++ j.compact ++ compactMembers "," rest

end

mutual

/-- A JSON tree with one item or member a line, at a depth of indentation. -/
def pretty (depth : Nat) : Json → String
  | .null => "null"
  | .boolean b => booleanText b
  | .integer n => integerText n
  | .float x => x.render .json
  | .string s => quote s
  | .array [] => "[]"
  | .array items => "[" ++ prettyItems (depth + 1) "" items ++ newline depth ++ "]"
  | .object [] => "\x7b\x7d"
  | .object members => "\x7b" ++ prettyMembers (depth + 1) "" members ++ newline depth ++ "\x7d"

/-- Items on lines of their own, the first one behind the given separator. -/
def prettyItems (depth : Nat) (separator : String) : List Json → String
  | [] => ""
  | j :: js => separator ++ newline depth ++ j.pretty depth ++ prettyItems depth "," js

/-- Members on lines of their own, the first one behind the given separator. -/
def prettyMembers (depth : Nat) (separator : String) : List (String × Json) → String
  | [] => ""
  | (name, j) :: rest =>
    separator ++ newline depth ++ quote name ++ ": " ++ j.pretty depth ++
      prettyMembers depth "," rest

end

end Json

end TypedConfig
