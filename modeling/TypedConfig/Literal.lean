import TypedConfig.Decimal.Layout
import TypedConfig.Text.Quoted

/-!
# Literals

A literal is a value that a source text spells out: a string, an integer, a number with a fraction,
or a truth value.  Integers have sixty-four bits and a sign.
-/

namespace TypedConfig

/-- A value that is spelled out. -/
inductive Literal where
  | string (s : String)
  | integer (n : Int64)
  | float (x : Binary64)
  | boolean (b : Bool)
deriving DecidableEq, Repr

/-- The decimal text of an integer. -/
def integerText (n : Int64) : String := n.toInt.repr

/-- The words of a truth value. -/
def booleanText (b : Bool) : String := if b then "true" else "false"

/-- The text of a literal in a listing, from which it can be told what kind of literal it is. -/
def Literal.text : Literal → String
  | .string s => Text.quote s
  | .integer n => integerText n
  | .float x => x.render .literal
  | .boolean b => booleanText b

end TypedConfig
