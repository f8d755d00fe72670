/-!
# Counts

Limits and levels may be given as counts: decimal digits, with or without a plus sign in front, for
a number of at most sixty-four bits.
-/

namespace TypedConfig.Text

/-- The count that a text spells, if it spells one. -/
def parseCount? (text : String) : Option Nat :=
  let digits := match text.toList with
    | '+' :: cs => cs
    | cs => cs
  if digits.isEmpty || !digits.all Char.isDigit then none
  else
    let n := Nat.ofDigitChars 10 digits 0
    if n < UInt64.size then some n else none

end TypedConfig.Text
