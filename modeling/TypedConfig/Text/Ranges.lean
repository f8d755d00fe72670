/-!
# Sets of code points

A property of characters is a set of code points, and such sets are written as closed ranges.
-/

namespace TypedConfig.Text

/-- A set of code points, as closed ranges. -/
abbrev Ranges := List (Nat × Nat)

/-- Whether a code point lies in one of the ranges. -/
def Ranges.contains (rs : Ranges) (n : Nat) : Bool :=
  rs.any fun r => r.1 ≤ n && n ≤ r.2

end TypedConfig.Text
