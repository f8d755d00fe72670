import TypedConfig.Decimal.Nearest

/-!
# The shortest digits of a number

A finite magnitude is printed with the fewest significant digits that read back as the same
magnitude.

**Grids.** The decimals with `c` significant digits form a grid.  If any point of it reads back as
the magnitude then so does one of the magnitude's two neighbours on it, so only those two are
tried, for one digit, two digits and so on: the first grid with a hit wins, and of two hits the
nearer one.  How a tie goes belongs to the format that is written, hence `Tie`.

**Exact arithmetic.** The neighbours come from one natural number: the magnitude written to
`places` decimal places.  Seventeen digits always suffice; the last resort, all the digits of the
magnitude, makes it plain that whatever is printed reads back.
-/

namespace TypedConfig.Binary64

/-- Which of two equally near decimals is written. -/
inductive Tie where
  /-- The larger one. -/
  | up
  /-- The one whose last digit is even. -/
  | even
deriving DecidableEq, Repr

/-- Whether the upper of two equally near neighbours is written, given the lower one. -/
def Tie.takesAbove : Tie → Nat → Bool
  | .up, _ => true
  | .even, below => below % 2 = 1

/-- A decimal number: `0.` followed by the digits, times ten to the `point`. -/
structure Digits where
  digits : List Char
  point : Int
deriving DecidableEq, Repr

/-- More decimal places than the first seventeen digits of any magnitude need. -/
def places : Nat := 345

/-- `digits · 10 ^ exponent`, without the zeros at the end of the digits. -/
def Digits.ofDecimal (digits : Nat) (exponent : Int) : Digits :=
  let ds := Nat.toDigits 10 digits
  { digits := (ds.reverse.dropWhile (· = '0')).reverse
    point := ds.length + exponent }

/-- Tries the grid with `count` digits for the magnitude with code `n`. -/
def shortestOn (tie : Tie) (n count : Nat) : Option (Nat × Int) :=
  let scaled := units n * Nat.pow 10 places / unitsInOne
  let dropped := (Nat.toDigits 10 scaled).length - count
  let below := scaled / Nat.pow 10 dropped
  let exponent : Int := (dropped : Int) - places
  let belowHits := nearestDecimal below exponent = n
  let aboveHits := nearestDecimal (below + 1) exponent = n
  -- twice the magnitude against twice the middle of the two neighbours
  let twice := 2 * units n * Nat.pow 10 places
  let middle := (2 * below + 1) * Nat.pow 10 dropped * unitsInOne
  let aboveIsNearer := middle < twice || (middle = twice && tie.takesAbove below)
  if belowHits ∧ aboveHits then some (if aboveIsNearer then below + 1 else below, exponent)
  else if belowHits then some (below, exponent)
  else if aboveHits then some (below + 1, exponent)
  else none

/-- The fewest digits that read back as the finite magnitude with code `n`. -/
def shortest (tie : Tie) (n : Nat) : Digits :=
  match (List.range 17).findSome? fun i => shortestOn tie n (i + 1) with
  | some (digits, exponent) => .ofDecimal digits exponent
  | none => .ofDecimal (units n * Nat.pow 5 unitExponent) (-(unitExponent : Int))

end TypedConfig.Binary64
