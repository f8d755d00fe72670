import TypedConfig.Decimal.Shortest

/-!
# How a number is written

The digits of a number are the same in every text; where the point stands, when an exponent is
used and how it is signed differ.  A `Layout` holds those decisions, and `render` follows them.

**Three texts.** Values are shown in full (`Layout.plain`), listings show a number so that it
cannot be taken for an integer (`Layout.literal`), and JSON has a layout of its own
(`Layout.json`).
-/

namespace TypedConfig.Binary64

/-- The decisions of a text form. -/
structure Layout where
  /-- Whether a number whose first digit stands `point` places before the decimal point is written
  without an exponent. -/
  isPositional : Int → Bool
  /-- Whether a whole number keeps a fraction of zero. -/
  keepsFraction : Bool
  /-- The sign in front of an exponent that is not negative. -/
  exponentSign : String
  /-- Which of two equally near decimals is written. -/
  tie : Tie

namespace Layout

/-- Never an exponent and no fraction that is not needed: `1`, `0.0000001`. -/
def plain : Layout := ⟨fun _ => true, false, "", .up⟩

/-- Always a fraction or an exponent; an exponent below `0.0001` and from `10 ^ 16` on: `1.0`,
`1e-5`, `1.5e17`. -/
def literal : Layout := ⟨fun p => -3 ≤ p && p ≤ 16, true, "", .up⟩

/-- A fraction for numbers from `0.00001` up to `10 ^ 16`, else an exponent with its sign: `1.0`,
`1e-6`, `1e+16`. -/
def json : Layout := ⟨fun p => -4 ≤ p && p ≤ 16, true, "+", .even⟩

end Layout

/-- Digits with a decimal point after the first `point` of them, filled up with zeros. -/
def positional (keepsFraction : Bool) (d : Digits) : List Char :=
  match d.point with
  | .negSucc k => '0' :: '.' :: (List.replicate (k + 1) '0' ++ d.digits)
  | .ofNat p =>
    let whole := d.digits.take p ++ List.replicate (p - d.digits.length) '0'
    let fraction := d.digits.drop p
    (if whole.isEmpty then ['0'] else whole) ++
      (if !fraction.isEmpty then '.' :: fraction
       else if keepsFraction then ['.', '0'] else [])

/-- Digits with a decimal point after the first of them, followed by an exponent. -/
def scientific (exponentSign : String) (d : Digits) : List Char :=
  let exponent := d.point - 1
  d.digits.take 1 ++
    (if d.digits.length ≤ 1 then [] else '.' :: d.digits.drop 1) ++
    'e' :: (if 0 ≤ exponent then exponentSign.toList else ['-']) ++
    Nat.toDigits 10 exponent.natAbs

/-- The text of the finite magnitude with code `n`. -/
def renderMagnitude (layout : Layout) (n : Nat) : List Char :=
  if n = 0 then positional layout.keepsFraction ⟨['0'], 1⟩
  else
    let d := shortest layout.tie n
    if layout.isPositional d.point then positional layout.keepsFraction d
    else scientific layout.exponentSign d

/-- The text of a number. -/
def render (layout : Layout) (x : Binary64) : String :=
  if x.isNaN then "NaN"
  else
    let magnitude := if x.isFinite then renderMagnitude layout x.code else "inf".toList
    String.ofList (if x.isNegative then '-' :: magnitude else magnitude)

end TypedConfig.Binary64
