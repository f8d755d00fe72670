/-!
# Binary64 numbers

A `Binary64` is a floating-point number given by its sixty-four bits: a sign, eleven bits of
exponent and fifty-two bits of fraction.  The configuration language reads, keeps and prints such
numbers but never calculates with them, so nothing here adds or multiplies.

**The code of a magnitude.** Dropping the sign bit leaves a natural number below `2 ^ 63`, the
number's *code*.  Codes are ordered as the magnitudes they stand for: zero is `0`, the first code
that is not finite is `infinityCode`, and what lies above is not a number.

**Units.** Every finite magnitude is a whole number of units of `2 ^ (-1074)`, the smallest
positive one.  `units` gives that whole number, so that magnitudes can be compared, rounded and
printed in exact natural-number arithmetic.
-/

namespace TypedConfig

/-- A floating-point number, as its bits. -/
structure Binary64 where
  bits : UInt64
deriving DecidableEq, Repr, Inhabited

namespace Binary64

/-- How many bits the fraction has. -/
def fractionBits : Nat := 52

/-- The value of the bit before the fraction, which is not stored. -/
def hiddenBit : Nat := Nat.pow 2 fractionBits

/-- The value of the sign bit. -/
def signBit : Nat := Nat.pow 2 63

/-- The exponent of a unit. -/
def unitExponent : Nat := 1074

/-- How many units make one. -/
def unitsInOne : Nat := Nat.pow 2 unitExponent

/-- The code of the infinite magnitude. -/
def infinityCode : Nat := 2047 * hiddenBit

/-- Whether the sign bit is set. -/
def isNegative (x : Binary64) : Bool := signBit ≤ x.bits.toNat

/-- The magnitude's code: the bits without the sign. -/
def code (x : Binary64) : Nat := x.bits.toNat % signBit

/-- Whether the number is neither infinite nor not a number. -/
def isFinite (x : Binary64) : Bool := x.code < infinityCode

/-- Whether the bits stand for no number. -/
def isNaN (x : Binary64) : Bool := infinityCode < x.code

/-- The number with the given sign and code. -/
def ofCode (negative : Bool) (n : Nat) : Binary64 :=
  ⟨UInt64.ofNat (if negative then signBit + n else n)⟩

/-- The finite magnitude with code `n`, in units.  The upper bits of the code are the exponent; a
magnitude whose exponent is zero has no hidden bit. -/
def units (n : Nat) : Nat :=
  if n < hiddenBit then n
  else (hiddenBit + n % hiddenBit) * Nat.pow 2 (n / hiddenBit - 1)

end Binary64

end TypedConfig
