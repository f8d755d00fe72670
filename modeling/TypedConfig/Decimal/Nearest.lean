import TypedConfig.Decimal.Binary64

/-!
# Reading a decimal

A decimal numeral is read as the binary64 magnitude nearest to it, and of two equally near ones as
the one whose last bit is zero.

**Rounding is one division.** With the quantity given as a quotient of natural numbers, in units,
`nearest` drops as many low bits as its whole part has beyond fifty-three and rounds once.  A carry
into the next power of two needs no care: the code of a magnitude is its exponent followed by its
fraction, so adding the rounded significand to the exponent carries by itself.

**Large numbers.** What rounds to `2 ^ 1024` or more is infinite.
-/

namespace TypedConfig.Binary64

/-- The whole number nearest to the quotient `num / den`; a half goes to the even neighbour. -/
def roundToEven (num den : Nat) : Nat :=
  let q := num / den
  let r := num % den
  if 2 * r < den then q
  else if den < 2 * r then q + 1
  else if q % 2 = 0 then q else q + 1

/-- The code of the magnitude nearest to `num / den` units. -/
def nearest (num den : Nat) : Nat :=
  let dropped := (num / den).log2 - fractionBits
  min infinityCode (dropped * hiddenBit + roundToEven num (den * Nat.pow 2 dropped))

/-- The code of the magnitude nearest to `digits · 10 ^ exponent`. -/
def nearestDecimal (digits : Nat) : Int → Nat
  | .ofNat e => nearest (digits * Nat.pow 10 e * unitsInOne) 1
  | .negSucc e => nearest (digits * unitsInOne) (Nat.pow 10 (e + 1))

/-- A whole number of halves is rounded exactly when it is whole. -/
theorem roundToEven_mul (n den : Nat) (h : 0 < den) : roundToEven (n * den) den = n := by
  simp [roundToEven, Nat.mul_div_cancel _ h, h]

end TypedConfig.Binary64
