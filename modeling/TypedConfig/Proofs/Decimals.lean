import Mathlib.Tactic.Common
import Mathlib.Tactic.Ring
import TypedConfig.Decimal.Shortest

/-!
# Numbers read back from their digits

The digits that a number is printed with read back as the number (`Binary64.spells_shortest`):
whatever digits are found first, they were tried, and the last resort, all the digits there are, is
exact.

**Quotients.** What is read depends on a quotient only, not on how it is written as a fraction
(`Binary64.nearest_congr`).  So zeros at the end of the digits may be dropped if the point keeps its
place (`Binary64.nearestDecimal_mul_pow`).

**Whole numbers of units.** A finite magnitude in units reads back as its code
(`Binary64.nearest_units`): the bits that are dropped are those that its exponent has put there.
-/

namespace TypedConfig.Binary64

/-! ## Quotients -/

lemma roundToEven_scale (num den : Nat) {k : Nat} (hk : 0 < k) :
    roundToEven (num * k) (den * k) = roundToEven num den := by
  have hbelow : 2 * (num % den * k) < den * k ↔ 2 * (num % den) < den := by
    rw [← Nat.mul_assoc]
    exact Nat.mul_lt_mul_right hk
  have habove : den * k < 2 * (num % den * k) ↔ den < 2 * (num % den) := by
    rw [← Nat.mul_assoc]
    exact Nat.mul_lt_mul_right hk
  rw [roundToEven, roundToEven, Nat.mul_div_mul_right _ _ hk, Nat.mul_mod_mul_right]
  simp only [hbelow, habove]

lemma nearest_scale (num den : Nat) {k : Nat} (hk : 0 < k) :
    nearest (num * k) (den * k) = nearest num den := by
  rw [nearest, nearest, Nat.mul_div_mul_right _ _ hk, Nat.mul_right_comm den k,
    roundToEven_scale _ _ hk]

/-- Equal quotients are read as the same magnitude. -/
lemma nearest_congr {a b c d : Nat} (hb : 0 < b) (hd : 0 < d) (h : a * d = c * b) :
    nearest a b = nearest c d := by
  rw [← nearest_scale a b hd, h, Nat.mul_comm b d, nearest_scale c d hb]

lemma nearest_zero (den : Nat) : nearest 0 den = 0 := by
  have hround (k : Nat) : roundToEven 0 k = 0 := by simp [roundToEven]
  rw [nearest, Nat.zero_div, hround, Nat.log2_zero, Nat.zero_sub, Nat.zero_mul, Nat.min_zero]

/-! ## Decimals -/

lemma nearestDecimal_eq (digits : Nat) (e : Int) : nearestDecimal digits e =
    nearest (digits * 10 ^ e.toNat * unitsInOne) (10 ^ (-e).toNat) := by
  cases e with
  | ofNat k =>
      have hden : (-Int.ofNat k).toNat = 0 := Int.toNat_of_nonpos (by simp)
      have hnum : (Int.ofNat k).toNat = k := rfl
      rw [hden, hnum, nearestDecimal, Nat.pow_eq, Nat.pow_zero]
  | negSucc k =>
      have hnum : (Int.negSucc k).toNat = 0 := rfl
      have hden : (-Int.negSucc k).toNat = k + 1 := rfl
      rw [hnum, hden, nearestDecimal, Nat.pow_eq, Nat.pow_zero, Nat.mul_one]

lemma nearestDecimal_zero (e : Int) : nearestDecimal 0 e = 0 := by
  rw [nearestDecimal_eq, Nat.zero_mul, Nat.zero_mul, nearest_zero]

/-- Zeros at the end of the digits can stand for a higher exponent. -/
lemma nearestDecimal_mul_pow (digits k : Nat) (e : Int) :
    nearestDecimal (digits * 10 ^ k) e = nearestDecimal digits (e + k) := by
  have hpow : 10 ^ k * 10 ^ e.toNat * 10 ^ (-(e + k)).toNat =
      10 ^ (e + k).toNat * 10 ^ (-e).toNat := by
    rw [← Nat.pow_add, ← Nat.pow_add, ← Nat.pow_add]
    congr 1
    omega
  rw [nearestDecimal_eq, nearestDecimal_eq]
  refine nearest_congr (Nat.pow_pos (by decide)) (Nat.pow_pos (by decide)) ?_
  calc digits * 10 ^ k * 10 ^ e.toNat * unitsInOne * 10 ^ (-(e + k)).toNat
      = digits * unitsInOne * (10 ^ k * 10 ^ e.toNat * 10 ^ (-(e + k)).toNat) := by ring
    _ = digits * 10 ^ (e + k).toNat * unitsInOne * 10 ^ (-e).toNat := by rw [hpow]; ring

/-! ## Whole numbers of units -/

lemma units_pos {n : Nat} (hn : n ≠ 0) : 0 < units n := by
  rw [units]
  split
  · omega
  · have hhidden : 0 < hiddenBit := Nat.pow_pos (by decide)
    exact Nat.mul_pos (by omega) (Nat.pow_pos (by decide))

/-- A significand of fifty-three bits with zeros behind it has as many bits to drop as zeros. -/
lemma log2_significand {f k : Nat} (hf : f < hiddenBit) :
    ((hiddenBit + f) * 2 ^ k).log2 - fractionBits = k := by
  have hhidden : hiddenBit = 2 ^ fractionBits := rfl
  have hpow : 0 < 2 ^ k := Nat.pow_pos (by decide)
  have hne : (hiddenBit + f) * 2 ^ k ≠ 0 := Nat.mul_ne_zero (by omega) (by omega)
  have hlog : ((hiddenBit + f) * 2 ^ k).log2 = fractionBits + k := by
    rw [Nat.log2_eq_iff hne]
    constructor
    · rw [Nat.pow_add, ← hhidden]
      exact Nat.mul_le_mul_right _ (Nat.le_add_right _ _)
    · have hdouble : hiddenBit + f < 2 ^ (fractionBits + 1) := by
        rw [Nat.pow_succ, ← hhidden]
        omega
      have heq : fractionBits + k + 1 = (fractionBits + 1) + k := by omega
      rw [heq, Nat.pow_add]
      exact Nat.mul_lt_mul_of_pos_right hdouble hpow
  rw [hlog, Nat.add_sub_cancel_left]

/-- A finite magnitude is read back from the number of its units. -/
lemma nearest_units {n : Nat} (h : n < infinityCode) : nearest (units n) 1 = n := by
  have hmin : min infinityCode n = n := Nat.min_eq_right (Nat.le_of_lt h)
  rw [nearest, Nat.div_one, Nat.one_mul, units]
  split
  · rename_i hsmall
    have hlog : n.log2 - fractionBits = 0 := by
      cases n with
      | zero => rfl
      | succ n =>
          have hlt : (n + 1).log2 < fractionBits := (Nat.log2_lt (Nat.succ_ne_zero n)).mpr hsmall
          omega
    have hround : roundToEven n 1 = n := by
      have hone := roundToEven_mul n 1 Nat.one_pos
      rwa [Nat.mul_one] at hone
    rw [hlog, Nat.zero_mul, Nat.zero_add, Nat.pow_eq, Nat.pow_zero, hround, hmin]
  · rename_i hlarge
    have hf : n % hiddenBit < hiddenBit := Nat.mod_lt _ (Nat.pow_pos (by decide))
    have hhidden : 0 < hiddenBit := Nat.pow_pos (by decide)
    have hone : 1 ≤ n / hiddenBit := by
      rw [Nat.le_div_iff_mul_le hhidden, Nat.one_mul]
      exact Nat.le_of_not_lt hlarge
    rw [Nat.pow_eq, log2_significand hf, Nat.pow_eq, roundToEven_mul _ _ (Nat.pow_pos (by decide))]
    have hsum : (n / hiddenBit - 1) * hiddenBit + (hiddenBit + n % hiddenBit) = n := by
      obtain ⟨e, he⟩ : ∃ e, n / hiddenBit = e + 1 := ⟨n / hiddenBit - 1, by omega⟩
      have hdivision := Nat.div_add_mod n hiddenBit
      rw [he, Nat.mul_add, Nat.mul_one, Nat.mul_comm] at hdivision
      rw [he, Nat.add_sub_cancel]
      omega
    rw [hsum, hmin]

/-! ## Digits -/

/-- Whether digits, the first of which is not zero, read back as the magnitude with code `n`. -/
structure Digits.Spells (d : Digits) (n : Nat) : Prop where
  digits : ∀ c ∈ d.digits, c.isDigit
  head : ∃ c cs, d.digits = c :: cs ∧ c ≠ '0'
  reads : nearestDecimal (Nat.ofDigitChars 10 d.digits 0) (d.point - d.digits.length) = n

/-- The digits of a number that is not zero do not begin with a zero. -/
lemma head_toDigits {n : Nat} (hn : 0 < n) : ∃ c cs, Nat.toDigits 10 n = c :: cs ∧ c ≠ '0' := by
  induction n using Nat.strong_induction_on with
  | _ n ih =>
      by_cases hsmall : n < 10
      · refine ⟨n.digitChar, [], Nat.toDigits_of_lt_base hsmall, ?_⟩
        have hdigit : ∀ k : Fin 10, 0 < k.val → k.val.digitChar ≠ '0' := by decide
        exact hdigit ⟨n, hsmall⟩ hn
      · obtain ⟨c, cs, hcs, hc⟩ := ih (n / 10) (by omega) (by omega)
        refine ⟨c, cs ++ [(n % 10).digitChar], ?_, hc⟩
        rw [Nat.toDigits_of_base_le (by decide) (by omega), hcs, List.cons_append]

/-- A list is what is left without the zeros at its end, and zeros. -/
lemma exists_zeros (ds : List Char) :
    ∃ k, ds = (ds.reverse.dropWhile (· = '0')).reverse ++ List.replicate k '0' := by
  refine ⟨(ds.reverse.takeWhile (· = '0')).length, ?_⟩
  have hzeros : ds.reverse.takeWhile (· = '0') =
      List.replicate (ds.reverse.takeWhile (· = '0')).length '0' :=
    List.eq_replicate_of_mem fun c hc => by simpa using List.all_eq_true.mp List.all_takeWhile c hc
  have hsplit := List.takeWhile_append_dropWhile (p := (· = '0')) (l := ds.reverse)
  calc ds = (ds.reverse.takeWhile (· = '0') ++ ds.reverse.dropWhile (· = '0')).reverse := by
        rw [hsplit, List.reverse_reverse]
    _ = _ := by rw [List.reverse_append, ← List.reverse_replicate, ← hzeros]

/-- A decimal spells the magnitude that it is read as. -/
lemma spells_ofDecimal {digits n : Nat} {e : Int} (hpos : 0 < digits)
    (h : nearestDecimal digits e = n) : (Digits.ofDecimal digits e).Spells n := by
  obtain ⟨k, hk⟩ := exists_zeros (Nat.toDigits 10 digits)
  obtain ⟨c, cs, hcs, hc⟩ := head_toDigits hpos
  obtain ⟨left, hleft⟩ : ∃ left, left = (Digits.ofDecimal digits e).digits := ⟨_, rfl⟩
  have hdigits : Nat.toDigits 10 digits = left ++ List.replicate k '0' := by rwa [hleft]
  constructor
  · intro d hd
    rw [← hleft] at hd
    refine Nat.isDigit_of_mem_toDigits (n := digits) (by decide) (le_refl 10) ?_
    rw [hdigits]
    exact List.mem_append_left _ hd
  · rw [← hleft]
    cases left with
    | nil =>
        have hmem : c ∈ List.replicate k '0' := by
          rw [← List.nil_append (List.replicate k '0'), ← hdigits, hcs]
          exact List.mem_cons_self
        exact absurd (List.eq_of_mem_replicate hmem) hc
    | cons d ds =>
        rw [hcs, List.cons_append, List.cons.injEq] at hdigits
        exact ⟨d, ds, rfl, hdigits.1 ▸ hc⟩
  · have hvalue : Nat.ofDigitChars 10 left 0 * 10 ^ k = digits := by
      have hall := Nat.ofDigitChars_ten_toDigits (n := digits)
      rw [hdigits, Nat.ofDigitChars_append, Nat.ofDigitChars_replicate_zero, Nat.mul_comm] at hall
      exact hall
    have hpoint : (Digits.ofDecimal digits e).point - left.length = e + k := by
      have hlength := congrArg List.length hdigits
      rw [List.length_append, List.length_replicate] at hlength
      rw [Digits.ofDecimal]
      dsimp only
      omega
    rw [← hleft, hpoint, ← nearestDecimal_mul_pow, hvalue, h]

/-- A magnitude written in full is a whole number of units. -/
lemma nearestDecimal_mul_five (n : Nat) :
    nearestDecimal (n * Nat.pow 5 unitExponent) (-(unitExponent : Int)) = nearest n 1 := by
  obtain ⟨k, hk⟩ : ∃ k, k = unitExponent := ⟨_, rfl⟩
  have hunits : unitsInOne = Nat.pow 2 k := by
    delta unitsInOne
    rw [hk]
  rw [← hk, nearestDecimal_eq, hunits, Nat.pow_eq, Nat.pow_eq]
  have hnum : (-(k : Int)).toNat = 0 := by omega
  have hden : (-(-(k : Int))).toNat = k := by omega
  rw [hnum, hden, Nat.pow_zero, Nat.mul_one]
  refine nearest_congr (Nat.pow_pos (by decide)) Nat.one_pos ?_
  rw [Nat.mul_one, Nat.mul_assoc, ← Nat.mul_pow]

/-- Whatever the grid with so many digits gives is read back. -/
lemma nearestDecimal_shortestOn {tie : Tie} {n count digits : Nat} {e : Int}
    (h : shortestOn tie n count = some (digits, e)) : nearestDecimal digits e = n := by
  -- unfolded as a function, so that nothing is calculated
  obtain ⟨f, hf⟩ : ∃ f, f = shortestOn := ⟨_, rfl⟩
  rw [← hf] at h
  delta shortestOn at hf
  rw [hf] at h
  beta_reduce at h
  extract_lets scaled dropped below exponent belowHits aboveHits twice middle aboveIsNearer at h
  split at h
  · rename_i hhits
    rw [Option.some.injEq, Prod.mk.injEq] at h
    obtain ⟨hdigits, rfl⟩ := h
    cases hnearer : aboveIsNearer with
    | true =>
        rw [hnearer, if_pos rfl] at hdigits
        exact hdigits ▸ hhits.2
    | false =>
        rw [hnearer, if_neg Bool.false_ne_true] at hdigits
        exact hdigits ▸ hhits.1
  split at h
  · rename_i hbelow
    rw [Option.some.injEq, Prod.mk.injEq] at h
    obtain ⟨rfl, rfl⟩ := h
    exact hbelow
  split at h
  · rename_i habove
    rw [Option.some.injEq, Prod.mk.injEq] at h
    obtain ⟨rfl, rfl⟩ := h
    exact habove
  · cases h

/-- The digits that are printed come from a grid, or are all there are. -/
lemma shortest_cases (tie : Tie) (n : Nat) :
    (∃ count digits e, shortestOn tie n count = some (digits, e) ∧
      shortest tie n = .ofDecimal digits e) ∨
    shortest tie n = .ofDecimal (units n * Nat.pow 5 unitExponent) (-(unitExponent : Int)) := by
  obtain ⟨f, hf⟩ : ∃ f, f = shortest := ⟨_, rfl⟩
  rw [← hf]
  delta shortest at hf
  rw [hf]
  beta_reduce
  generalize hfound : ((List.range 17).findSome? fun i => shortestOn tie n (i + 1)) = found
  cases found with
  | none => exact Or.inr rfl
  | some x =>
      obtain ⟨i, -, hi⟩ := List.exists_of_findSome?_eq_some hfound
      exact Or.inl ⟨i + 1, x.1, x.2, hi, rfl⟩

/-- The fewest digits of a magnitude spell it. -/
theorem spells_shortest (tie : Tie) {n : Nat} (hne : n ≠ 0) (h : n < infinityCode) :
    (shortest tie n).Spells n := by
  rcases shortest_cases tie n with ⟨count, digits, e, hhit, hshortest⟩ | hshortest
  · have hreads := nearestDecimal_shortestOn hhit
    rw [hshortest]
    refine spells_ofDecimal (Nat.pos_of_ne_zero fun hzero => hne ?_) hreads
    rw [← hreads, hzero, nearestDecimal_zero]
  · have hfive (k : Nat) : 0 < Nat.pow 5 k := Nat.pow_pos (by decide)
    rw [hshortest]
    refine spells_ofDecimal (Nat.mul_pos (units_pos hne) (hfive _)) ?_
    rw [nearestDecimal_mul_five, nearest_units h]

end TypedConfig.Binary64
