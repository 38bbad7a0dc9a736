import Mathlib.Algebra.Order.Archimedean.Basic
import Mathlib.Algebra.Order.Field.Power
import Mathlib.Data.Rat.Cast.Order
import Mathlib.Tactic.Linarith
import Mathlib.Tactic.NormNum
import Mathlib.Tactic.Positivity
import Mathlib.Tactic.Ring
import Reckoner.Number.Shortest

/-!
Rounding is exact where it should be. A fraction between the midpoints to the two neighbours of a
number, the midpoints included where the mantissa is even, is rounded to the bits of the number. The
fraction has the exponent of the number, but for one case: it may lie below a power of two that the
number is, and is then rounded up to the double of the least mantissa of the exponent before, which
has the same bits.
-/
namespace Reckoner.Number

/-- A fraction is nearest to a whole number, which is even where two are equally near. -/
structure Rounds (x : ℚ) (n : Nat) : Prop where
  low : (n : ℚ) - 1 / 2 ≤ x
  high : x ≤ n + 1 / 2
  even : x = n - 1 / 2 ∨ x = n + 1 / 2 → n % 2 = 0

theorem roundDiv_eq {dividend divisor n : Nat} (positive : 0 < divisor)
    (rounds : Rounds ((dividend : ℚ) / divisor) n) : roundDiv dividend divisor = n := by
  have divides : (0 : ℚ) < divisor := by exact_mod_cast positive
  have whole : (dividend : ℚ) = divisor * (dividend / divisor : Nat) + (dividend % divisor : Nat) := by
    exact_mod_cast (Nat.div_add_mod dividend divisor).symm
  have rest : dividend % divisor < divisor := Nat.mod_lt _ positive
  obtain ⟨low, high, even⟩ := rounds
  rw [le_div_iff₀ divides] at low
  rw [div_le_iff₀ divides] at high
  rw [div_eq_iff divides.ne', div_eq_iff divides.ne'] at even
  unfold roundDiv
  generalize dividend / divisor = quotient at *
  generalize dividend % divisor = remainder at *
  rw [whole] at low high even
  have near : quotient = n ∨ quotient + 1 = n := by
    have above : (quotient : ℚ) < n + 1 := by
      by_contra beyond
      nlinarith [(Nat.cast_nonneg remainder : (0 : ℚ) ≤ remainder)]
    have below : (n : ℚ) < quotient + 2 := by
      by_contra beyond
      have rest : (remainder : ℚ) < divisor := by exact_mod_cast rest
      nlinarith
    norm_cast at above below
    omega
  rcases near with rfl | rfl
  · -- The quotient stays: the remainder is at most half of the divisor.
    have few : 2 * remainder ≤ divisor := by
      have : (2 * remainder : ℚ) ≤ divisor := by linarith
      exact_mod_cast this
    refine if_neg ?_
    rintro (more | ⟨half, odd⟩)
    · omega
    · have tie : quotient % 2 = 0 := even (.inr (by rw [← half]; push_cast; ring))
      omega
  · -- The quotient goes up: the remainder is at least half of the divisor.
    have much : divisor ≤ 2 * remainder := by
      have : (divisor : ℚ) ≤ 2 * remainder := by push_cast at low; linarith
      exact_mod_cast this
    refine if_pos ?_
    rcases Nat.lt_or_eq_of_le much with more | half
    · exact .inl more
    · have tie : (quotient + 1) % 2 = 0 := even (.inl (by rw [half]; push_cast; ring))
      exact .inr ⟨half.symm, by omega⟩

theorem two_zpow_sub_one (k : ℤ) : (2 : ℚ) ^ (k - 1) = 2 * 2 ^ (k - 2) := by
  rw [show k - 1 = 1 + (k - 2) by ring, zpow_add₀ two_ne_zero, zpow_one]

theorem zpow_natCast_toNat {k : ℤ} (nonnegative : 0 ≤ k) (base : Nat) :
    ((base ^ k.toNat : Nat) : ℚ) = (base : ℚ) ^ k := by
  rw [Nat.cast_pow, ← zpow_natCast, Int.toNat_of_nonneg nonnegative]

/-- Whether a fraction is below a power of two. -/
theorem below_iff {top bottom : Nat} (positive : 0 < bottom) (k : ℤ) :
    (if k ≥ 0 then top < bottom * Nat.pow 2 k.toNat else top * Nat.pow 2 (-k).toNat < bottom) ↔
      (top : ℚ) / bottom < 2 ^ k := by
  have divides : (0 : ℚ) < bottom := by exact_mod_cast positive
  rw [div_lt_iff₀ divides]
  split
  · rename_i nonnegative
    have power := zpow_natCast_toNat nonnegative 2
    rw [← Nat.cast_lt (α := ℚ)]
    push_cast at power ⊢
    rw [Nat.pow_eq, Nat.cast_pow, Nat.cast_ofNat, power, mul_comm]
  · rename_i negative
    have power := zpow_natCast_toNat (show 0 ≤ -k by omega) 2
    rw [← Nat.cast_lt (α := ℚ)]
    push_cast at power ⊢
    rw [Nat.pow_eq, Nat.cast_pow, Nat.cast_ofNat, power, zpow_neg, ← div_eq_mul_inv,
      div_lt_iff₀ (by positivity), mul_comm]

theorem roundScaled_eq {top bottom n : Nat} (positive : 0 < bottom) {k : ℤ}
    (rounds : Rounds ((top : ℚ) / bottom / 2 ^ k) n) :
    (if k ≥ 0 then roundDiv top (bottom * Nat.pow 2 k.toNat)
      else roundDiv (top * Nat.pow 2 (-k).toNat) bottom) = n := by
  split
  · rename_i nonnegative
    have power := zpow_natCast_toNat nonnegative 2
    refine roundDiv_eq (Nat.mul_pos positive (Nat.pow_pos (by decide))) ?_
    rw [Nat.pow_eq, Nat.cast_mul, power, ← div_div]
    exact rounds
  · rename_i negative
    have power := zpow_natCast_toNat (show 0 ≤ -k by omega) 2
    refine roundDiv_eq positive ?_
    rw [Nat.pow_eq, Nat.cast_mul, power, Nat.cast_ofNat, zpow_neg, ← div_eq_mul_inv, div_right_comm]
    exact rounds

theorem scaleOf_eq {top bottom : Nat} (filled : top ≠ 0) (positive : 0 < bottom) {k : ℤ}
    (low : (2 : ℚ) ^ k ≤ (top : ℚ) / bottom) (high : (top : ℚ) / bottom < 2 ^ (k + 1)) :
    scaleOf top bottom = max leastExponent (k - 52) := by
  have divides : (0 : ℚ) < bottom := by exact_mod_cast positive
  have topLow : (2 : ℚ) ^ (top.log2 : ℤ) ≤ top := by
    exact_mod_cast Nat.log2_self_le filled
  have topHigh : (top : ℚ) < 2 ^ ((top.log2 : ℤ) + 1) := by
    exact_mod_cast Nat.lt_log2_self
  have bottomLow : (2 : ℚ) ^ (bottom.log2 : ℤ) ≤ bottom := by
    exact_mod_cast Nat.log2_self_le positive.ne'
  have bottomHigh : (bottom : ℚ) < 2 ^ ((bottom.log2 : ℤ) + 1) := by
    exact_mod_cast Nat.lt_log2_self
  have ceiling : (top : ℚ) / bottom < 2 ^ ((top.log2 : ℤ) - bottom.log2 + 1) := by
    rw [div_lt_iff₀ divides]
    calc (top : ℚ) < 2 ^ ((top.log2 : ℤ) + 1) := topHigh
      _ = 2 ^ ((top.log2 : ℤ) - bottom.log2 + 1) * 2 ^ (bottom.log2 : ℤ) := by
        rw [← zpow_add₀ two_ne_zero]
        congr 1
        omega
      _ ≤ 2 ^ ((top.log2 : ℤ) - bottom.log2 + 1) * bottom := by gcongr
  have floor : (2 : ℚ) ^ ((top.log2 : ℤ) - bottom.log2 - 1) < (top : ℚ) / bottom := by
    rw [lt_div_iff₀ divides]
    calc (2 : ℚ) ^ ((top.log2 : ℤ) - bottom.log2 - 1) * bottom
        < 2 ^ ((top.log2 : ℤ) - bottom.log2 - 1) * 2 ^ ((bottom.log2 : ℤ) + 1) := by gcongr
      _ = 2 ^ (top.log2 : ℤ) := by
        rw [← zpow_add₀ two_ne_zero]
        congr 1
        omega
      _ ≤ top := topLow
  have above := (zpow_lt_zpow_iff_right₀ one_lt_two).1 (low.trans_lt ceiling)
  have below := (zpow_lt_zpow_iff_right₀ one_lt_two).1 (floor.trans high)
  have judged := @below_iff top bottom positive ((top.log2 : ℤ) - bottom.log2)
  unfold scaleOf
  dsimp only
  by_cases less : (top : ℚ) / bottom < 2 ^ ((top.log2 : ℤ) - bottom.log2)
  · have short := (zpow_lt_zpow_iff_right₀ one_lt_two).1 (low.trans_lt less)
    rw [if_pos (judged.2 less)]
    omega
  · have long := (zpow_lt_zpow_iff_right₀ one_lt_two).1 ((not_lt.1 less).trans_lt high)
    rw [if_neg (mt judged.1 less)]
    omega

/-- The parts of a positive number: the mantissa has 53 binary digits unless the exponent is the
    least. -/
structure Canonical (mantissa : Nat) (exponent : ℤ) : Prop where
  positive : 0 < mantissa
  small : mantissa < 2 * hiddenBit
  least : leastExponent ≤ exponent
  most : exponent ≤ 971
  normal : hiddenBit ≤ mantissa ∨ exponent = leastExponent

/-- A fraction lies in an interval around a number with an exponent. -/
def Interval.Covers (i : Interval) (exponent : ℤ) (x : ℚ) : Prop :=
  if i.closed then i.low * 2 ^ (exponent - 2) ≤ x ∧ x ≤ i.high * 2 ^ (exponent - 2)
  else i.low * 2 ^ (exponent - 2) < x ∧ x < i.high * 2 ^ (exponent - 2)

section
variable {mantissa : Nat} {exponent : ℤ} {x : ℚ}

theorem Interval.Covers.weak {i : Interval} (covers : i.Covers exponent x) :
    i.low * 2 ^ (exponent - 2) ≤ x ∧ x ≤ i.high * 2 ^ (exponent - 2) := by
  unfold Interval.Covers at covers
  split at covers
  · exact covers
  · exact ⟨covers.1.le, covers.2.le⟩

/-- What reads back as a number is nearest to it. -/
theorem Interval.Covers.rounds (positive : 0 < mantissa)
    (covers : (interval mantissa exponent).Covers exponent x) :
    Rounds (x / 2 ^ exponent) mantissa := by
  have unit : (0 : ℚ) < 2 ^ exponent := by positivity
  have quarter : (2 : ℚ) ^ (exponent - 2) = 2 ^ exponent / 4 := by
    rw [zpow_sub₀ two_ne_zero]
    norm_num
  have low : (4 * mantissa : ℚ) - 2 ≤ (interval mantissa exponent).low := by
    have fits : 4 * mantissa ≤ (interval mantissa exponent).low + 2 := by
      simp only [interval]
      split <;> omega
    have cast : (4 * mantissa : ℚ) ≤ (interval mantissa exponent).low + 2 := by exact_mod_cast fits
    linarith
  have high : ((interval mantissa exponent).high : ℚ) = 4 * mantissa + 2 := by simp [interval]
  obtain ⟨atLeast, atMost⟩ := covers.weak
  rw [quarter] at atLeast atMost
  rw [high] at atMost
  refine ⟨?_, ?_, ?_⟩
  · rw [le_div_iff₀ unit]
    nlinarith
  · rw [div_le_iff₀ unit]
    linarith
  · rw [div_eq_iff unit.ne', div_eq_iff unit.ne']
    intro tie
    by_contra odd
    have opens : (interval mantissa exponent).closed = false := by simp [interval, odd]
    rw [Interval.Covers, opens, if_neg (by simp), quarter, high] at covers
    rcases tie with tie | tie
    · nlinarith [covers.1]
    · linarith [covers.2]

theorem hiddenBit_eq : (hiddenBit : ℚ) = 2 ^ (52 : ℤ) := by norm_num [hiddenBit]

/-- A fraction that reads back as a number has the scale of the number, or it is below a power of two
    that the number is. -/
theorem scaleOf_cases {top bottom : Nat} (filled : top ≠ 0) (positive : 0 < bottom)
    (canonical : Canonical mantissa exponent)
    (covers : (interval mantissa exponent).Covers exponent ((top : ℚ) / bottom)) :
    scaleOf top bottom = exponent ∨
      mantissa = hiddenBit ∧ leastExponent < exponent ∧ scaleOf top bottom = exponent - 1 ∧
        (top : ℚ) / bottom < 2 ^ (exponent + 52) := by
  obtain ⟨k, low, high⟩ : ∃ k : ℤ, (2 : ℚ) ^ k ≤ (top : ℚ) / bottom ∧
      (top : ℚ) / bottom < 2 ^ (k + 1) := exists_mem_Ico_zpow (by positivity) one_lt_two
  have scale := scaleOf_eq filled positive low high
  have rounds := covers.rounds canonical.positive
  have unit : (0 : ℚ) < 2 ^ exponent := by positivity
  have atLeast := (le_div_iff₀ unit).1 rounds.low
  have atMost := (div_le_iff₀ unit).1 rounds.high
  have raised (n : ℤ) : (2 : ℚ) ^ (exponent + n) = 2 ^ n * 2 ^ exponent := by
    rw [add_comm, zpow_add₀ two_ne_zero]
  have ceiling : k < exponent + 53 := by
    refine (zpow_lt_zpow_iff_right₀ (one_lt_two : (1 : ℚ) < 2)).1 (low.trans_lt (atMost.trans_lt ?_))
    have small : (mantissa : ℚ) + 1 ≤ 2 * hiddenBit := by exact_mod_cast canonical.small
    rw [raised]
    norm_num [hiddenBit] at small ⊢
    nlinarith
  have least := canonical.least
  rcases canonical.normal with normal | lowest
  · by_cases less : (top : ℚ) / bottom < 2 ^ (exponent + 52)
    · have lowest : mantissa ≤ hiddenBit := by
        rw [raised] at less
        have half : (mantissa : ℚ) - 1 / 2 < 2 ^ (52 : ℤ) :=
          lt_of_mul_lt_mul_right (atLeast.trans_lt less) unit.le
        have cast : (mantissa : ℚ) < hiddenBit + 1 := by rw [hiddenBit_eq]; linarith
        norm_cast at cast
        omega
      have same : mantissa = hiddenBit := le_antisymm lowest normal
      have floor : exponent + 51 < k + 1 := by
        refine (zpow_lt_zpow_iff_right₀ (one_lt_two : (1 : ℚ) < 2)).1 (lt_of_le_of_lt ?_ high)
        refine le_trans ?_ atLeast
        rw [raised, same]
        norm_num [hiddenBit]
        nlinarith
      have short := (zpow_lt_zpow_iff_right₀ one_lt_two).1 (low.trans_lt less)
      by_cases bottommost : exponent = leastExponent
      · left
        omega
      · right
        exact ⟨same, by omega, by omega, less⟩
    · have floor := (zpow_lt_zpow_iff_right₀ one_lt_two).1 ((not_lt.1 less).trans_lt high)
      left
      omega
  · left
    omega

theorem Interval.Covers.positive (positive : 0 < mantissa)
    (covers : (interval mantissa exponent).Covers exponent x) : 0 < x := by
  have unit : (0 : ℚ) < 2 ^ exponent := by positivity
  have one : (1 : ℚ) ≤ mantissa := by exact_mod_cast positive
  have low := (le_div_iff₀ unit).1 (covers.rounds positive).low
  nlinarith

/-- The bits of a positive number with its parts. -/
def magnitude (mantissa : Nat) (exponent : ℤ) : Nat :=
  (exponent - leastExponent).toNat * hiddenBit + mantissa

/-- The number with a sign and the bits of its magnitude. -/
def ofMagnitude (negative : Bool) (bits : Nat) : Float :=
  Float.ofBits (UInt64.ofNat (if negative then Nat.pow 2 63 + bits else bits))

/-- What reads back as a number is rounded to its bits. -/
theorem nearestBits_eq {top bottom : Nat} (filled : top ≠ 0) (positive : 0 < bottom)
    (canonical : Canonical mantissa exponent)
    (covers : (interval mantissa exponent).Covers exponent ((top : ℚ) / bottom)) :
    nearestBits top bottom = magnitude mantissa exponent := by
  unfold nearestBits magnitude
  dsimp only
  rcases scaleOf_cases filled positive canonical covers with scale | ⟨rfl, above, scale, less⟩
  · rw [scale, roundScaled_eq positive (covers.rounds canonical.positive)]
  · -- Rounding at the lower scale carries into the next exponent.
    have rounds : Rounds ((top : ℚ) / bottom / 2 ^ (exponent - 1)) (2 * hiddenBit) := by
      have unit : (0 : ℚ) < 2 ^ (exponent - 1) := by positivity
      have whole : (2 : ℚ) ^ (exponent + 52) = 2 ^ (53 : ℤ) * 2 ^ (exponent - 1) := by
        rw [← zpow_add₀ two_ne_zero]
        congr 1
        omega
      have low : ((interval hiddenBit exponent).low : ℚ) = 4 * hiddenBit - 1 := by
        norm_num [interval, above, hiddenBit]
      have atLeast := covers.weak.1
      rw [low] at atLeast
      rw [whole] at less
      refine ⟨?_, ?_, fun _ => Nat.mul_mod_right 2 hiddenBit⟩
      · rw [le_div_iff₀ unit, two_zpow_sub_one]
        push_cast
        linarith
      · rw [div_le_iff₀ unit]
        norm_num [hiddenBit] at less ⊢
        linarith
    rw [scale, roundScaled_eq positive rounds]
    have next : (exponent - leastExponent).toNat = (exponent - 1 - leastExponent).toNat + 1 := by omega
    rw [next]
    ring

theorem Canonical.magnitude_lt (canonical : Canonical mantissa exponent) :
    magnitude mantissa exponent < 2047 * hiddenBit := by
  have high : (exponent - leastExponent).toNat ≤ 2045 := by
    have most := canonical.most
    unfold leastExponent
    omega
  have small := canonical.small
  have bits := Nat.mul_le_mul_right hiddenBit high
  unfold magnitude
  omega

theorem nearest?_eq {top bottom : Nat} (positive : 0 < bottom) (canonical : Canonical mantissa exponent)
    (covers : (interval mantissa exponent).Covers exponent ((top : ℚ) / bottom)) (negative : Bool) :
    nearest? negative top bottom = some (ofMagnitude negative (magnitude mantissa exponent)) := by
  have filled : top ≠ 0 := by
    rintro rfl
    have above := covers.positive canonical.positive
    simp at above
  rw [nearest?, if_neg filled, nearestBits_eq filled positive canonical covers]
  exact if_pos canonical.magnitude_lt

/-- A decimal that reads back as a number is rounded to the number. -/
theorem ofDecimal_eq {digits size : Nat} {place : ℤ} (canonical : Canonical mantissa exponent)
    (covers : (interval mantissa exponent).Covers exponent (digits * 10 ^ place))
    (high : place ≤ 400) (low : -400 ≤ place + size) (negative : Bool) :
    ofDecimal negative digits size place = ofMagnitude negative (magnitude mantissa exponent) := by
  have filled : digits ≠ 0 := by
    rintro rfl
    have above := covers.positive canonical.positive
    simp at above
  have inside : ¬ (digits = 0 ∨ place + size < -400) := by omega
  rw [ofDecimal, if_neg inside, if_neg (by omega)]
  by_cases nonnegative : place ≥ 0
  · have power := zpow_natCast_toNat nonnegative 10
    have same : ((digits * Nat.pow 10 place.toNat : Nat) : ℚ) / (1 : Nat) = digits * 10 ^ place := by
      rw [Nat.pow_eq, Nat.cast_mul, power]
      simp
    rw [if_pos nonnegative, nearest?_eq (by decide) canonical (same ▸ covers)]
    rfl
  · have power := zpow_natCast_toNat (show 0 ≤ -place by omega) 10
    have same : (digits : ℚ) / (Nat.pow 10 (-place).toNat : Nat) = digits * 10 ^ place := by
      rw [Nat.pow_eq, power, zpow_neg, div_inv_eq_mul]
      simp
    have positive : 0 < Nat.pow 10 (-place).toNat := Nat.pow_pos (by decide)
    rw [if_neg nonnegative, nearest?_eq positive canonical (same ▸ covers)]
    rfl

end

end Reckoner.Number
