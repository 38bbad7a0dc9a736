import Reckoner.Proofs.Number.Rounding

/-!
The shortest decimal of a number reads back. Whatever the search finds lies between the midpoints to
the neighbours of the number, and the search finds something: its last grid is finer than half of
the distance between them, because `10 ^ (k * 1233 / 4096)` is no more than twice `2 ^ k`.
-/
namespace Reckoner.Number

/-- The unit of the bounds of an interval, in the scale that it shares with a grid of decimals. -/
def unitOf (binary exponent : ℤ) : Nat :=
  Nat.pow 2 (binary - 2).toNat * Nat.pow 10 (-exponent).toNat

/-- The distance of the points of a grid of decimals, in the same scale. -/
def gridOf (binary exponent : ℤ) : Nat :=
  Nat.pow 2 (2 - binary).toNat * Nat.pow 10 exponent.toNat

theorem natCast_pow_toNat {base : Nat} (positive : 0 < base) (k : ℤ) :
    ((base ^ k.toNat : Nat) : ℚ) = (base : ℚ) ^ k * (base ^ (-k).toNat : Nat) := by
  have filled : (base : ℚ) ≠ 0 := by positivity
  rcases le_total 0 k with nonnegative | negative
  · rw [zpow_natCast_toNat nonnegative, Int.toNat_of_nonpos (by omega)]
    simp
  · rw [zpow_natCast_toNat (show 0 ≤ -k by omega), Int.toNat_of_nonpos negative, ← zpow_add₀ filled]
    simp

/-- The grid and the unit stand for their powers in one scale. -/
theorem exists_scale (binary exponent : ℤ) : ∃ scale : ℚ, 0 < scale ∧
    (unitOf binary exponent : ℚ) = 2 ^ (binary - 2) * scale ∧
    (gridOf binary exponent : ℚ) = 10 ^ exponent * scale := by
  have two := natCast_pow_toNat (show 0 < 2 by decide) (binary - 2)
  have ten := natCast_pow_toNat (show 0 < 10 by decide) exponent
  rw [neg_sub] at two
  refine ⟨(2 ^ (2 - binary).toNat : Nat) * (10 ^ (-exponent).toNat : Nat), by positivity, ?_, ?_⟩
  · rw [unitOf, Nat.pow_eq, Nat.pow_eq, Nat.cast_mul, two]
    push_cast
    ring
  · rw [gridOf, Nat.pow_eq, Nat.pow_eq, Nat.cast_mul, ten]
    push_cast
    ring

theorem holds_iff (i : Interval) (binary exponent : ℤ) (point : Nat) :
    i.holds (unitOf binary exponent) (gridOf binary exponent) point = true ↔
      i.Covers binary (point * 10 ^ exponent) := by
  obtain ⟨scale, positive, unit, grid⟩ := exists_scale binary exponent
  have bound (n : Nat) : (n * unitOf binary exponent : ℚ) = n * 2 ^ (binary - 2) * scale := by
    rw [unit, mul_assoc]
  have place : (point * gridOf binary exponent : ℚ) = point * 10 ^ exponent * scale := by
    rw [grid, mul_assoc]
  unfold Interval.holds Interval.Covers
  split
  · simp only [Bool.and_eq_true, decide_eq_true_eq, ← Nat.cast_le (α := ℚ), Nat.cast_mul, bound, place,
      mul_le_mul_iff_left₀ positive]
  · simp only [Bool.and_eq_true, decide_eq_true_eq, ← Nat.cast_lt (α := ℚ), Nat.cast_mul, bound, place,
      mul_lt_mul_iff_left₀ positive]

theorem gridPoint?_holds {i : Interval} {unit grid point : Nat}
    (found : gridPoint? i unit grid = some point) : i.holds unit grid point = true := by
  unfold gridPoint? at found
  dsimp only at found
  split at found
  · split at found
    · cases found
      assumption
    · cases found
      assumption
  · cases found
    assumption
  · cases found
    assumption
  · cases found

/-- A grid that is finer than half of the interval has a point in it. -/
theorem gridPoint?_ne_none {mantissa : Nat} {exponent : ℤ} (positive : 0 < mantissa)
    {unit grid : Nat} (filled : 0 < grid) (fine : grid < 2 * unit) :
    gridPoint? (interval mantissa exponent) unit grid ≠ none := by
  have above : (interval mantissa exponent).holds unit grid
      ((interval mantissa exponent).value * unit / grid + 1) = true := by
    have low : (interval mantissa exponent).low ≤ (interval mantissa exponent).value := by
      simp only [interval]
      omega
    have high : (interval mantissa exponent).high = (interval mantissa exponent).value + 2 := rfl
    have start := Nat.mul_le_mul_right unit low
    have less := Nat.lt_div_mul_add filled (a := (interval mantissa exponent).value * unit)
    have more := Nat.div_mul_le_self ((interval mantissa exponent).value * unit) grid
    unfold Interval.holds
    rw [high]
    simp only [Nat.add_mul, Nat.one_mul]
    split
    · simp only [Bool.and_eq_true, decide_eq_true_eq]
      omega
    · simp only [Bool.and_eq_true, decide_eq_true_eq]
      omega
  unfold gridPoint?
  dsimp only
  rw [above]
  cases (interval mantissa exponent).holds unit grid ((interval mantissa exponent).value * unit / grid)
  · simp
  · simp only
    split <;> simp

/-- The search finds a decimal that reads back if its last grid is fine. -/
theorem covers_searchGrid {mantissa : Nat} {binary : ℤ} (positive : 0 < mantissa) {steps : Nat}
    {start : ℤ} (fine : (10 : ℚ) ^ (start - steps) < 2 ^ (binary - 1)) :
    (interval mantissa binary).Covers binary
      ((searchGrid (interval mantissa binary) binary (steps + 1) start).digits *
        10 ^ (searchGrid (interval mantissa binary) binary (steps + 1) start).exponent) := by
  have found (steps : Nat) (start : ℤ) {point : Nat}
      (point? : gridPoint? (interval mantissa binary) (unitOf binary start) (gridOf binary start) =
        some point) :
      (interval mantissa binary).Covers binary
        ((searchGrid (interval mantissa binary) binary (steps + 1) start).digits *
          10 ^ (searchGrid (interval mantissa binary) binary (steps + 1) start).exponent) := by
    have first : searchGrid (interval mantissa binary) binary (steps + 1) start = ⟨point, start⟩ := by
      unfold unitOf gridOf at point?
      rw [searchGrid, point?]
    rw [first]
    exact (holds_iff _ _ _ _).1 (gridPoint?_holds point?)
  induction steps generalizing start with
  | zero =>
    rw [Nat.cast_zero, sub_zero] at fine
    have filled : 0 < gridOf binary start := by
      unfold gridOf
      simp only [Nat.pow_eq]
      positivity
    have narrow : gridOf binary start < 2 * unitOf binary start := by
      obtain ⟨scale, scaled, unit, grid⟩ := exists_scale binary start
      have cast : (gridOf binary start : ℚ) < 2 * unitOf binary start := by
        rw [unit, grid, ← mul_assoc, ← two_zpow_sub_one]
        exact mul_lt_mul_of_pos_right fine scaled
      exact_mod_cast cast
    obtain ⟨point, point?⟩ :=
      Option.ne_none_iff_exists'.1 (@gridPoint?_ne_none mantissa binary positive _ _ filled narrow)
    exact found 0 start point?
  | succ steps ih =>
    cases point? : gridPoint? (interval mantissa binary) (unitOf binary start) (gridOf binary start) with
    | some point => exact found (steps + 1) start point?
    | none =>
      have later : searchGrid (interval mantissa binary) binary (steps + 1 + 1) start =
          searchGrid (interval mantissa binary) binary (steps + 1) (start - 1) := by
        unfold unitOf gridOf at point?
        rw [searchGrid, point?]
      rw [later]
      refine ih ?_
      rwa [Nat.cast_succ, add_comm, ← sub_sub] at fine

theorem ten_zpow_le {n m : Nat} (filled : 0 < m) (less : 10 ^ n ≤ 2 ^ m) (near : 2 ^ m ≤ 2 * 10 ^ n)
    {k : ℤ} (bound : -m ≤ k) : (10 : ℚ) ^ (k * n / m) ≤ 2 * 2 ^ k := by
  have floor : k * n / m * m ≤ k * n := Int.ediv_mul_le _ (by omega)
  have lessCast : (10 : ℚ) ^ n ≤ 2 ^ m := by exact_mod_cast less
  have nearCast : (2 : ℚ) ^ m ≤ 2 * 10 ^ n := by exact_mod_cast near
  rw [← pow_le_pow_iff_left₀ (by positivity) (by positivity) filled.ne']
  calc ((10 : ℚ) ^ (k * n / m)) ^ m = 10 ^ (k * n / m * m) := by rw [zpow_mul, zpow_natCast]
    _ ≤ 10 ^ (k * n) := zpow_le_zpow_right₀ (by norm_num) floor
    _ = (10 ^ n) ^ k := by rw [mul_comm, zpow_mul, zpow_natCast]
    _ ≤ 2 ^ m * (2 ^ m) ^ k := by
      rcases le_total 0 k with nonnegative | negative
      · calc ((10 : ℚ) ^ n) ^ k ≤ (2 ^ m) ^ k := zpow_le_zpow_left₀ nonnegative (by positivity) lessCast
          _ ≤ 2 ^ m * (2 ^ m) ^ k := le_mul_of_one_le_left (by positivity) (one_le_pow₀ one_le_two)
      · obtain ⟨j, rfl⟩ : ∃ j : Nat, k = -j := ⟨k.natAbs, by omega⟩
        rw [zpow_neg, zpow_neg, zpow_natCast, zpow_natCast, ← div_eq_mul_inv, le_div_iff₀ (by positivity),
          inv_mul_le_iff₀ (by positivity), mul_comm]
        calc ((2 : ℚ) ^ m) ^ j ≤ (2 * 10 ^ n) ^ j := pow_le_pow_left₀ (by positivity) nearCast j
          _ = 2 ^ j * (10 ^ n) ^ j := mul_pow ..
          _ ≤ 2 ^ m * (10 ^ n) ^ j := by
            gcongr
            · norm_num
            · omega
    _ = (2 * 2 ^ k) ^ m := by
      rw [mul_pow, ← zpow_natCast (2 ^ k) m, ← zpow_mul, mul_comm k, zpow_mul, zpow_natCast]

/-- The shortest decimal of a number reads back. -/
theorem covers_shortest {mantissa : Nat} {exponent : ℤ} (canonical : Canonical mantissa exponent) :
    (interval mantissa exponent).Covers exponent
      ((shortest mantissa exponent).digits * 10 ^ (shortest mantissa exponent).exponent) := by
  unfold shortest
  dsimp only
  refine covers_searchGrid canonical.positive ?_
  have size : mantissa.log2 ≤ 52 := by
    have small := canonical.small
    have bound := (Nat.log2_lt canonical.positive.ne').2 (show mantissa < 2 ^ 53 from small)
    omega
  have least : -1074 ≤ exponent := canonical.least
  have place := ten_zpow_le (n := 1233) (m := 4096) (by decide) (by decide +kernel) (by decide +kernel)
    (k := mantissa.log2 + exponent) (by push_cast; omega)
  rw [Nat.cast_ofNat, Nat.cast_ofNat] at place
  generalize ((mantissa.log2 : ℤ) + exponent) * 1233 / 4096 = p at place ⊢
  calc (10 : ℚ) ^ (p + 2 - (23 : Nat)) = 10 ^ p / 10 ^ 21 := by
        rw [show p + 2 - (23 : Nat) = p - (21 : Nat) by push_cast; ring, zpow_sub₀ (by norm_num),
          zpow_natCast]
    _ ≤ 2 * 2 ^ ((mantissa.log2 : ℤ) + exponent) / 10 ^ 21 := by gcongr
    _ ≤ 2 * 2 ^ (52 + exponent) / 10 ^ 21 := by
      gcongr
      · norm_num
      · exact_mod_cast size
    _ = 2 ^ (exponent - 1) * (2 ^ 54 / 10 ^ 21) := by
      rw [show 52 + exponent = (exponent - 1) + (53 : Nat) by push_cast; ring, zpow_add₀ two_ne_zero,
        zpow_natCast]
      ring
    _ < 2 ^ (exponent - 1) := by
      refine mul_lt_of_lt_one_right (by positivity) ?_
      norm_num

end Reckoner.Number
