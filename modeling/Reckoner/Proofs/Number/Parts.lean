import Mathlib
import Reckoner.Proofs.Number.Layouts

/-!
Numbers read back. The bits of a number are those of its parts, and the parts of a finite number are
canonical, so the text of the number in a document is read as the number itself. No narrower import than
that of the whole library has the lemma that a number is made of its bits.
-/
namespace Reckoner.Number
open Float.Model.UnpackedFloat

theorem eq_ofBits (x : Float) : x = Float.ofBits (UInt64.ofNat x.toBits.toNat) := by
  rw [UInt64.ofNat_toNat, Float.ofBits_toBits]

/-- A finite number is made of its parts. -/
theorem of_parts_finite {x : Float} {negative : Bool} {mantissa : Nat} {exponent : ℤ}
    (finite : parts x = .finite negative mantissa exponent) :
    x = ofMagnitude negative (magnitude mantissa exponent) ∧
      (mantissa = 0 ∧ exponent = leastExponent ∨ Canonical mantissa exponent) := by
  have bound := UInt64.toNat_lt x.toBits
  have whole := eq_ofBits x
  have bit : hiddenBit = 4503599627370496 := rfl
  have sign : Nat.pow 2 63 = 9223372036854775808 := rfl
  unfold parts at finite
  dsimp only at finite
  generalize x.toBits.toNat = bits at *
  have signed (rest : Nat) (same : bits % Nat.pow 2 63 = rest) :
      bits = if decide (bits ≥ Nat.pow 2 63) = true then Nat.pow 2 63 + rest else rest := by
    rw [sign] at same ⊢
    by_cases above : bits ≥ 9223372036854775808
    · simp only [above, decide_true, if_true]
      omega
    · simp only [above, decide_false, Bool.false_eq_true, if_false]
      omega
  split at finite
  · split at finite <;> cases finite
  · rename_i other
    rw [bit] at other
    split at finite
    · rename_i zero
      rw [bit] at zero
      cases finite
      have same : bits % Nat.pow 2 63 = magnitude (bits % hiddenBit) leastExponent := by
        simp only [magnitude, sub_self, Int.toNat_zero, Nat.zero_mul, Nat.zero_add, bit, sign]
        omega
      refine ⟨?_, ?_⟩
      · rw [whole, ofMagnitude, ← signed _ same]
      · by_cases none : bits % hiddenBit = 0
        · exact .inl ⟨none, rfl⟩
        · refine .inr ⟨Nat.pos_of_ne_zero none, ?_, le_rfl, by decide, .inr rfl⟩
          rw [bit]
          omega
    · rename_i some
      rw [bit] at some
      cases finite
      have same : bits % Nat.pow 2 63 =
          magnitude (hiddenBit + bits % hiddenBit) ((bits / hiddenBit % 2048 : Nat) - 1075) := by
        simp only [magnitude, leastExponent, bit, sign]
        omega
      refine ⟨?_, .inr ⟨?_, ?_, ?_, ?_, ?_⟩⟩
      · rw [whole, ofMagnitude, ← signed _ same]
      all_goals
        simp only [leastExponent, bit]
        omega

/-- There is one number that is not a number. -/
theorem of_parts_nan {x : Float} (nan : parts x = .nan) : x = notNumber := by
  have bit : hiddenBit = 4503599627370496 := rfl
  obtain ⟨field, fraction⟩ :
      x.toBits.toNat / hiddenBit % 2048 = 2047 ∧ x.toBits.toNat % hiddenBit ≠ 0 := by
    unfold parts at nan
    dsimp only at nan
    split at nan
    · split at nan
      · cases nan
      · rename_i field fraction
        exact ⟨field, fraction⟩
    · split at nan <;> cases nan
  have exponent : @unpackExponent .binary64 x.toBits.toBitVec = -1#11 := by
    rw [unpackExponent_def]
    apply BitVec.eq_of_toNat_eq
    rw [BitVec.extractLsb'_toNat, Nat.shiftRight_eq_div_pow]
    exact field
  have mantissa : @unpackMantissa .binary64 x.toBits.toBitVec ≠ 0#52 := by
    rw [unpackMantissa_def]
    intro zero
    have same := congrArg BitVec.toNat zero
    rw [BitVec.extractLsb'_toNat] at same
    exact fraction same
  have bits : x.toBits = 0x7ff8000000000000 :=
    UInt64.toBitVec_inj.1 (x.toModel.valid.eq_packedNaN exponent mantissa)
  rw [eq_ofBits x, bits]
  rfl

theorem of_parts_infinite {x : Float} {negative : Bool} (infinite : parts x = .infinite negative) :
    x = signedInfinity negative := by
  have bound := UInt64.toNat_lt x.toBits
  have whole := eq_ofBits x
  have bit : hiddenBit = 4503599627370496 := rfl
  unfold parts at infinite
  dsimp only at infinite
  generalize x.toBits.toNat = bits at *
  split at infinite
  · rename_i field
    split at infinite
    · rename_i fraction
      cases infinite
      rw [bit] at field fraction
      by_cases above : bits ≥ Nat.pow 2 63
      · have same : bits = 0xfff0000000000000 := by
          have sign : Nat.pow 2 63 = 9223372036854775808 := rfl
          omega
        rw [whole, same]
        rfl
      · have same : bits = 0x7ff0000000000000 := by
          have sign : Nat.pow 2 63 = 9223372036854775808 := rfl
          omega
        rw [whole, same]
        rfl
    · cases infinite
  · split at infinite <;> cases infinite

/-- The text of a finite number in a document is laid out as a decimal that is read as the number. -/
theorem exists_layout {x : Float} {negative : Bool} {mantissa : Nat} {exponent : ℤ}
    (finite : parts x = .finite negative mantissa exponent) :
    ∃ layout : Layout,
      (Style.document.write x).toList = (if negative then ['-'] else []) ++ layout.chars ∧
        layout.Proper ∧ decimal? negative layout.chars = some x := by
  obtain ⟨same, ⟨rfl, rfl⟩ | canonical⟩ := of_parts_finite finite
  · refine ⟨⟨['0'], ['0'], none⟩, ?_, ⟨⟨by simp, by simp, by simp⟩, .inr rfl, .inl (by simp)⟩, ?_⟩
    · cases negative <;> simp [Style.write, finite, Layout.chars, Layout.pointed, Layout.marked]
    · rw [same]
      cases negative <;> rfl
  · have positive := digits_pos ((covers_shortest canonical).positive canonical.positive)
    have filled := significant_ne_nil positive
    have proper := proper_layoutOf filled (fun _ => isDigit_significant) (head?_significant positive)
      (leadingPlace (shortest mantissa exponent))
    refine ⟨_, ?_, proper, ?_⟩
    · obtain ⟨before, rfl⟩ := Nat.exists_eq_succ_of_ne_zero canonical.positive.ne'
      rw [← digitsText_eq filled]
      simp only [Style.write, finite]
      cases negative <;> simp [leadingPlace]
    · rw [decimal?_shortest canonical, ← same]

end Reckoner.Number
