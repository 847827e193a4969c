import SceneReader.Proofs.Transform.Rigid

/-!
# Real scalars

What is known of the real numbers as scalars beyond the laws of an exact scalar: the bound on
lengths is below a half.

**Results.**
* `toReal_lt_half`: a binary number is below a half if its mantissa has fewer digits than it is
  shifted, and one less.
* `epsilon_lt_half`, `epsilon_lt_one`, `isShort_one`: a length of a half or of one is not short.
-/

namespace SceneReader

namespace Number

theorem toReal_lt_half {x : Float} {bits : Nat} (hf : isFinite x = true) (hs : signBit x = false)
    (hm : (Binary.ofFloat x).mantissa < 2 ^ bits)
    (he : (Binary.ofFloat x).exponent = -(bits + 1 : Nat)) : toReal x < 1 / 2 := by
  have hpow : (0 : ℝ) < 2 ^ (bits + 1) := by positivity
  have hmantissa : ((Binary.ofFloat x).mantissa : ℝ) < 2 ^ bits := by exact_mod_cast hm
  simp only [toReal, hf, hs, he, if_true, Bool.false_eq_true, if_false, one_mul, zpow_neg,
    zpow_natCast]
  rw [← div_eq_mul_inv, div_lt_iff₀ hpow, pow_succ]
  linarith

end Number

namespace Scalar

theorem epsilon_lt_half : (Scalar.epsilon : ℝ) < 1 / 2 :=
  Number.toReal_lt_half (by decide +kernel) (by decide +kernel)
    (by decide +kernel : (Number.Binary.ofFloat 1e-12).mantissa < 2 ^ 91) (by decide +kernel)

theorem epsilon_lt_one : (Scalar.epsilon : ℝ) < 1 := epsilon_lt_half.trans one_half_lt_one

end Scalar

namespace Frame

theorem isShort_one : isShort (1 : ℝ) = false :=
  isShort_eq_false_iff.mpr Scalar.epsilon_lt_one.le

end Frame
end SceneReader
