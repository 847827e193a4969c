import Mathlib.Analysis.SpecialFunctions.Complex.Arg
import Mathlib.Analysis.SpecialFunctions.Trigonometric.Inverse
import SceneReader.Algebra.Vector
import SceneReader.Number.Binary

/-!
# Exact scalars

The geometry is written over an interface of numbers that binary floating point
implements with rounding.  An exact scalar implements the same interface without: an
ordered field whose comparisons are true when they say so, with square roots of what is
not negative and with sines and cosines on the unit circle.  What is proved over exact
scalars is said of the definitions that run; only the rounding is left out.

Finiteness is left open.  A scalar may call any number infinite, and refuse it as the
reader of scenes does.

**Results.**
* `instExactScalarReal`: the real numbers are exact scalars.
* `dot_unit`: a vector that is long enough has length one when it is divided by its length.
-/

namespace SceneReader

/-- Scalars that compute without rounding. -/
class ExactScalar (K : Type) extends Scalar K, Field K, LinearOrder K, IsStrictOrderedRing K where
  less_iff (a b : K) : Scalar.less a b = true ↔ a < b
  same_iff (a b : K) : Scalar.same a b = true ↔ a = b
  sqrt_mul_sqrt (a : K) : 0 ≤ a → Scalar.sqrt a * Scalar.sqrt a = a
  sin_cos (a : K) : Scalar.sin a * Scalar.sin a + Scalar.cos a * Scalar.cos a = 1
  /-- The bound on lengths lets no zero through. -/
  epsilon_pos : (0 : K) < Scalar.ofFloat 1e-12

namespace Number

/-- The real number that a finite floating point value is; zero for the others. -/
noncomputable def toReal (x : Float) : ℝ :=
  if isFinite x then
    (if signBit x then -1 else 1) *
      ((Binary.ofFloat x).mantissa * 2 ^ (Binary.ofFloat x).exponent)
  else 0

theorem toReal_pos {x : Float} (hf : isFinite x = true) (hs : signBit x = false)
    (hm : 0 < (Binary.ofFloat x).mantissa) : 0 < toReal x := by
  simp only [toReal, hf, hs, if_true, Bool.false_eq_true, if_false, one_mul]
  positivity

theorem toReal_epsilon_pos : 0 < toReal 1e-12 :=
  toReal_pos (by decide +kernel) (by decide +kernel) (by decide +kernel)

end Number

/-- The real numbers compute without rounding, and none of them is infinite. -/
noncomputable instance instExactScalarReal : ExactScalar ℝ where
  __ := (inferInstance : Field ℝ)
  __ := (inferInstance : LinearOrder ℝ)
  __ := (inferInstance : IsStrictOrderedRing ℝ)
  ofFloat := Number.toReal
  sqrt := Real.sqrt
  sin := Real.sin
  cos := Real.cos
  arcsin := Real.arcsin
  angleOf y x := Complex.arg ⟨x, y⟩
  pi := Real.pi
  less a b := decide (a < b)
  same a b := decide (a = b)
  isFinite _ := true
  isInfinite _ := false
  less_iff _ _ := decide_eq_true_iff
  same_iff _ _ := decide_eq_true_iff
  sqrt_mul_sqrt _ h := Real.mul_self_sqrt h
  sin_cos a := by
    have h := Real.sin_sq_add_cos_sq a
    rw [pow_two, pow_two] at h
    exact h
  epsilon_pos := Number.toReal_epsilon_pos

namespace Vec3

variable {K : Type} [ExactScalar K]

theorem dot_self_nonneg (v : Vec3 K) : 0 ≤ v.dot v := by
  have hx := mul_self_nonneg v.x
  have hy := mul_self_nonneg v.y
  have hz := mul_self_nonneg v.z
  exact add_nonneg (add_nonneg hx hy) hz

theorem length_mul_length (v : Vec3 K) : v.length * v.length = v.dot v :=
  ExactScalar.sqrt_mul_sqrt _ v.dot_self_nonneg

/-- The length that passes the test for being short is not zero. -/
theorem length_ne_zero {v : Vec3 K} (h : Scalar.less v.length Scalar.epsilon = false) :
    v.length ≠ 0 := by
  intro h0
  have hless : Scalar.less v.length Scalar.epsilon = true := by
    rw [ExactScalar.less_iff, h0]
    exact ExactScalar.epsilon_pos
  rw [h] at hless
  cases hless

theorem dot_divided (v w : Vec3 K) (s : K) : (v.divided s).dot w = v.dot w / s := by
  simp only [dot, divided]
  ring

/-- A vector divided by its length has length one. -/
theorem dot_unit {v : Vec3 K} (h : Scalar.less v.length Scalar.epsilon = false) :
    (v.divided v.length).dot (v.divided v.length) = 1 := by
  have hne := length_ne_zero h
  have hsq := length_mul_length v
  have hdiv : (v.divided v.length).dot (v.divided v.length) =
      v.dot v / (v.length * v.length) := by
    simp only [dot, divided]
    field_simp
  rw [hdiv, ← hsq, div_self (mul_ne_zero hne hne)]

end Vec3
end SceneReader
