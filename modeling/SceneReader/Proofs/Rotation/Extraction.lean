import SceneReader.Proofs.Algebra.RealScalar
import SceneReader.Proofs.Rotation.Proper
import SceneReader.Rotation.Quaternion

/-!
# Quaternions of rotation matrices

The entries of a rotation matrix are sums of products of two parts of its quaternion.  Taken the
other way round, four times such a product is a sum of entries of the matrix.  The quaternion is
found again from the products with one of its parts, the pivot: the square of the pivot is under the
root, and the other products are divided by it.  The pivot is chosen so that four times its square is
at least one, for any matrix whatever.

**Results.**
* `Represents.toMatrix_eq`, `Represents.eq_or_eq_neg`: the products determine the matrix, and the
  quaternion up to its sign.
* `part_extract`: what is extracted, in terms of the pivot.
* `one_le_products_pivot`: the root is taken of a number that is not below one.
* `represents_ofMatrix`: the quaternion of a matrix has the products of the matrix.
* `products_mul_products`: in a rotation, products of products can be exchanged.
* `ofMatrix_toMatrix`: the quaternion of the matrix of a quaternion.
-/

namespace SceneReader
namespace Quaternion

/-- The parts of a quaternion. -/
inductive Part where
  | w
  | x
  | y
  | z
deriving DecidableEq

/-- The number that a part is. -/
def part {K : Type} (q : Quaternion K) : Part → K
  | .w => q.w
  | .x => q.x
  | .y => q.y
  | .z => q.z

theorem part_neg {K : Type} [Scalar K] (q : Quaternion K) (i : Part) :
    q.neg.part i = -q.part i := by
  cases i <;> rfl

theorem ext_part {K : Type} {p q : Quaternion K} (h : ∀ i, p.part i = q.part i) : p = q := by
  cases p
  cases q
  congr 1
  · exact h .w
  · exact h .x
  · exact h .y
  · exact h .z

variable {K : Type} [ExactScalar K]

/-- What four times the product of two parts is, read off a matrix. -/
def products (r : Matrix3 K) : Part → Part → K
  | .w, .w => r.r0.x + r.r1.y + r.r2.z + 1
  | .x, .x => 1 + r.r0.x - r.r1.y - r.r2.z
  | .y, .y => 1 + r.r1.y - r.r0.x - r.r2.z
  | .z, .z => 1 + r.r2.z - r.r0.x - r.r1.y
  | .w, .x | .x, .w => r.r2.y - r.r1.z
  | .w, .y | .y, .w => r.r0.z - r.r2.x
  | .w, .z | .z, .w => r.r1.x - r.r0.y
  | .x, .y | .y, .x => r.r0.y + r.r1.x
  | .x, .z | .z, .x => r.r0.z + r.r2.x
  | .y, .z | .z, .y => r.r1.z + r.r2.y

/-- Four times the products of the parts of the quaternion are those of the matrix. -/
def Represents (q : Quaternion K) (r : Matrix3 K) : Prop :=
  ∀ i j, four * (q.part i * q.part j) = products r i j

/-- The part of which the square is under the root. -/
def pivot (r : Matrix3 K) : Part :=
  if Scalar.less 0 (r.r0.x + r.r1.y + r.r2.z) then .w
  else if Scalar.less r.r1.y r.r0.x && Scalar.less r.r2.z r.r0.x then .x
  else if Scalar.less r.r2.z r.r1.y then .y
  else .z

/-- What the products with the pivot are divided by. -/
def divisor (r : Matrix3 K) : K := Scalar.sqrt (products r (pivot r) (pivot r)) * Scalar.two

theorem four_ne_zero : (four : K) ≠ 0 := by
  unfold four Scalar.two
  positivity

/-! ## The products determine the quaternion -/

section Represents

variable {p q : Quaternion K} {r : Matrix3 K}

theorem represents_toMatrix (hq : q.dot q = 1) : Represents q q.toMatrix := by
  simp only [dot] at hq
  intro i j
  cases i <;> cases j <;> simp only [part, products, toMatrix, four, Scalar.two] <;> grind

theorem Represents.dot_self (h : Represents q r) : q.dot q = 1 := by
  have hsum : four * q.dot q = four * 1 := by
    calc four * q.dot q = four * (q.w * q.w) + four * (q.x * q.x) + four * (q.y * q.y) +
            four * (q.z * q.z) := by
          simp only [dot]
          ring
      _ = products r .w .w + products r .x .x + products r .y .y + products r .z .z := by
          rw [← h .w .w, ← h .x .x, ← h .y .y, ← h .z .z]
          rfl
      _ = four * 1 := by
          simp only [products, four, Scalar.two]
          ring
  exact mul_left_cancel₀ four_ne_zero hsum

theorem Represents.toMatrix_eq (h : Represents q r) : q.toMatrix = r := by
  have hww := h .w .w
  have hxx := h .x .x
  have hyy := h .y .y
  have hzz := h .z .z
  have hwx := h .w .x
  have hwy := h .w .y
  have hwz := h .w .z
  have hxy := h .x .y
  have hxz := h .x .z
  have hyz := h .y .z
  simp only [part, products, four, Scalar.two] at hww hxx hyy hzz hwx hwy hwz hxy hxz hyz
  simp only [toMatrix, Scalar.two]
  ext <;> grind

/-- Products of products with one part do not depend on that part but for its square. -/
theorem Represents.products_mul_products (h : Represents q r) (b i j : Part) :
    products r b i * products r b j = products r b b * products r i j := by
  rw [← h b i, ← h b j, ← h b b, ← h i j]
  ring

theorem Represents.neg (h : Represents q r) : Represents q.neg r := by
  intro i j
  rw [part_neg, part_neg, neg_mul_neg, h]

theorem Represents.canonical (h : Represents q r) : Represents q.canonical r := by
  unfold Quaternion.canonical
  split
  · exact h.neg
  · exact h

theorem canonical_w_nonneg (q : Quaternion K) : 0 ≤ q.canonical.w := by
  unfold Quaternion.canonical
  split
  · rename_i hw
    rw [ExactScalar.less_iff] at hw
    exact neg_nonneg.mpr hw.le
  · rename_i hw
    rwa [ExactScalar.less_iff, not_lt] at hw

end Represents

/-! ## Extraction -/

section Extract

variable {r : Matrix3 K}

/-- The pivot of what is extracted is the divisor divided by four, and every other part is its
product with the pivot divided by the divisor. -/
theorem part_extract (r : Matrix3 K) (i : Part) :
    (extract r).part i =
      if i = pivot r then divisor r / four else products r (pivot r) i / divisor r := by
  unfold extract divisor pivot
  dsimp only
  split
  · cases i <;> rfl
  · split
    · cases i <;> rfl
    · split <;> cases i <;> rfl

/-- Four times the square of the pivot is not below one: all four of these numbers are four
together, and the one that is chosen is as large as the others, or it is above one. -/
theorem one_le_products_pivot (r : Matrix3 K) : 1 ≤ products r (pivot r) (pivot r) := by
  unfold pivot
  split
  · rename_i hw
    rw [ExactScalar.less_iff] at hw
    simp only [products]
    linarith
  · rename_i hw
    rw [ExactScalar.less_iff, not_lt] at hw
    split
    · rename_i hx
      rw [Bool.and_eq_true, ExactScalar.less_iff, ExactScalar.less_iff] at hx
      simp only [products]
      linarith [hx.1, hx.2]
    · rename_i hx
      rw [Bool.and_eq_true, ExactScalar.less_iff, ExactScalar.less_iff, not_and_or, not_lt,
        not_lt] at hx
      split
      · rename_i hy
        rw [ExactScalar.less_iff] at hy
        simp only [products]
        rcases hx with hx | hx <;> linarith
      · rename_i hy
        rw [ExactScalar.less_iff, not_lt] at hy
        simp only [products]
        rcases hx with hx | hx <;> linarith

theorem divisor_mul_divisor (r : Matrix3 K) :
    divisor r * divisor r = four * products r (pivot r) (pivot r) := by
  have hpos := zero_le_one.trans (one_le_products_pivot r)
  calc divisor r * divisor r
      = Scalar.sqrt (products r (pivot r) (pivot r)) *
          Scalar.sqrt (products r (pivot r) (pivot r)) * (Scalar.two * Scalar.two) := by
        unfold divisor
        ring
    _ = products r (pivot r) (pivot r) * (Scalar.two * Scalar.two) := by
        rw [ExactScalar.sqrt_mul_sqrt _ hpos]
    _ = four * products r (pivot r) (pivot r) := by
        unfold four Scalar.two
        ring

/-- The divisor is at least two on one side of zero. -/
theorem two_le_abs_divisor (r : Matrix3 K) : 2 ≤ |divisor r| := by
  have hsquare := divisor_mul_divisor r
  have hone := one_le_products_pivot r
  unfold four Scalar.two at hsquare
  have hle : 2 * 2 ≤ |divisor r| * |divisor r| := by
    rw [abs_mul_abs_self, hsquare]
    linarith
  exact (mul_self_le_mul_self_iff two_pos.le (abs_nonneg _)).mpr hle

theorem divisor_ne_zero (r : Matrix3 K) : divisor r ≠ 0 :=
  abs_pos.mp (two_pos.trans_le (two_le_abs_divisor r))

/-- The pivot is its square divided by the divisor, like the other parts. -/
theorem part_extract_eq_div (r : Matrix3 K) (i : Part) :
    (extract r).part i = products r (pivot r) i / divisor r := by
  rw [part_extract]
  split
  · rename_i hi
    rw [hi, div_eq_div_iff four_ne_zero (divisor_ne_zero r), divisor_mul_divisor, mul_comm]
  · rfl

/-- What is extracted has the products of the matrix, if these are products at all. -/
theorem represents_extract
    (h : ∀ b i j, products r b i * products r b j = products r b b * products r i j) :
    Represents (extract r) r := by
  intro i j
  have hpivot : products r (pivot r) (pivot r) ≠ 0 :=
    (zero_lt_one.trans_le (one_le_products_pivot r)).ne'
  calc four * ((extract r).part i * (extract r).part j)
      = four * (products r (pivot r) i * products r (pivot r) j) /
          (divisor r * divisor r) := by
        rw [part_extract_eq_div, part_extract_eq_div]
        ring
    _ = four * (products r (pivot r) (pivot r) * products r i j) /
          (four * products r (pivot r) (pivot r)) := by rw [h, divisor_mul_divisor]
    _ = products r i j := by
        rw [← mul_assoc, mul_div_cancel_left₀ _ (mul_ne_zero four_ne_zero hpivot)]

/-- Quaternions with the same products are the same up to the sign. -/
theorem Represents.eq_or_eq_neg {p q : Quaternion K} (hp : Represents p r) (hq : Represents q r) :
    p = q ∨ p = q.neg := by
  have hsame (i j : Part) : p.part i * p.part j = q.part i * q.part j :=
    mul_left_cancel₀ four_ne_zero ((hp i j).trans (hq i j).symm)
  -- the pivot is not zero
  have hpivot : q.part (pivot r) ≠ 0 := by
    intro hzero
    have hone := one_le_products_pivot r
    rw [← hq, hzero, mul_zero, mul_zero] at hone
    exact absurd hone (not_le.mpr zero_lt_one)
  rcases mul_self_eq_mul_self_iff.mp (hsame (pivot r) (pivot r)) with heq | heq
  · left
    refine ext_part fun i => mul_right_cancel₀ hpivot ?_
    rw [← hsame i (pivot r), heq]
  · right
    refine ext_part fun i => mul_right_cancel₀ hpivot ?_
    have hi := hsame i (pivot r)
    rw [heq, mul_neg] at hi
    rw [part_neg, neg_mul, ← hi, neg_neg]

end Extract

/-! ## Rotation matrices -/

/-- In a rotation, products of products are products. -/
theorem products_mul_products {r : Matrix3 K} (h : r.IsRotation) (b i j : Part) :
    products r b i * products r b j = products r b b * products r i j := by
  have hcolumns := h.orthogonal
  have hrows := h.mul_transpose
  have hcofactors := h.cofactors_eq
  simp only [Matrix3.IsOrthogonal, Matrix3.mul_eq, Matrix3.transpose, Matrix3.identity,
    Matrix3.cofactors, Vec3.cross, Matrix3.ext_iff, Vec3.ext_iff] at hcolumns hrows hcofactors
  cases b <;> cases i <;> cases j <;> simp only [products] <;> grind

/-! ## Real quaternions -/

section Real

variable {p q : Quaternion ℝ} {r : Matrix3 ℝ}

theorem norm_eq_one_iff : q.norm = 1 ↔ q.dot q = 1 :=
  Real.sqrt_eq_one

/-- A quaternion of length one is not changed by division by its length. -/
theorem normalized_of_norm (hq : q.norm = 1) : q.normalized = q := by
  have hlong : Frame.isShort q.norm = false := hq ▸ Frame.isShort_one
  unfold normalized
  rw [hlong, hq]
  exact ext_part fun i => by cases i <;> exact div_one _

theorem represents_ofMatrix
    (h : ∀ b i j, products r b i * products r b j = products r b b * products r i j) :
    Represents (ofMatrix r) r := by
  have hextract := represents_extract h
  unfold ofMatrix
  rw [normalized_of_norm (norm_eq_one_iff.mpr hextract.dot_self)]
  exact hextract.canonical

/-- The quaternion that is found from the matrix of a quaternion of length one is this quaternion or
its opposite, whichever has a real part that is not negative.  On the way the root is taken of a
positive number, and what is divided by is at least two on one side of zero, whichever part is the
pivot. -/
theorem ofMatrix_toMatrix (q : Quaternion ℝ) (hq : q.norm = 1) :
    let r := q.toMatrix
    let b := pivot r
    let s := Scalar.sqrt (products r b b) * Scalar.two
    (ofMatrix r = q ∨ ofMatrix r = q.neg) ∧ 0 ≤ (ofMatrix r).w ∧ (0 < q.w → ofMatrix r = q) ∧
      0 < products r b b ∧ 2 ≤ |s| ∧
      (∀ i, (extract r).part i = if i = b then s / four else products r b i / s) ∧
      (extract r).norm = 1 := by
  intro r b s
  have hrepresents : Represents q r := represents_toMatrix (norm_eq_one_iff.mp hq)
  have hproducts := hrepresents.products_mul_products
  have heq : ofMatrix r = q ∨ ofMatrix r = q.neg :=
    (represents_ofMatrix hproducts).eq_or_eq_neg hrepresents
  have hw : 0 ≤ (ofMatrix r).w := canonical_w_nonneg _
  refine ⟨heq, hw, fun hpos => heq.resolve_right fun hneg => ?_,
    zero_lt_one.trans_le (one_le_products_pivot r), two_le_abs_divisor r, part_extract r,
    norm_eq_one_iff.mpr (represents_extract hproducts).dot_self⟩
  -- the opposite quaternion has a negative real part
  rw [hneg] at hw
  exact absurd hpos (not_lt.mpr (neg_nonneg.mp hw))

/-- All parts have one size, so that all entries of the diagonal are zero, and the last part is the
pivot. -/
theorem ofMatrix_toMatrix_tied :
    let q : Quaternion ℝ := ⟨-1 / 2, 1 / 2, -1 / 2, 1 / 2⟩
    q.norm = 1 ∧ ofMatrix q.toMatrix = q.neg := by
  intro q
  have hq : q.norm = 1 := norm_eq_one_iff.mpr (by norm_num [q, dot])
  obtain ⟨heq, hw, -⟩ := ofMatrix_toMatrix q hq
  refine ⟨hq, heq.resolve_left fun hsame => ?_⟩
  rw [hsame] at hw
  norm_num [q] at hw

end Real

end Quaternion
end SceneReader
