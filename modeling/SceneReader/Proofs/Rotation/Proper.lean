import SceneReader.Proofs.Transform.Rigid

/-!
# Rotation matrices

A rotation is an orthogonal matrix of determinant one.  Its columns are orthonormal by definition;
that its rows are orthonormal as well, and that each entry is its own cofactor, follows from the
product of a matrix with its cofactors.

**Results.**
* `mul_eq`, `det_eq`: products and determinants in terms of the entries.
* `mul_cofactors_transpose`: a matrix times its transposed cofactors is its determinant.
* `IsOrthogonal.cofactors_eq`, `IsOrthogonal.det_mul_det`: the cofactors and the determinant of an
  orthogonal matrix.
* `IsRotation.cofactors_eq`, `IsRotation.mul_transpose`: entries are cofactors, rows are
  orthonormal.
* `isRotation_ofColumns_cross`: orthonormal vectors and their cross product are the columns of a
  rotation.
* `IsRotation.mul`: rotations one after the other are a rotation.
* `IsRotation.scaleColumns`: a rotation stays one when an even number of its columns is turned
  round.
-/

namespace SceneReader
namespace Matrix3

variable {K : Type} [ExactScalar K]

/-- The entries of a product. -/
theorem mul_eq (a b : Matrix3 K) : a.mul b =
    ⟨⟨a.r0.x * b.r0.x + a.r0.y * b.r1.x + a.r0.z * b.r2.x,
      a.r0.x * b.r0.y + a.r0.y * b.r1.y + a.r0.z * b.r2.y,
      a.r0.x * b.r0.z + a.r0.y * b.r1.z + a.r0.z * b.r2.z⟩,
     ⟨a.r1.x * b.r0.x + a.r1.y * b.r1.x + a.r1.z * b.r2.x,
      a.r1.x * b.r0.y + a.r1.y * b.r1.y + a.r1.z * b.r2.y,
      a.r1.x * b.r0.z + a.r1.y * b.r1.z + a.r1.z * b.r2.z⟩,
     ⟨a.r2.x * b.r0.x + a.r2.y * b.r1.x + a.r2.z * b.r2.x,
      a.r2.x * b.r0.y + a.r2.y * b.r1.y + a.r2.z * b.r2.y,
      a.r2.x * b.r0.z + a.r2.y * b.r1.z + a.r2.z * b.r2.z⟩⟩ := rfl

/-- The determinant, by the first row. -/
theorem det_eq (m : Matrix3 K) : m.det =
    m.r0.x * (m.r1.y * m.r2.z - m.r1.z * m.r2.y) + m.r0.y * (m.r1.z * m.r2.x - m.r1.x * m.r2.z) +
      m.r0.z * (m.r1.x * m.r2.y - m.r1.y * m.r2.x) := rfl

theorem mul_assoc (a b c : Matrix3 K) : (a.mul b).mul c = a.mul (b.mul c) := by
  simp only [mul_eq]
  ext <;> ring

@[simp] theorem identity_mul (a : Matrix3 K) : identity.mul a = a := by
  simp only [mul_eq, identity]
  ext <;> ring

theorem transpose_mul (a b : Matrix3 K) : (a.mul b).transpose = b.transpose.mul a.transpose := by
  simp only [mul_eq, transpose]
  ext <;> ring

theorem det_mul (a b : Matrix3 K) : (a.mul b).det = a.det * b.det := by
  simp only [det_eq, mul_eq]
  ring

theorem det_transpose (m : Matrix3 K) : m.transpose.det = m.det := by
  simp only [det_eq, transpose]
  ring

theorem det_identity : (identity : Matrix3 K).det = 1 := by
  simp only [det_eq, identity]
  ring

/-- A matrix times its transposed cofactors is a multiple of the identity, by the determinant. -/
theorem mul_cofactors_transpose (m : Matrix3 K) :
    m.mul m.cofactors.transpose = identity.map (m.det * ·) := by
  simp only [mul_eq, det_eq, cofactors, Vec3.cross, transpose, map, Vec3.map, identity]
  ext <;> ring

theorem mul_map_identity (m : Matrix3 K) (s : K) : m.mul (identity.map (s * ·)) = m.map (s * ·) := by
  simp only [mul_eq, map, Vec3.map, identity]
  ext <;> ring

namespace IsOrthogonal

variable {m : Matrix3 K}

theorem det_mul_det (h : m.IsOrthogonal) : m.det * m.det = 1 := by
  calc m.det * m.det = (m.transpose.mul m).det := by rw [det_mul, det_transpose]
    _ = 1 := by rw [h, det_identity]

/-- The cofactors of an orthogonal matrix are its entries, with the sign of the determinant. -/
theorem cofactors_eq (h : m.IsOrthogonal) : m.cofactors = m.map (m.det * ·) := by
  have htranspose : m.cofactors.transpose = m.transpose.map (m.det * ·) := by
    calc m.cofactors.transpose = (m.transpose.mul m).mul m.cofactors.transpose := by
          rw [h, identity_mul]
      _ = m.transpose.mul (identity.map (m.det * ·)) := by
          rw [mul_assoc, mul_cofactors_transpose]
      _ = m.transpose.map (m.det * ·) := mul_map_identity _ _
  exact congrArg transpose htranspose

end IsOrthogonal

/-- The columns are orthonormal and right-handed. -/
structure IsRotation (m : Matrix3 K) : Prop where
  orthogonal : m.IsOrthogonal
  det : m.det = 1

/-- Orthonormal vectors and their cross product are right-handed in this order. -/
theorem isRotation_ofColumns_cross {u w : Vec3 K} (hu : u.dot u = 1) (hw : w.dot w = 1)
    (huw : u.dot w = 0) : (ofColumns u (w.cross u) w).IsRotation := by
  have horth := isOrthogonal_ofColumns_cross hu hw huw
  have hunit : (w.cross u).dot (w.cross u) = 1 := congrArg (·.r1.y) horth
  refine ⟨horth, ?_⟩
  rw [← hunit]
  simp only [det_eq, ofColumns, transpose, Vec3.dot, Vec3.cross]
  ring

theorem map_one_mul (m : Matrix3 K) : m.map ((1 : K) * ·) = m := by
  simp only [map, Vec3.map, one_mul]

namespace IsRotation

variable {m : Matrix3 K}

/-- Each entry of a rotation is its own cofactor. -/
theorem cofactors_eq (h : m.IsRotation) : m.cofactors = m := by
  rw [h.orthogonal.cofactors_eq, h.det, map_one_mul]

/-- The rows of a rotation are orthonormal. -/
theorem mul_transpose (h : m.IsRotation) : m.mul m.transpose = identity := by
  have hmul := mul_cofactors_transpose m
  rwa [h.cofactors_eq, h.det, map_one_mul] at hmul

theorem mul {a b : Matrix3 K} (ha : a.IsRotation) (hb : b.IsRotation) : (a.mul b).IsRotation := by
  refine ⟨?_, ?_⟩
  · calc (a.mul b).transpose.mul (a.mul b)
        = b.transpose.mul ((a.transpose.mul a).mul b) := by
          rw [transpose_mul, mul_assoc, mul_assoc]
      _ = b.transpose.mul b := by rw [ha.orthogonal, identity_mul]
      _ = identity := hb.orthogonal
  · rw [det_mul, ha.det, hb.det, one_mul]

end IsRotation

/-- The matrix that multiplies along the axes. -/
def diagonal (s : Vec3 K) : Matrix3 K := ⟨⟨s.x, 0, 0⟩, ⟨0, s.y, 0⟩, ⟨0, 0, s.z⟩⟩

theorem mul_diagonal (m : Matrix3 K) (s : Vec3 K) : m.mul (diagonal s) = m.scaleColumns s := by
  simp only [mul_eq, diagonal, scaleColumns]
  ext <;> ring

theorem det_diagonal (s : Vec3 K) : (diagonal s).det = s.x * s.y * s.z := by
  simp only [det_eq, diagonal]
  ring

theorem det_scaleColumns (m : Matrix3 K) (s : Vec3 K) :
    (m.scaleColumns s).det = m.det * (s.x * s.y * s.z) := by
  rw [← mul_diagonal, det_mul, det_diagonal]

/-- Turning an even number of axes round is a rotation. -/
theorem isRotation_diagonal {s : Vec3 K} (hx : s.x * s.x = 1) (hy : s.y * s.y = 1)
    (hz : s.z * s.z = 1) (hxyz : s.x * s.y * s.z = 1) : (diagonal s).IsRotation := by
  refine ⟨?_, (det_diagonal s).trans hxyz⟩
  simp only [IsOrthogonal, mul_eq, transpose, diagonal, identity, mul_zero, zero_mul, add_zero,
    zero_add, hx, hy, hz]

/-- A rotation stays one when an even number of its columns is turned round. -/
theorem IsRotation.scaleColumns {m : Matrix3 K} (h : m.IsRotation) {s : Vec3 K}
    (hx : s.x * s.x = 1) (hy : s.y * s.y = 1) (hz : s.z * s.z = 1) (hxyz : s.x * s.y * s.z = 1) :
    (m.scaleColumns s).IsRotation :=
  mul_diagonal m s ▸ h.mul (isRotation_diagonal hx hy hz hxyz)

end Matrix3
end SceneReader
