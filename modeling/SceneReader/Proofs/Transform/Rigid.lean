import SceneReader.Proofs.Algebra.MatrixLaws
import SceneReader.Proofs.Success
import SceneReader.Transform.Frame

/-!
# Rigid motions

The columns of a rotation and the axes of a camera are orthonormal, so that the transpose
undoes the linear part, and a rotation with a shift after it is undone by what
`Frame.rigidInverse` puts together.

**Results.**
* `rotationAbout_isOrthogonal`: a rotation about a unit axis is orthogonal.
* `camera?_isOrthogonal`: the frame of a camera is orthogonal.
* `rigidInverse_isInverse`: an orthogonal map with a shift after it is undone.
-/

namespace SceneReader

variable {K : Type} [ExactScalar K]

namespace Vec3

theorem dot_comm (a b : Vec3 K) : a.dot b = b.dot a := by
  simp only [dot]
  ring

theorem dot_cross_right (a b : Vec3 K) : (a.cross b).dot b = 0 := by
  simp only [dot, cross]
  ring

theorem dot_cross_left (a b : Vec3 K) : (a.cross b).dot a = 0 := by
  simp only [dot, cross]
  ring

/-- The cross product of vectors at a right angle is as long as their lengths say. -/
theorem cross_dot_cross (a b : Vec3 K) :
    (a.cross b).dot (a.cross b) = a.dot a * b.dot b - a.dot b * a.dot b := by
  simp only [dot, cross]
  ring

end Vec3

namespace Matrix3

/-- The columns are orthonormal. -/
def IsOrthogonal (m : Matrix3 K) : Prop := m.transpose.mul m = identity

theorem isOrthogonal_ofColumns {a b c : Vec3 K} (haa : a.dot a = 1) (hbb : b.dot b = 1)
    (hcc : c.dot c = 1) (hab : a.dot b = 0) (hac : a.dot c = 0) (hbc : b.dot c = 0) :
    (ofColumns a b c).IsOrthogonal := by
  have hba : b.dot a = 0 := (b.dot_comm a).trans hab
  have hca : c.dot a = 0 := (c.dot_comm a).trans hac
  have hcb : c.dot b = 0 := (c.dot_comm b).trans hbc
  simp only [IsOrthogonal, mul, apply, transpose_transpose, ofColumns, column0, column1, column2,
    identity, haa, hbb, hcc, hab, hac, hbc, hba, hca, hcb]
  rfl

/-- Orthonormal vectors are completed by their cross product. -/
theorem isOrthogonal_ofColumns_cross {u w : Vec3 K} (hu : u.dot u = 1) (hw : w.dot w = 1)
    (huw : u.dot w = 0) : (ofColumns u (w.cross u) w).IsOrthogonal := by
  have hwu : w.dot u = 0 := (w.dot_comm u).trans huw
  refine isOrthogonal_ofColumns hu ?_ hw ?_ huw ?_
  · rw [Vec3.cross_dot_cross, hw, hu, hwu]
    ring
  · exact (Vec3.dot_comm _ _).trans (Vec3.dot_cross_right _ _)
  · exact Vec3.dot_cross_left _ _

theorem map_neg_apply (m : Matrix3 K) (v : Vec3 K) :
    (m.map Neg.neg).apply v = (m.apply v).neg := by
  simp only [map, apply, Vec3.map, Vec3.dot, Vec3.neg]
  ext <;> ring

end Matrix3

namespace Frame

/-- The rotation about an axis of length one is orthogonal. -/
theorem rotationAbout_isOrthogonal {u : Vec3 K} {s c : K} (hu : u.dot u = 1)
    (hsc : s * s + c * c = 1) : (rotationAbout u s c).IsOrthogonal := by
  simp only [Vec3.dot] at hu
  simp only [Matrix3.IsOrthogonal, Matrix3.mul, Matrix3.apply, Matrix3.transpose,
    Matrix3.ofColumns, Matrix3.column0, Matrix3.column1, Matrix3.column2, Vec3.dot,
    rotationAbout, Matrix3.identity]
  ext <;> grind

theorem isShort_eq_false_iff {length : K} : isShort length = false ↔ Scalar.epsilon ≤ length := by
  rw [Bool.eq_false_iff, ne_eq, isShort, ExactScalar.less_iff, not_lt]

/-- A length that is not too small to divide by is positive. -/
theorem length_pos {length : K} (h : isShort length = false) : 0 < length :=
  ExactScalar.epsilon_pos.trans_le (isShort_eq_false_iff.mp h)

/-- A vector that is long enough is divided by its length. -/
theorem normalize?_eq_ok {v w : Vec3 K} (h : normalize? v = .ok w) :
    isShort v.length = false ∧ w = v.divided v.length := by
  unfold normalize? at h
  split at h
  · cases h
  · rename_i hlong
    cases h
    exact ⟨by simpa using hlong, rfl⟩

theorem normalize?_of_long {v : Vec3 K} (h : isShort v.length = false) :
    normalize? v = .ok (v.divided v.length) :=
  if_neg (Bool.eq_false_iff.mp h)

/-- What is divided by its length has length one. -/
theorem dot_self_of_normalize? {v w : Vec3 K} (h : normalize? v = .ok w) : w.dot w = 1 := by
  obtain ⟨hlong, rfl⟩ := normalize?_eq_ok h
  exact Vec3.dot_unit hlong

/-- Dividing by the length does not turn a vector. -/
theorem dot_of_normalize? {v w a : Vec3 K} (h : normalize? v = .ok w) (ha : v.dot a = 0) :
    w.dot a = 0 := by
  obtain ⟨-, rfl⟩ := normalize?_eq_ok h
  rw [Vec3.dot_divided, ha, zero_div]

/-- What the frame of a camera is made of. -/
theorem camera?_eq_ok {place point up : Vec3 K} {m : Matrix4 K}
    (h : camera? place point up = .ok m) :
    ∃ direction upward right, normalize? (point.sub place) = .ok direction ∧
      normalize? up = .ok upward ∧ normalize? (upward.cross direction) = .ok right ∧
      m = .affine (.ofColumns right (direction.cross right) direction) place := by
  unfold camera? at h
  obtain ⟨direction, hd, h⟩ := Success.of_bind h
  obtain ⟨upward, hu, h⟩ := Success.of_bind h
  dsimp only at h
  split at h
  · cases h
  · obtain ⟨right, hr, h⟩ := Success.of_bind h
    cases h
    exact ⟨direction, upward, right, hd, hu, hr, rfl⟩

/-- The frame of a camera is orthogonal, and its offset is the place of the camera. -/
theorem camera?_isOrthogonal {place point up : Vec3 K} {m : Matrix4 K}
    (h : camera? place point up = .ok m) :
    ∃ r : Matrix3 K, r.IsOrthogonal ∧ m = .affine r place := by
  obtain ⟨direction, upward, right, hd, -, hr, rfl⟩ := camera?_eq_ok h
  have hrd : right.dot direction = 0 := dot_of_normalize? hr (Vec3.dot_cross_right _ _)
  exact ⟨_, Matrix3.isOrthogonal_ofColumns_cross (dot_self_of_normalize? hr)
    (dot_self_of_normalize? hd) hrd, rfl⟩

/-- An orthogonal map with a shift after it is undone from both sides. -/
theorem rigidInverse_isInverse {r : Matrix3 K} (h : r.IsOrthogonal) (v : Vec3 K) :
    Matrix4.IsInverse (rigidInverse (.affine r v)) (.affine r v) := by
  have hlinear : (Matrix4.affine r v).linear = r := rfl
  have hoffset : (Matrix4.affine r v).offset = v := rfl
  apply Matrix4.IsInverse.of_mul
  rw [rigidInverse, hlinear, hoffset, Matrix4.affine_mul_affine, h, Matrix3.map_neg_apply]
  simp only [Vec3.neg, add_neg_cancel]
  rfl

end Frame
end SceneReader
