import SceneReader.Proofs.Algebra.RealScalar
import SceneReader.Proofs.Rotation.Proper

/-!
# Frames along directions

A frame whose third axis has a given direction is completed by a vector across the direction, in the
coordinate plane that the direction is far from, and by the cross product of both.  It is
orthonormal and right-handed, and there is one for each direction that is not too short.

The vector across is divided by the length of the part of the direction in that plane.  Of the first
and the second component the plane holds the larger one, so this part is no shorter than the other
component, and its square is at least a half of that of the direction.

**Results.**
* `one_le_planeLength`: what is divided by is bounded away from zero.
* `across_dot_self`, `across_dot`: the vector across a unit vector is a unit vector at a right
  angle to it.
* `isRotation_across`: both and their cross product are the columns of a rotation.
* `isFrameAlong_of_direction`: the frame along a direction.
* `exists_frame_iff`: when there is one.
* `ofDirection?_of_long`: the frame along a direction that is long enough.
-/

namespace SceneReader

variable {K : Type} [ExactScalar K]

theorem magnitude_eq_abs (a : K) : Scalar.magnitude a = |a| := by
  unfold Scalar.magnitude
  split
  · rename_i h
    exact (abs_of_neg ((ExactScalar.less_iff a 0).mp h)).symm
  · rename_i h
    exact (abs_of_nonneg (not_lt.mp (mt (ExactScalar.less_iff a 0).mpr h))).symm

namespace Vec3

/-- Of unit vectors at a right angle, the first is the cross product of the second and of the cross
product of both. -/
theorem cross_cross {u w : Vec3 K} (hu : u.dot u = 1) (huw : u.dot w = 0) :
    u.cross (w.cross u) = w := by
  simp only [dot] at hu huw
  simp only [cross]
  ext <;> grind

end Vec3

namespace Frame

/-! ## Across a direction -/

theorem planeLength_mul_planeLength (a b : K) :
    planeLength a b * planeLength a b = a * a + b * b :=
  ExactScalar.sqrt_mul_sqrt _ (add_nonneg (mul_self_nonneg a) (mul_self_nonneg b))

/-- A unit vector without the smaller one of two components keeps a half of its square at least. -/
theorem one_le_planeLength {a b c : K} (h : a * a + b * b + c * c = 1) (hba : |b| ≤ |a|) :
    1 ≤ 2 * (planeLength a c * planeLength a c) := by
  have hsquare : b * b ≤ a * a := abs_le_iff_mul_self_le.mp hba
  have hnonneg := mul_self_nonneg c
  rw [planeLength_mul_planeLength]
  linarith

theorem planeLength_ne_zero {a b c : K} (h : a * a + b * b + c * c = 1) (hba : |b| ≤ |a|) :
    planeLength a c ≠ 0 := by
  intro hzero
  have hle := one_le_planeLength h hba
  rw [hzero, mul_zero, mul_zero] at hle
  exact absurd hle (not_le.mpr one_pos)

/-- The vector across another one, if that is nearer to the first axis than to the second. -/
theorem across_of_lt {w : Vec3 K} (h : |w.y| < |w.x|) :
    across w = (⟨-w.z, 0, w.x⟩ : Vec3 K).divided (planeLength w.x w.z) := by
  refine if_pos ?_
  rwa [ExactScalar.less_iff, magnitude_eq_abs, magnitude_eq_abs]

/-- The vector across another one, if that is not nearer to the first axis than to the second. -/
theorem across_of_le {w : Vec3 K} (h : |w.x| ≤ |w.y|) :
    across w = (⟨0, w.z, -w.y⟩ : Vec3 K).divided (planeLength w.y w.z) := by
  refine if_neg ?_
  rwa [ExactScalar.less_iff, magnitude_eq_abs, magnitude_eq_abs, not_lt]

/-- The vector across another one is at a right angle to it. -/
theorem across_dot (w : Vec3 K) : (across w).dot w = 0 := by
  unfold across
  split <;> rw [Vec3.dot_divided] <;> simp only [Vec3.dot] <;> ring

section Unit

variable {w : Vec3 K} (hw : w.dot w = 1)

include hw

theorem planeLength_ne_zero_of_lt (h : |w.y| < |w.x|) : planeLength w.x w.z ≠ 0 :=
  planeLength_ne_zero hw h.le

theorem planeLength_ne_zero_of_le (h : |w.x| ≤ |w.y|) : planeLength w.y w.z ≠ 0 := by
  refine planeLength_ne_zero ?_ h
  rw [← hw]
  simp only [Vec3.dot]
  ring

/-- The vector across a unit vector is a unit vector. -/
theorem across_dot_self : (across w).dot (across w) = 1 := by
  have hunit {v : Vec3 K} {length : K} (hv : length * length = v.dot v) (hne : length ≠ 0) :
      (v.divided length).dot (v.divided length) = 1 := by
    rw [Vec3.dot_divided, Vec3.dot_comm, Vec3.dot_divided, ← hv]
    field_simp
  rcases lt_or_ge |w.y| |w.x| with h | h
  · rw [across_of_lt h]
    refine hunit ?_ (planeLength_ne_zero_of_lt hw h)
    rw [planeLength_mul_planeLength]
    simp only [Vec3.dot]
    ring
  · rw [across_of_le h]
    refine hunit ?_ (planeLength_ne_zero_of_le hw h)
    rw [planeLength_mul_planeLength]
    simp only [Vec3.dot]
    ring

/-- A unit vector and the vector across it are completed to a rotation. -/
theorem isRotation_across :
    (Matrix3.ofColumns (across w) (w.cross (across w)) w).IsRotation :=
  Matrix3.isRotation_ofColumns_cross (across_dot_self hw) hw (across_dot w)

end Unit

/-! ## Frames -/

/-- The matrix turns the axes into an orthonormal frame that is right-handed, and the third axis
into the direction. -/
def IsFrameAlong (m : Matrix4 K) (direction : Vec3 K) : Prop :=
  ∃ u v w : Vec3 K, m = .affine (.ofColumns u v w) .zero ∧
    (Matrix3.ofColumns u v w).IsOrthogonal ∧ u.cross v = w ∧
    ∃ length : K, 0 < length ∧ length * length = direction.dot direction ∧
      w = direction.divided length

/-- The columns of the frame along a direction. -/
theorem ofDirection?_of_not_isShort {direction : Vec3 K} (h : isShort direction.length = false) :
    let w := direction.divided direction.length
    ofDirection? direction = .ok (.affine (.ofColumns (across w) (w.cross (across w)) w) .zero) := by
  unfold ofDirection?
  rw [normalize?_of_long h]
  rfl

/-- There is a frame along a direction that is long enough. -/
theorem exists_frame_iff (direction : Vec3 K) :
    (∃ m, ofDirection? direction = .ok m) ↔ isShort direction.length = false := by
  constructor
  · rintro ⟨m, h⟩
    obtain ⟨w, hw, -⟩ := Success.of_bind h
    exact (normalize?_eq_ok hw).1
  · exact fun hlong => ⟨_, ofDirection?_of_not_isShort hlong⟩

theorem isFrameAlong_of_direction {direction : Vec3 K} {m : Matrix4 K}
    (h : ofDirection? direction = .ok m) : IsFrameAlong m direction := by
  have hlong := (exists_frame_iff direction).mp ⟨m, h⟩
  have hww : (direction.divided direction.length).dot (direction.divided direction.length) = 1 :=
    Vec3.dot_unit hlong
  rw [ofDirection?_of_not_isShort hlong] at h
  cases h
  exact ⟨_, _, _, rfl, (isRotation_across hww).orthogonal,
    Vec3.cross_cross (across_dot_self hww) (across_dot _), direction.length, length_pos hlong,
    Vec3.length_mul_length direction, rfl⟩

/-- Along each direction that is long enough there is a frame.  Nothing is divided by zero on the
way: neither the direction by its length, nor the vector across it by the length of what it is made
of, whichever plane it is in.  The frame is a rotation that turns the third axis into the
direction. -/
theorem ofDirection?_of_long {direction : Vec3 K} (h : Scalar.epsilon ≤ direction.length) :
    let w := direction.divided direction.length
    direction.length ≠ 0 ∧
      (|w.y| < |w.x| → planeLength w.x w.z ≠ 0 ∧
        across w = (⟨-w.z, 0, w.x⟩ : Vec3 K).divided (planeLength w.x w.z)) ∧
      (|w.x| ≤ |w.y| → planeLength w.y w.z ≠ 0 ∧
        across w = (⟨0, w.z, -w.y⟩ : Vec3 K).divided (planeLength w.y w.z)) ∧
      ∃ m, ofDirection? direction = .ok m ∧ m.linear.IsRotation ∧
        m.linear.column0 = across w ∧ m.linear.column2 = w := by
  intro w
  have hlong : isShort direction.length = false := isShort_eq_false_iff.mpr h
  have hw : w.dot w = 1 := Vec3.dot_unit hlong
  refine ⟨(length_pos hlong).ne', fun hlt => ⟨planeLength_ne_zero_of_lt hw hlt, across_of_lt hlt⟩,
    fun hle => ⟨planeLength_ne_zero_of_le hw hle, across_of_le hle⟩, ?_⟩
  exact ⟨_, ofDirection?_of_not_isShort hlong, isRotation_across hw, rfl, rfl⟩

/-- The third axis downward: its components along the first and the second axis are the same, and
zero. -/
theorem ofDirection?_of_long_downward :
    let direction : Vec3 ℝ := ⟨0, 0, -2⟩
    Scalar.epsilon ≤ direction.length ∧
      ∃ m, ofDirection? direction = .ok m ∧ m.linear.IsRotation ∧ m.linear.column2 = ⟨0, 0, -1⟩ := by
  intro direction
  have hlength : direction.length = 2 := by
    refine (congrArg Real.sqrt ?_).trans (Real.sqrt_mul_self zero_le_two)
    norm_num [direction, Vec3.dot]
  have hlong : Scalar.epsilon ≤ direction.length := by
    linarith [Scalar.epsilon_lt_one]
  obtain ⟨-, -, -, m, hm, hrotation, -, hcolumn⟩ := ofDirection?_of_long hlong
  refine ⟨hlong, m, hm, hrotation, hcolumn.trans ?_⟩
  rw [hlength]
  norm_num [direction, Vec3.divided]

end Frame
end SceneReader
