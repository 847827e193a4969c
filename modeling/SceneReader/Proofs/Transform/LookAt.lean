import SceneReader.Proofs.Transform.DirectionFrame
import SceneReader.Proofs.Transform.Sound

/-!
# Looking at a point

The frame of a camera has three axes: the first to the right, the second upward and the third along
the line of sight.  They are orthonormal and right-handed, so the frame is a rotation with a shift to
the place of the camera after it.  A camera sees the world through the motion that undoes its frame:
a point goes to its components along the axes, seen from the place of the camera.

The upward axis is only as near to the up vector as the line of sight lets it be.  Both are in one
plane with the line of sight, so the camera sees nothing of the up vector to the right.  What it sees
of it upward is its length times the sine of the angle that it has with the line of sight.

**Results.**
* `exists_camera_iff`: which cameras have a frame.
* `exists_axes_of_camera?`: the axes of a camera.
* `point_of_rigidInverse`, `vector_of_rigidInverse`: where the motion that undoes a frame brings
  points and directions.
* `lookAt?_of_camera?`: looking at a point is the rigid motion that it should be.
-/

namespace SceneReader

variable {K : Type} [ExactScalar K]

namespace Vec3

/-- A triple product does not change when its factors go round. -/
theorem cross_dot_rotate (a b c : Vec3 K) : (a.cross b).dot c = (c.cross a).dot b := by
  simp only [dot, cross]
  ring

end Vec3

namespace Frame

variable {place point up : Vec3 K} {m : Matrix4 K}

/-! ## Which cameras there are -/

/-- A camera has a frame unless the point that it looks at is too near, the up vector too short, or
the angle between the two directions too small. -/
theorem exists_camera_iff (place point up : Vec3 K) :
    (∃ m, camera? place point up = .ok m) ↔
      isShort (point.sub place).length = false ∧ isShort up.length = false ∧
        isShort ((up.divided up.length).cross
          ((point.sub place).divided (point.sub place).length)).length = false := by
  constructor
  · rintro ⟨m, h⟩
    obtain ⟨direction, upward, right, hd, hu, hr, -⟩ := camera?_eq_ok h
    obtain ⟨hsight, rfl⟩ := normalize?_eq_ok hd
    obtain ⟨hup, rfl⟩ := normalize?_eq_ok hu
    exact ⟨hsight, hup, (normalize?_eq_ok hr).1⟩
  · rintro ⟨hsight, hup, hside⟩
    unfold camera?
    rw [normalize?_of_long hsight, normalize?_of_long hup]
    dsimp only [bind, Except.bind]
    rw [hside, normalize?_of_long hside]
    exact ⟨_, rfl⟩

/-! ## Axes -/

/-- The axes of a frame that looks along a vector, with an up vector: right-handed and orthonormal,
the third one along the line of sight, and the second one in the plane of both vectors and on the
side of the up vector. -/
structure IsAxes (sight up right above direction : Vec3 K) : Prop where
  isRotation : (Matrix3.ofColumns right above direction).IsRotation
  right_sight : right.dot sight = 0
  above_sight : above.dot sight = 0
  direction_sight : direction.dot sight = sight.length
  right_up : right.dot up = 0
  above_up : 0 < above.dot up

/-- A vector has the component of its direction, times its length. -/
theorem dot_eq_of_normalize? {v w : Vec3 K} (h : normalize? v = .ok w) (a : Vec3 K) :
    a.dot v = a.dot w * v.length := by
  obtain ⟨hlong, rfl⟩ := normalize?_eq_ok h
  rw [a.dot_comm, a.dot_comm, Vec3.dot_divided, div_mul_cancel₀ _ (length_pos hlong).ne']

/-- The frame of a camera is put together from its axes and its place. -/
theorem exists_axes_of_camera? (h : camera? place point up = .ok m) :
    ∃ right above direction, m = .affine (.ofColumns right above direction) place ∧
      IsAxes (point.sub place) up right above direction := by
  obtain ⟨direction, upward, right, hd, hu, hr, rfl⟩ := camera?_eq_ok h
  have hdd := dot_self_of_normalize? hd
  have hrr := dot_self_of_normalize? hr
  have hrd : right.dot direction = 0 := dot_of_normalize? hr (Vec3.dot_cross_right _ _)
  have hru : right.dot upward = 0 := dot_of_normalize? hr (Vec3.dot_cross_left _ _)
  -- the upward axis and the up vector, through the vector to the right before it is normalized
  have hau : (direction.cross right).dot upward = (upward.cross direction).length := by
    rw [Vec3.cross_dot_rotate, Vec3.dot_comm, dot_eq_of_normalize? hr, hrr, one_mul]
  refine ⟨right, direction.cross right, direction, rfl,
    Matrix3.isRotation_ofColumns_cross hrr hdd hrd, ?_, ?_, ?_, ?_, ?_⟩
  · rw [dot_eq_of_normalize? hd, hrd, zero_mul]
  · rw [dot_eq_of_normalize? hd, Vec3.dot_cross_left, zero_mul]
  · rw [dot_eq_of_normalize? hd, hdd, one_mul]
  · rw [dot_eq_of_normalize? hu, hru, zero_mul]
  · rw [dot_eq_of_normalize? hu, hau]
    exact mul_pos (length_pos (normalize?_eq_ok hr).1) (length_pos (normalize?_eq_ok hu).1)

end Frame

/-! ## What a camera sees -/

namespace Transform

variable {t : Transform K} {r : Matrix3 K} {place : Vec3 K}

/-- The motion that undoes a frame brings a point to its components along the axes, from the place
of the frame. -/
theorem point_of_rigidInverse (h : t.matrix = Frame.rigidInverse (.affine r place)) (p : Vec3 K) :
    t.point p = r.transpose.apply (p.sub place) := by
  have hweight : (t.matrix.apply ⟨p.x, p.y, p.z, 1⟩).w = 1 := by
    rw [h]
    simp [Frame.rigidInverse, Matrix4.affine, Matrix4.apply, Vec4.dot]
  have hsame : Scalar.same (t.matrix.apply ⟨p.x, p.y, p.z, 1⟩).w 1 = true :=
    (ExactScalar.same_iff _ _).mpr hweight
  unfold point
  dsimp only
  rw [hsame, Bool.true_or, if_pos rfl, h]
  simp only [Frame.rigidInverse, Matrix3.map_neg_apply]
  simp only [Matrix4.affine, Matrix4.linear, Matrix4.offset, Matrix4.apply, Vec4.dot,
    Matrix3.transpose, Matrix3.apply, Vec3.dot, Vec3.neg, Vec3.sub]
  ext <;> ring

/-- It brings a direction to its components along the axes. -/
theorem vector_of_rigidInverse (h : t.matrix = Frame.rigidInverse (.affine r place))
    (v : Vec3 K) : t.vector v = r.transpose.apply v := by
  unfold vector
  rw [h]
  rfl

/-- Looking from a place at a point is a rigid motion: the frame of the camera is a rotation with a
shift to the place after it, and it and the motion to the camera undo each other from both sides.
The motion brings the place to the origin and the point onto the third axis, as far from the origin
as it is from the place.  It brings the up vector into the plane of the second and the third axis,
on the side to which the second one points. -/
theorem lookAt?_of_camera? {place point up : Vec3 K} {frame : Matrix4 K}
    (h : Frame.camera? place point up = .ok frame) :
    (frame.linear.IsRotation ∧ frame = .affine frame.linear place) ∧
      ∃ t : Transform K, lookAt? place point up = .ok t ∧ t.inverse = frame ∧
        Matrix4.IsInverse t.matrix t.inverse ∧
        t.point place = .zero ∧ t.point point = ⟨0, 0, (point.sub place).length⟩ ∧
        (t.vector up).x = 0 ∧ 0 < (t.vector up).y := by
  obtain ⟨right, above, direction, rfl, haxes⟩ := Frame.exists_axes_of_camera? h
  have hlook : lookAt? place point up =
      .ok ⟨Frame.rigidInverse (.affine (.ofColumns right above direction) place),
        .affine (.ofColumns right above direction) place⟩ := by
    rw [lookAt?, h]
    rfl
  refine ⟨⟨haxes.isRotation, rfl⟩, _, hlook, rfl, isSound_lookAt hlook, ?_, ?_, ?_, ?_⟩
  · rw [point_of_rigidInverse rfl]
    simp [Matrix3.apply, Vec3.dot, Vec3.sub, Vec3.zero]
  · rw [point_of_rigidInverse rfl]
    exact Vec3.ext haxes.right_sight haxes.above_sight haxes.direction_sight
  · rw [vector_of_rigidInverse rfl]
    exact haxes.right_up
  · rw [vector_of_rigidInverse rfl]
    exact haxes.above_up

/-- A camera that looks along none of the coordinate axes, with an up vector that is at no right
angle to the line of sight. -/
theorem lookAt?_of_camera?_oblique :
    ∃ frame : Matrix4 ℝ, Frame.camera? ⟨1, 2, 3⟩ ⟨3, 5, 9⟩ ⟨30, 17, 6⟩ = .ok frame ∧
      ∃ t : Transform ℝ, lookAt? ⟨1, 2, 3⟩ ⟨3, 5, 9⟩ ⟨30, 17, 6⟩ = .ok t ∧ t.inverse = frame ∧
        t.point ⟨3, 5, 9⟩ = ⟨0, 0, 7⟩ ∧ 0 < (t.vector ⟨30, 17, 6⟩).y := by
  have hlength {v : Vec3 ℝ} {a : ℝ} (ha : 0 ≤ a) (h : v.dot v = a * a) : v.length = a :=
    (congrArg Real.sqrt h).trans (Real.sqrt_mul_self ha)
  have hsight : (Vec3.sub ⟨3, 5, 9⟩ ⟨1, 2, 3⟩ : Vec3 ℝ).length = 7 :=
    hlength (by norm_num) (by norm_num [Vec3.dot, Vec3.sub])
  have hup : (⟨30, 17, 6⟩ : Vec3 ℝ).length = 35 :=
    hlength (by norm_num) (by norm_num [Vec3.dot])
  have hside : ((⟨30, 17, 6⟩ : Vec3 ℝ).divided 35 |>.cross
      ((Vec3.sub ⟨3, 5, 9⟩ ⟨1, 2, 3⟩).divided 7)).length = 4 / 5 :=
    hlength (by norm_num) (by norm_num [Vec3.dot, Vec3.cross, Vec3.divided, Vec3.sub])
  have hlong {a : ℝ} (ha : 1 / 2 ≤ a) : Frame.isShort a = false :=
    Frame.isShort_eq_false_iff.mpr (Scalar.epsilon_lt_half.le.trans ha)
  obtain ⟨frame, hframe⟩ := (Frame.exists_camera_iff (⟨1, 2, 3⟩ : Vec3 ℝ) ⟨3, 5, 9⟩
    ⟨30, 17, 6⟩).mpr (by
      rw [hsight, hup, hside]
      exact ⟨hlong (by norm_num), hlong (by norm_num), hlong (by norm_num)⟩)
  obtain ⟨-, t, ht, hinverse, -, -, hpoint, -, hy⟩ := lookAt?_of_camera? hframe
  rw [hsight] at hpoint
  exact ⟨frame, hframe, t, ht, hinverse, hpoint, hy⟩

end Transform
end SceneReader
