import SceneReader.Proofs.Rotation.Extraction

/-!
# Rotations one after the other

A rotation about an axis is given by its sine and cosine, or by a quaternion with the sine and the
cosine of half the angle.  Products of quaternions are products of rotations, since the entries of
the matrix can be written without the constant one: then they are homogeneous in the parts, and the
law holds for all quaternions.  Turning by roll, pitch and yaw angles is a product of three.

**Results.**
* `toMatrix_about`: the matrix of a quaternion about an axis.
* `toMatrix_mul`: the matrix of a product.
* `ofAxisAngle?_eq`, `rotation?_eq`: both ways to turn about an axis by an angle.
* `rotations_agree`: the ways to build a rotation agree.
-/

namespace SceneReader
namespace Quaternion

variable {K : Type} [ExactScalar K]

/-- The rotation as a map of homogeneous coordinates. -/
def toMatrix4 (q : Quaternion K) : Matrix4 K := .affine q.toMatrix .zero

/-- The quaternion about an axis, from the sine and the cosine of half the angle. -/
def about (u : Vec3 K) (s c : K) : Quaternion K := ⟨c, u.x * s, u.y * s, u.z * s⟩

theorem toMatrix_neg (q : Quaternion K) : q.neg.toMatrix = q.toMatrix := by
  simp only [toMatrix, neg, neg_mul_neg]

theorem toMatrix_canonical (q : Quaternion K) : q.canonical.toMatrix = q.toMatrix := by
  unfold canonical
  split
  · exact toMatrix_neg q
  · rfl

/-- Turning about a unit axis: the sine and the cosine of the whole angle are those of twice the
half. -/
theorem toMatrix_about {u : Vec3 K} (hu : u.dot u = 1) (s c : K) :
    (about u s c).toMatrix =
      Frame.rotationAbout u (Scalar.two * s * c) (1 - Scalar.two * (s * s)) := by
  simp only [Vec3.dot] at hu
  simp only [toMatrix, about, Frame.rotationAbout, Scalar.two]
  ext <;> grind

/-! ## Products -/

theorem dot_mul (a b : Quaternion K) : (a.mul b).dot (a.mul b) = a.dot a * b.dot b := by
  simp only [dot, mul]
  ring

/-- The entries of the matrix, without a constant. -/
def homogeneous (q : Quaternion K) : Matrix3 K :=
  let two : K := Scalar.two
  ⟨⟨q.w * q.w + q.x * q.x - q.y * q.y - q.z * q.z, two * (q.x * q.y - q.w * q.z),
    two * (q.x * q.z + q.w * q.y)⟩,
   ⟨two * (q.x * q.y + q.w * q.z), q.w * q.w - q.x * q.x + q.y * q.y - q.z * q.z,
    two * (q.y * q.z - q.w * q.x)⟩,
   ⟨two * (q.x * q.z - q.w * q.y), two * (q.y * q.z + q.w * q.x),
    q.w * q.w - q.x * q.x - q.y * q.y + q.z * q.z⟩⟩

theorem toMatrix_eq_homogeneous {q : Quaternion K} (hq : q.dot q = 1) :
    q.toMatrix = q.homogeneous := by
  simp only [dot] at hq
  simp only [toMatrix, homogeneous, Scalar.two]
  ext <;> grind

theorem homogeneous_mul (a b : Quaternion K) :
    (a.mul b).homogeneous = a.homogeneous.mul b.homogeneous := by
  simp only [homogeneous, mul, Scalar.two, Matrix3.mul_eq]
  ext <;> ring

theorem toMatrix_mul {a b : Quaternion K} (ha : a.dot a = 1) (hb : b.dot b = 1) :
    (a.mul b).toMatrix = a.toMatrix.mul b.toMatrix := by
  have hab : (a.mul b).dot (a.mul b) = 1 := by rw [dot_mul, ha, hb, one_mul]
  rw [toMatrix_eq_homogeneous hab, homogeneous_mul, ← toMatrix_eq_homogeneous ha,
    ← toMatrix_eq_homogeneous hb]

theorem affine_mul_affine_zero (a b : Matrix3 K) :
    (Matrix4.affine a .zero).mul (.affine b .zero) = .affine (a.mul b) .zero := by
  rw [Matrix4.affine_mul_affine]
  simp [Matrix3.apply, Vec3.dot, Vec3.zero]

theorem toMatrix4_mul {a b : Quaternion K} (ha : a.dot a = 1) (hb : b.dot b = 1) :
    (a.mul b).toMatrix4 = a.toMatrix4.mul b.toMatrix4 := by
  unfold toMatrix4
  rw [affine_mul_affine_zero, toMatrix_mul ha hb]

theorem mul_conjugate {q : Quaternion K} (hq : q.dot q = 1) : q.mul q.conjugate = identity := by
  simp only [dot] at hq
  unfold mul conjugate identity
  congr 1
  · rw [← hq]
    ring
  · ring
  · ring
  · ring

theorem dot_about {u : Vec3 K} (hu : u.dot u = 1) {s c : K} (hsc : s * s + c * c = 1) :
    (about u s c).dot (about u s c) = 1 := by
  calc (about u s c).dot (about u s c) = u.dot u * (s * s) + c * c := by
        simp only [dot, about, Vec3.dot]
        ring
    _ = 1 := by rw [hu, one_mul, hsc]

/-! ## Angles -/

section Angle

/-- The sine of half an angle in degrees. -/
noncomputable def halfSine (angle : ℝ) : ℝ := Scalar.sin (Scalar.radians angle / Scalar.two)

/-- The cosine of half an angle in degrees. -/
noncomputable def halfCosine (angle : ℝ) : ℝ := Scalar.cos (Scalar.radians angle / Scalar.two)

theorem halfSine_halfCosine (angle : ℝ) :
    halfSine angle * halfSine angle + halfCosine angle * halfCosine angle = 1 :=
  ExactScalar.sin_cos _

theorem halfSineCosine?_eq (angle : ℝ) :
    halfSineCosine? angle = .ok (halfSine angle, halfCosine angle) := rfl

/-- An angle is twice its half. -/
theorem radians_eq (angle : ℝ) : Scalar.radians angle = 2 * (Scalar.radians angle / Scalar.two) := by
  unfold Scalar.two
  ring

theorem sin_radians (angle : ℝ) :
    Scalar.sin (Scalar.radians angle) = Scalar.two * halfSine angle * halfCosine angle := by
  have htwo : (Scalar.two : ℝ) = 2 := one_add_one_eq_two
  have hsin := Real.sin_two_mul (Scalar.radians angle / Scalar.two)
  rw [← radians_eq] at hsin
  rw [htwo]
  exact hsin

theorem cos_radians (angle : ℝ) :
    Scalar.cos (Scalar.radians angle) = 1 - Scalar.two * (halfSine angle * halfSine angle) := by
  have htwo : (Scalar.two : ℝ) = 2 := one_add_one_eq_two
  have hcos := Real.cos_two_mul_eq_one_sub (Scalar.radians angle / Scalar.two)
  rw [← radians_eq, pow_two] at hcos
  rw [htwo]
  exact hcos

variable {axis u : Vec3 ℝ} {angle : ℝ}

theorem ofAxisAngle?_eq (h : Frame.isShort axis.length = false) (angle : ℝ) :
    ofAxisAngle? axis angle =
      .ok (about (axis.divided axis.length) (halfSine angle) (halfCosine angle)).canonical := by
  unfold ofAxisAngle?
  rw [h]
  rfl

/-- The rotation about an axis is that of the quaternion about the axis. -/
theorem rotation?_eq (h : Frame.isShort axis.length = false) (angle : ℝ) :
    Frame.rotation? angle axis =
      .ok (about (axis.divided axis.length) (halfSine angle) (halfCosine angle)).toMatrix4 := by
  have hsc : Frame.sineCosine? angle =
      .ok (Scalar.sin (Scalar.radians angle), Scalar.cos (Scalar.radians angle)) := rfl
  unfold Frame.rotation? toMatrix4
  rw [h, hsc, toMatrix_about (Vec3.dot_unit h), ← sin_radians, ← cos_radians]
  rfl

theorem rotation?_of_unit (hu : u.dot u = 1) (angle : ℝ) :
    Frame.rotation? angle u = .ok (about u (halfSine angle) (halfCosine angle)).toMatrix4 := by
  have hone : u.length = 1 := Real.sqrt_eq_one.mpr hu
  have hsame : u.divided u.length = u := by
    rw [hone]
    unfold Vec3.divided
    rw [div_one, div_one, div_one]
  have hlong : Frame.isShort u.length = false := hone ▸ Frame.isShort_one
  rw [rotation?_eq hlong, hsame]

/-- Roll, pitch and yaw are turns about the axes, the first axis first. -/
theorem ofEuler?_eq (roll pitch yaw : ℝ) :
    ofEuler? roll pitch yaw =
      .ok (((about ⟨0, 0, 1⟩ (halfSine yaw) (halfCosine yaw)).mul
        (about ⟨0, 1, 0⟩ (halfSine pitch) (halfCosine pitch))).mul
        (about ⟨1, 0, 0⟩ (halfSine roll) (halfCosine roll))).canonical := by
  unfold ofEuler?
  rw [halfSineCosine?_eq, halfSineCosine?_eq, halfSineCosine?_eq]
  refine congrArg (fun q => Except.ok (canonical q)) (ext_part fun i => ?_)
  cases i <;> simp only [part, mul, about] <;> ring

theorem toMatrix4_canonical (q : Quaternion ℝ) : q.canonical.toMatrix4 = q.toMatrix4 := by
  unfold toMatrix4
  rw [toMatrix_canonical]

/-- Turning about an axis gives the matrix of the quaternion about this axis; roll, pitch and yaw
give the product of the turns about the axes; and the matrix of a product of quaternions is the
product of their matrices, of which the conjugate is the inverse. -/
theorem rotations_agree :
    (∀ (axis : Vec3 ℝ) (angle : ℝ), Scalar.epsilon ≤ axis.length →
      ∃ q, ofAxisAngle? axis angle = .ok q ∧ Frame.rotation? angle axis = .ok q.toMatrix4) ∧
    (∀ roll pitch yaw : ℝ, ∃ q mx my mz, ofEuler? roll pitch yaw = .ok q ∧
      Frame.rotation? roll ⟨1, 0, 0⟩ = .ok mx ∧ Frame.rotation? pitch ⟨0, 1, 0⟩ = .ok my ∧
      Frame.rotation? yaw ⟨0, 0, 1⟩ = .ok mz ∧ q.toMatrix4 = (mz.mul my).mul mx) ∧
    (∀ a b : Quaternion ℝ, a.norm = 1 → b.norm = 1 →
      (a.mul b).toMatrix4 = a.toMatrix4.mul b.toMatrix4 ∧ a.mul a.conjugate = identity) := by
  refine ⟨fun axis angle hlong => ?_, fun roll pitch yaw => ?_, fun a b ha hb => ?_⟩
  · have hlong : Frame.isShort axis.length = false := Frame.isShort_eq_false_iff.mpr hlong
    refine ⟨_, ofAxisAngle?_eq hlong angle, ?_⟩
    rw [toMatrix4_canonical]
    exact rotation?_eq hlong angle
  · have hx : (⟨1, 0, 0⟩ : Vec3 ℝ).dot ⟨1, 0, 0⟩ = 1 := by norm_num [Vec3.dot]
    have hy : (⟨0, 1, 0⟩ : Vec3 ℝ).dot ⟨0, 1, 0⟩ = 1 := by norm_num [Vec3.dot]
    have hz : (⟨0, 0, 1⟩ : Vec3 ℝ).dot ⟨0, 0, 1⟩ = 1 := by norm_num [Vec3.dot]
    have hqx := dot_about hx (halfSine_halfCosine roll)
    have hqy := dot_about hy (halfSine_halfCosine pitch)
    have hqz := dot_about hz (halfSine_halfCosine yaw)
    refine ⟨_, _, _, _, ofEuler?_eq roll pitch yaw, rotation?_of_unit hx roll,
      rotation?_of_unit hy pitch, rotation?_of_unit hz yaw, ?_⟩
    rw [toMatrix4_canonical, toMatrix4_mul (by rw [dot_mul, hqz, hqy, one_mul]) hqx,
      toMatrix4_mul hqz hqy]
  · exact ⟨toMatrix4_mul (norm_eq_one_iff.mp ha) (norm_eq_one_iff.mp hb),
      mul_conjugate (norm_eq_one_iff.mp ha)⟩

/-- Half a turn about an axis of length five, and a quaternion that turns by a third. -/
theorem rotations_agree_halfTurn :
    let q : Quaternion ℝ := ⟨1 / 2, 1 / 2, 1 / 2, 1 / 2⟩
    Scalar.epsilon ≤ (⟨3, 0, 4⟩ : Vec3 ℝ).length ∧
      (∃ p, ofAxisAngle? (⟨3, 0, 4⟩ : Vec3 ℝ) 180 = .ok p ∧
        Frame.rotation? 180 ⟨3, 0, 4⟩ = .ok p.toMatrix4) ∧
      q.norm = 1 ∧ (q.mul q).toMatrix4 = q.toMatrix4.mul q.toMatrix4 := by
  intro q
  have hlength : (⟨3, 0, 4⟩ : Vec3 ℝ).length = 5 :=
    (Real.sqrt_eq_iff_mul_self_eq (by norm_num [Vec3.dot]) (by norm_num)).mpr
      (by norm_num [Vec3.dot])
  have hlong : Scalar.epsilon ≤ (⟨3, 0, 4⟩ : Vec3 ℝ).length := by
    rw [hlength]
    linarith [Scalar.epsilon_lt_one]
  have hq : q.norm = 1 := norm_eq_one_iff.mpr (by norm_num [q, dot])
  obtain ⟨hturn, -, hproduct⟩ := rotations_agree
  exact ⟨hlong, hturn ⟨3, 0, 4⟩ 180 hlong, hq, (hproduct q q hq hq).1⟩

end Angle

end Quaternion
end SceneReader
