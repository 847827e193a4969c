import SceneReader.Proofs.Rotation.Composition
import SceneReader.Proofs.Transform.DirectionFrame
import SceneReader.Rotation.Decomposition

/-!
# Decomposition and recomposition

A map that scales along the axes, rotates and moves is taken apart again.  The lengths of its
columns are the sizes of the factors, and its determinant has the sign of their product.  That sign
goes into the first factor, so what is left after division is the rotation with an even number of
its columns turned round, which is a rotation again; it has a quaternion, and the matrix of the
quaternion multiplied by the factors is the map.

How the nearest orthonormal matrix is found is left open: all that is needed is that it keeps an
orthogonal matrix as it is.

**Results.**
* `nearestRotation_of_isOrthogonal`: taking means keeps an orthogonal matrix.
* `toMatrix_ofMatrix`: a rotation is the matrix of the quaternion that is found for it.
* `prod_neg_iff`: a product is negative if an odd number of its factors is.
* `scaleOf_scaleColumns`: the factors that are found in a rotation that was scaled.
* `recompose_ofMatrixBy`: taking apart and putting together.
-/

namespace SceneReader

/-! ## Nearest rotations -/

namespace Matrix3

variable {K : Type} [ExactScalar K] {m : Matrix3 K}

theorem polarMean_of_isOrthogonal (h : m.IsOrthogonal) : m.polarMean = m := by
  have hdet : m.det ≠ 0 := by
    intro hzero
    have hone := h.det_mul_det
    rw [hzero, zero_mul] at hone
    exact zero_ne_one hone
  have hsame : m.cofactors.divided m.det = m := by
    rw [h.cofactors_eq]
    simp only [divided, map, Vec3.map]
    ext <;> exact mul_div_cancel_left₀ _ hdet
  have hhalf (a : K) : (a + a) / Scalar.two = a := by
    unfold Scalar.two
    rw [← mul_two, one_add_one_eq_two, mul_div_cancel_right₀ _ two_ne_zero]
  unfold polarMean
  rw [hsame]
  simp only [divided, add, map, Vec3.map, hhalf]

theorem polarMeans_of_isOrthogonal (h : m.IsOrthogonal) (n : Nat) : polarMeans n m = m := by
  induction n with
  | zero => rfl
  | succ n ih => rw [polarMeans, polarMean_of_isOrthogonal h, ih]

/-- The nearest orthonormal matrix of an orthogonal matrix is the matrix. -/
theorem nearestRotation_of_isOrthogonal (h : m.IsOrthogonal) : m.nearestRotation = m := by
  have hcompleted : m.completed = m := by
    refine if_neg fun hsame => ?_
    have hone := h.det_mul_det
    rw [(ExactScalar.same_iff _ _).mp hsame, zero_mul] at hone
    exact zero_ne_one hone
  rw [nearestRotation, hcompleted, polarMeans_of_isOrthogonal h]

end Matrix3

namespace Quaternion

variable {r : Matrix3 ℝ}

theorem represents_ofMatrix_of_isRotation (h : r.IsRotation) : Represents (ofMatrix r) r :=
  represents_ofMatrix (products_mul_products h)

theorem norm_ofMatrix (h : r.IsRotation) : (ofMatrix r).norm = 1 :=
  norm_eq_one_iff.mpr (represents_ofMatrix_of_isRotation h).dot_self

/-- A rotation is the matrix of its quaternion. -/
theorem toMatrix_ofMatrix (h : r.IsRotation) : (ofMatrix r).toMatrix = r :=
  (represents_ofMatrix_of_isRotation h).toMatrix_eq

end Quaternion

/-! ## Factors -/

theorem Vec3.forall_mem_toList {K : Type} {v : Vec3 K} {P : K → Prop} :
    (∀ a ∈ v.toList, P a) ↔ P v.x ∧ P v.y ∧ P v.z := by
  simp [Vec3.toList]

namespace Decomposition

/-- A product of numbers other than zero is negative if an odd number of them is. -/
theorem prod_neg_iff {fs : List ℝ} (h : ∀ f ∈ fs, f ≠ 0) :
    fs.prod < 0 ↔ Odd (fs.countP fun f => decide (f < 0)) := by
  induction fs with
  | nil => simp
  | cons f fs ih =>
      obtain ⟨hf, hfs⟩ := List.forall_mem_cons.mp h
      have hprod : fs.prod ≠ 0 := List.prod_ne_zero fun hmem => hfs 0 hmem rfl
      rw [List.prod_cons, List.countP_cons, mul_neg_iff]
      rcases hf.lt_or_gt with hneg | hpos
      · rw [decide_eq_true hneg, if_pos rfl, Nat.odd_add_one, ← ih hfs, not_lt]
        simp only [hneg, not_lt.mpr hneg.le, true_and, false_and, false_or]
        exact hprod.symm.le_iff_lt.symm
      · rw [decide_eq_false (not_lt.mpr hpos.le), if_neg Bool.false_ne_true, Nat.add_zero,
          ← ih hfs]
        simp only [hpos, not_lt.mpr hpos.le, true_and, false_and, or_false]

section Scaled

variable {m : Matrix3 ℝ} {s : Vec3 ℝ}

/-- The factors that stand for `s`: the sign of their product goes into the first one. -/
structure IsScaleOf (f s : Vec3 ℝ) : Prop where
  x : |f.x| = |s.x|
  y : f.y = |s.y|
  z : f.z = |s.z|
  sign : f.x < 0 ↔ s.x * s.y * s.z < 0

/-- The columns of a rotation that was scaled are as long as the factors are large. -/
theorem scaleOf_scaleColumns (hm : m.IsRotation) (hx : s.x ≠ 0) :
    IsScaleOf (scaleOf (m.scaleColumns s)) s := by
  have hcolumn (f : ℝ) {v : Vec3 ℝ} (hv : v.dot v = 1) :
      Vec3.length (⟨v.x * f, v.y * f, v.z * f⟩ : Vec3 ℝ) = |f| := by
    refine Eq.trans (congrArg Real.sqrt ?_) (Real.sqrt_mul_self_eq_abs f)
    calc _ = v.dot v * (f * f) := by
          simp only [Vec3.dot]
          ring
      _ = f * f := by rw [hv, one_mul]
  have horth := hm.orthogonal
  have hlength0 : (m.scaleColumns s).column0.length = |s.x| :=
    hcolumn s.x (v := m.column0) (congrArg (·.r0.x) horth)
  have hlength1 : (m.scaleColumns s).column1.length = |s.y| :=
    hcolumn s.y (v := m.column1) (congrArg (·.r1.y) horth)
  have hlength2 : (m.scaleColumns s).column2.length = |s.z| :=
    hcolumn s.z (v := m.column2) (congrArg (·.r2.z) horth)
  have hdet : (m.scaleColumns s).det = s.x * s.y * s.z := by
    rw [Matrix3.det_scaleColumns, hm.det, one_mul]
  unfold scaleOf
  dsimp only
  rw [hlength0, hlength1, hlength2, hdet]
  split
  · rename_i hless
    rw [ExactScalar.less_iff] at hless
    refine ⟨?_, rfl, rfl, ?_⟩
    · rw [abs_neg, abs_abs]
    · exact iff_of_true (neg_neg_of_pos (abs_pos.mpr hx)) hless
  · rename_i hless
    rw [ExactScalar.less_iff] at hless
    refine ⟨abs_abs _, rfl, rfl, ?_⟩
    exact iff_of_false (not_lt.mpr (abs_nonneg _)) hless

namespace IsScaleOf

variable {f : Vec3 ℝ}

theorem abs_y (h : IsScaleOf f s) : |f.y| = |s.y| := by rw [h.y, abs_abs]

theorem abs_z (h : IsScaleOf f s) : |f.z| = |s.z| := by rw [h.z, abs_abs]

/-- The factors have the same product. -/
theorem prod_eq (h : IsScaleOf f s) : f.x * f.y * f.z = s.x * s.y * s.z := by
  have habs : |f.x * f.y * f.z| = |s.x * s.y * s.z| := by
    rw [abs_mul, abs_mul, abs_mul, abs_mul, h.x, h.abs_y, h.abs_z]
  have hnonneg : 0 ≤ f.y * f.z := by
    rw [h.y, h.z]
    exact mul_nonneg (abs_nonneg _) (abs_nonneg _)
  by_cases hneg : f.x < 0
  · have hleft : f.x * f.y * f.z ≤ 0 := by
      rw [mul_assoc]
      exact mul_nonpos_of_nonpos_of_nonneg hneg.le hnonneg
    rw [abs_of_nonpos hleft, abs_of_neg (h.sign.mp hneg)] at habs
    exact neg_inj.mp habs
  · have hleft : 0 ≤ f.x * f.y * f.z := by
      rw [mul_assoc]
      exact mul_nonneg (not_lt.mp hneg) hnonneg
    rwa [abs_of_nonneg hleft, abs_of_nonneg (not_lt.mp (mt h.sign.mpr hneg))] at habs

/-- Factors are long enough if those that they stand for are. -/
theorem epsilon_le (h : IsScaleOf f s) (hs : ∀ a ∈ s.toList, Scalar.epsilon ≤ |a|) :
    ∀ a ∈ f.toList, Scalar.epsilon ≤ |a| := by
  rw [Vec3.forall_mem_toList] at hs ⊢
  rwa [h.x, h.abs_y, h.abs_z]

/-- What is left of a factor is a sign. -/
theorem div_mul_div {a b : ℝ} (hb : b ≠ 0) (h : |a| = |b|) : b / a * (b / a) = 1 := by
  have ha : a ≠ 0 := abs_pos.mp (h ▸ abs_pos.mpr hb)
  have hsquare : b * b = a * a := by rw [← abs_mul_abs_self b, ← h, abs_mul_abs_self]
  rw [div_mul_div_comm, hsquare, div_self (mul_ne_zero ha ha)]

end IsScaleOf

/-! ## Taking apart -/

/-- What is left of a rotation that was scaled, when it is divided by its factors. -/
theorem isRotation_divideColumns {f : Vec3 ℝ} (hm : m.IsRotation) (hs : ∀ a ∈ s.toList, a ≠ 0)
    (hf : IsScaleOf f s) : ((m.scaleColumns s).divideColumns f).IsRotation := by
  obtain ⟨hx, hy, hz⟩ := Vec3.forall_mem_toList.mp hs
  have hsame : (m.scaleColumns s).divideColumns f =
      m.scaleColumns ⟨s.x / f.x, s.y / f.y, s.z / f.z⟩ := by
    simp only [Matrix3.scaleColumns, Matrix3.divideColumns, mul_div_assoc]
  rw [hsame]
  refine hm.scaleColumns (IsScaleOf.div_mul_div hx hf.x) (IsScaleOf.div_mul_div hy hf.abs_y)
    (IsScaleOf.div_mul_div hz hf.abs_z) ?_
  dsimp only
  rw [div_mul_div_comm, div_mul_div_comm, hf.prod_eq]
  exact div_self (mul_ne_zero (mul_ne_zero hx hy) hz)

/-- Multiplying by factors undoes dividing by them. -/
theorem scaleColumns_divideColumns {f : Vec3 ℝ} (hf : ∀ a ∈ f.toList, a ≠ 0) :
    (m.divideColumns f).scaleColumns f = m := by
  obtain ⟨hx, hy, hz⟩ := Vec3.forall_mem_toList.mp hf
  simp only [Matrix3.scaleColumns, Matrix3.divideColumns, div_mul_cancel₀ _ hx,
    div_mul_cancel₀ _ hy, div_mul_cancel₀ _ hz]

/-- With factors that are long enough there is a rotation: all numbers are finite. -/
theorem rotationBy?_eq (nearest : Matrix3 ℝ → Matrix3 ℝ) (m : Matrix3 ℝ) {f : Vec3 ℝ}
    (hf : ∀ a ∈ f.toList, Scalar.epsilon ≤ |a|) :
    rotationBy? nearest m f = .ok (.ofMatrix (nearest (m.divideColumns f))) := by
  have hflat : isFlat f = false := by
    unfold isFlat
    refine List.any_eq_false.mpr fun a ha => ?_
    rw [magnitude_eq_abs, Frame.isShort_eq_false_iff.mpr (hf a ha)]
    exact Bool.false_ne_true
  have hfinite : (m.divideColumns f).isFinite = true := List.all_eq_true.mpr fun _ _ => rfl
  unfold rotationBy?
  rw [hflat, if_neg Bool.false_ne_true]
  exact if_pos hfinite

/-- Scaling, rotating and moving, as one affine map. -/
theorem shift_mul_scaling (t : Vec3 ℝ) (m : Matrix3 ℝ) (s : Vec3 ℝ) :
    ((Frame.shift t).mul (.affine m .zero)).mul (Frame.scaling s.x s.y s.z) =
      .affine (m.scaleColumns s) t := by
  have hscaling : Frame.scaling s.x s.y s.z = .affine (Matrix3.diagonal s) .zero := rfl
  rw [Frame.shift, hscaling, Matrix4.affine_mul_affine, Matrix4.affine_mul_affine,
    Matrix3.identity_mul, Matrix3.mul_diagonal]
  simp [Matrix3.apply, Vec3.dot, Vec3.zero]

/-- A scaling by factors that are not too small, a rotation and a shift are taken apart and put
together again.  The offset is that of the shift.  The factors have the sizes of those that were put
in; those of the second and the third axis are positive, and that of the first one is negative if an
odd number was.  The quaternion has length one and a real part that is not negative. -/
theorem recompose_ofMatrixBy (nearest : Matrix3 ℝ → Matrix3 ℝ)
    (hnearest : ∀ r : Matrix3 ℝ, r.IsOrthogonal → nearest r = r) (t : Vec3 ℝ) (m : Matrix3 ℝ)
    (hm : m.IsRotation) (s : Vec3 ℝ) (hs : ∀ f ∈ s.toList, Scalar.epsilon ≤ |f|) :
    let a := ((Frame.shift t).mul (.affine m .zero)).mul (Frame.scaling s.x s.y s.z)
    ∃ d : Decomposition ℝ, ofMatrixBy? nearest a = .ok d ∧ d.recompose = a ∧ d.offset = t ∧
      (|d.scale.x| = |s.x| ∧ |d.scale.y| = |s.y| ∧ |d.scale.z| = |s.z|) ∧
      (0 < d.scale.y ∧ 0 < d.scale.z ∧
        (d.scale.x < 0 ↔ Odd (s.toList.countP fun f => decide (f < 0)))) ∧
      d.rotation.norm = 1 ∧ 0 ≤ d.rotation.w := by
  intro a
  have ha : a = .affine (m.scaleColumns s) t := shift_mul_scaling t m s
  have hnonzero {v : Vec3 ℝ} (hv : ∀ f ∈ v.toList, Scalar.epsilon ≤ |f|) :
      ∀ f ∈ v.toList, f ≠ 0 := fun f hf =>
    abs_pos.mp (ExactScalar.epsilon_pos.trans_le (hv f hf))
  obtain ⟨hx, hy, hz⟩ := Vec3.forall_mem_toList.mp (hnonzero hs)
  -- the factors that are found
  generalize hf : scaleOf (m.scaleColumns s) = f
  have hscale : IsScaleOf f s := hf ▸ scaleOf_scaleColumns hm hx
  have hlong := hscale.epsilon_le hs
  have hrotation := isRotation_divideColumns hm (hnonzero hs) hscale
  -- the rotation that is left
  generalize hr : (m.scaleColumns s).divideColumns f = r at hrotation
  have hparts : ofMatrixBy? nearest a = .ok ⟨t, .ofMatrix r, f⟩ := by
    have hlinear : (Matrix4.affine (m.scaleColumns s) t).linear = m.scaleColumns s := rfl
    rw [ofMatrixBy?, ha, hlinear, hf, rotationBy?_eq nearest _ hlong, hr,
      hnearest r hrotation.orthogonal]
    rfl
  refine ⟨_, hparts, ?_, rfl, ⟨hscale.x, hscale.abs_y, hscale.abs_z⟩, ⟨?_, ?_, ?_⟩,
    Quaternion.norm_ofMatrix hrotation, Quaternion.canonical_w_nonneg _⟩
  · unfold recompose
    rw [Quaternion.toMatrix_ofMatrix hrotation, ← hr, scaleColumns_divideColumns (hnonzero hlong),
      ha]
  · exact hscale.y ▸ abs_pos.mpr hy
  · exact hscale.z ▸ abs_pos.mpr hz
  · rw [hscale.sign, ← prod_neg_iff (hnonzero hs)]
    simp [Vec3.toList, mul_assoc]

/-- A mirror in the second axis, with the way to the nearest rotation by means: it comes back as a
mirror in the first axis. -/
theorem recompose_ofMatrixBy_mirror :
    let s : Vec3 ℝ := ⟨2, -2, 3⟩
    (Matrix3.identity : Matrix3 ℝ).IsRotation ∧ (∀ f ∈ s.toList, Scalar.epsilon ≤ |f|) ∧
      ∃ d : Decomposition ℝ,
        ofMatrix? (((Frame.shift ⟨1, 2, 3⟩).mul (.affine .identity .zero)).mul
          (Frame.scaling s.x s.y s.z)) = .ok d ∧ d.scale.x < 0 := by
  intro s
  have hm : (Matrix3.identity : Matrix3 ℝ).IsRotation :=
    ⟨Matrix3.identity_mul _, Matrix3.det_identity⟩
  have hs : ∀ f ∈ s.toList, Scalar.epsilon ≤ |f| := by
    have hone := Scalar.epsilon_lt_one
    refine Vec3.forall_mem_toList.mpr ⟨?_, ?_, ?_⟩ <;> norm_num [s] <;> linarith
  obtain ⟨d, hd, -, -, -, ⟨-, -, hsign⟩, -⟩ := recompose_ofMatrixBy Matrix3.nearestRotation
    (fun _ => Matrix3.nearestRotation_of_isOrthogonal) ⟨1, 2, 3⟩ .identity hm s hs
  refine ⟨hm, hs, d, hd, hsign.mpr ?_⟩
  norm_num [s, Vec3.toList, List.countP_cons]

end Scaled

end Decomposition
end SceneReader
