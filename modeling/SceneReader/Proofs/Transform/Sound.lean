import SceneReader.Engine.Admission
import SceneReader.Proofs.Algebra.Elimination
import SceneReader.Proofs.Transform.Rigid
import SceneReader.Transform.Basic

/-!
# Transforms with true inverses

No transform is ever inverted when it is used: it carries an inverse that was put together
with it.  A transform is sound when the inverse that it carries is one, from both sides.
Every way to make a transform gives a sound one, and composing, undoing and selecting keep
them sound.

**Results.**
* `isSound_of_motion?`: the transform that a directive asks for is sound.
* `Transform.IsSound.invert_compose_cancel`: what is composed is found again.
* `TransformSet.IsSound.compose`, `TransformSet.IsSound.invert`,
  `TransformSet.IsSound.relativeTo`: so are sets made from sound sets.
-/

namespace SceneReader

variable {K : Type} [ExactScalar K]

/-- The inverse that the transform carries is its inverse. -/
def Transform.IsSound (t : Transform K) : Prop := Matrix4.IsInverse t.matrix t.inverse

namespace Transform

theorem isSound_identity : (identity : Transform K).IsSound := Matrix4.IsInverse.identity

theorem IsSound.compose {a b : Transform K} (ha : a.IsSound) (hb : b.IsSound) :
    (a.compose b).IsSound :=
  Matrix4.IsInverse.mul ha hb

theorem IsSound.invert {t : Transform K} (h : t.IsSound) : t.invert.IsSound :=
  Matrix4.IsInverse.symm h

theorem isSound_translate (d : Vec3 K) : (translate d).IsSound := by
  apply Matrix4.IsInverse.of_mul
  simp only [translate, Frame.shift, Matrix4.affine_mul_affine]
  simp only [Matrix3.mul, Matrix3.apply, Matrix3.transpose, Matrix3.ofColumns, Matrix3.column0,
    Matrix3.column1, Matrix3.column2, Matrix3.identity, Matrix4.affine, Matrix4.identity,
    Vec3.dot, Vec3.neg]
  ext <;> ring

theorem isSound_scale {x y z : K} {t : Transform K} (h : scale? x y z = .ok t) : t.IsSound := by
  obtain ⟨m, hm, rfl⟩ := Success.of_map h
  unfold Frame.scaling? at hm
  split at hm
  · cases hm
  · rename_i hzero
    cases hm
    simp only [Bool.or_eq_true, ExactScalar.same_iff, not_or] at hzero
    obtain ⟨⟨hx, hy⟩, hz⟩ := hzero
    apply Matrix4.IsInverse.of_mul
    simp only [Frame.scaling, Matrix4.mul, Matrix4.transpose, Matrix4.apply, Vec4.dot,
      Matrix4.affine, Matrix4.identity, Vec3.zero]
    ext <;> field_simp <;> ring

theorem isSound_rotate {angle : K} {axis : Vec3 K} {t : Transform K}
    (h : rotate? angle axis = .ok t) : t.IsSound := by
  obtain ⟨m, hm, rfl⟩ := Success.of_map h
  unfold Frame.rotation? at hm
  split at hm
  · cases hm
  · rename_i hlong
    obtain ⟨sc, hsc, rfl⟩ := Success.of_map hm
    have hunit : sc.1 * sc.1 + sc.2 * sc.2 = 1 := by
      unfold Frame.sineCosine? at hsc
      split at hsc
      · cases hsc
      · cases hsc
        exact ExactScalar.sin_cos _
    have haxis := Vec3.dot_unit (by simpa [Frame.isShort] using hlong)
    have hortho := Frame.rotationAbout_isOrthogonal haxis hunit
    -- without a shift, the rigid inverse is the transpose
    have h := (Frame.rigidInverse_isInverse hortho .zero).symm
    have hinv : Frame.rigidInverse (.affine (Frame.rotationAbout (axis.divided axis.length)
        sc.1 sc.2) .zero) = (Matrix4.affine (Frame.rotationAbout (axis.divided axis.length)
        sc.1 sc.2) .zero).transpose := by
      simp only [Frame.rigidInverse, Matrix3.map_neg_apply]
      simp only [Matrix4.affine, Matrix4.linear, Matrix4.offset, Matrix4.transpose,
        Matrix3.transpose, Matrix3.apply, Vec3.dot, Vec3.neg, Vec3.zero]
      ext <;> simp
    rw [hinv] at h
    exact h

theorem isSound_lookAt {place point up : Vec3 K} {t : Transform K}
    (h : lookAt? place point up = .ok t) : t.IsSound := by
  obtain ⟨m, hm, rfl⟩ := Success.of_map h
  obtain ⟨r, hr, rfl⟩ := Frame.camera?_isOrthogonal hm
  exact Frame.rigidInverse_isInverse hr place

theorem isSound_ofMatrix {m : Matrix4 K} {t : Transform K} (h : ofMatrix? m = .ok t) :
    t.IsSound := by
  unfold ofMatrix? at h
  split at h
  · cases h
  · split at h
    · rename_i i hi
      cases h
      exact Matrix4.isInverse_of_inverse? hi
    · cases h

/-! ## Transforms one after the other -/

theorem compose_assoc (a b c : Transform K) :
    (a.compose b).compose c = a.compose (b.compose c) := by
  simp only [compose, Matrix4.mul_assoc]

theorem compose_identity (a : Transform K) : a.compose identity = a := by
  simp only [compose, identity, Matrix4.mul_identity, Matrix4.identity_mul]

/-- What is composed with a sound transform is found again from inside of it. -/
theorem IsSound.invert_compose_cancel {a : Transform K} (h : a.IsSound) (b : Transform K) :
    a.invert.compose (a.compose b) = b := by
  unfold Transform.compose Transform.invert
  dsimp only
  rw [← Matrix4.mul_assoc, h.2, Matrix4.identity_mul, Matrix4.mul_assoc, h.2,
    Matrix4.mul_identity]

/-- From inside of two transforms the same sound one is seen the same way only if they are
the same. -/
theorem eq_of_invert_compose_eq {a a' b : Transform K} (hb : b.IsSound)
    (h : a.invert.compose b = a'.invert.compose b) : a = a' := by
  have hcancel := congrArg (·.compose b.invert) h
  simp only [compose_assoc] at hcancel
  have hone : b.compose b.invert = identity := by
    unfold Transform.compose Transform.invert identity
    rw [hb.1]
  rw [hone, compose_identity, compose_identity] at hcancel
  exact congrArg Transform.invert hcancel

end Transform

/-- The transform that a directive asks for is sound. -/
theorem isSound_of_motion? {d : Directive} {t : Transform K}
    (h : motion? (K := K) d = some (.ok t)) : t.IsSound := by
  unfold motion? at h
  split at h
  · cases h
    exact Transform.isSound_translate _
  · exact Transform.isSound_scale (Option.some.inj h)
  · exact Transform.isSound_rotate (Option.some.inj h)
  · exact Transform.isSound_lookAt (Option.some.inj h)
  · obtain ⟨m, -, hm⟩ := Success.of_bind (Option.some.inj h)
    exact Transform.isSound_ofMatrix hm
  · obtain ⟨m, -, hm⟩ := Success.of_bind (Option.some.inj h)
    exact Transform.isSound_ofMatrix hm
  · cases h

/-- Both ends of the motion are sound. -/
def TransformSet.IsSound (s : TransformSet K) : Prop := s.start.IsSound ∧ s.stop.IsSound

namespace TransformSet

theorem isSound_identity : (identity : TransformSet K).IsSound :=
  ⟨Transform.isSound_identity, Transform.isSound_identity⟩

/-- Changing the active halves keeps a set sound if it keeps transforms sound. -/
theorem IsSound.select {f : Transform K → Transform K}
    (hf : ∀ t : Transform K, t.IsSound → (f t).IsSound) {s : TransformSet K} (h : s.IsSound) :
    (s.select f).IsSound := by
  unfold TransformSet.select
  refine ⟨?_, ?_⟩
  · dsimp only
    split
    · exact hf _ h.1
    · exact h.1
  · dsimp only
    split
    · exact hf _ h.2
    · exact h.2

theorem IsSound.compose {s : TransformSet K} {t : Transform K} (hs : s.IsSound)
    (ht : t.IsSound) : (s.compose t).IsSound :=
  hs.select fun _ h => h.compose ht

theorem IsSound.replace {s : TransformSet K} {t : Transform K} (hs : s.IsSound)
    (ht : t.IsSound) : (s.replace t).IsSound :=
  hs.select fun _ _ => ht

theorem IsSound.invert {s : TransformSet K} (h : s.IsSound) : s.invert.IsSound :=
  ⟨h.1.invert, h.2.invert⟩

theorem IsSound.relativeTo {s base : TransformSet K} (hs : s.IsSound) (hb : base.IsSound) :
    (s.relativeTo base).IsSound :=
  ⟨hb.1.invert.compose hs.1, hb.2.invert.compose hs.2⟩

end TransformSet
end SceneReader
