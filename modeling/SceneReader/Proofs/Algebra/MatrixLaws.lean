import Mathlib.LinearAlgebra.Matrix.NonsingularInverse
import SceneReader.Algebra.Matrix
import SceneReader.Proofs.Algebra.ExactScalar

/-!
# Laws of matrices

Products of matrices by rows are associative and have the identity as unit, and a matrix
that undoes another from one side undoes it from the other.  The last fact is taken from
the library's matrices, of which matrices by rows are another spelling.

**Results.**
* `mul_assoc`, `identity_mul`, `mul_identity`: the product is that of a monoid.
* `IsInverse.of_mul`: one side is enough for an inverse.
* `IsInverse.mul_left_iff`, `IsInverse.mul_right_iff`: what has an inverse is cancelled.
* `affine_mul_affine`: the product of affine maps, part by part.
-/

namespace SceneReader

attribute [ext] Vec3 Vec4 Matrix3 Matrix4

variable {K : Type} [ExactScalar K]

namespace Matrix4

theorem mul_assoc (a b c : Matrix4 K) : (a.mul b).mul c = a.mul (b.mul c) := by
  simp only [mul, transpose, apply, Vec4.dot]
  ext <;> ring

@[simp] theorem identity_mul (a : Matrix4 K) : identity.mul a = a := by
  simp only [mul, transpose, apply, Vec4.dot, identity]
  ext <;> ring

@[simp] theorem mul_identity (a : Matrix4 K) : a.mul identity = a := by
  simp only [mul, transpose, apply, Vec4.dot, identity]
  ext <;> ring

/-- Matrices that compare as the same are equal. -/
theorem same_iff (a b : Matrix4 K) : a.same b = true ↔ a = b := by
  simp [same, toList, rows, Vec4.toList, ExactScalar.same_iff, Matrix4.ext_iff, Vec4.ext_iff,
    and_assoc]

/-- The same matrix as a function of two indices. -/
def toMatrix {K : Type} (m : Matrix4 K) : Matrix (Fin 4) (Fin 4) K :=
  !![m.r0.x, m.r0.y, m.r0.z, m.r0.w;
     m.r1.x, m.r1.y, m.r1.z, m.r1.w;
     m.r2.x, m.r2.y, m.r2.z, m.r2.w;
     m.r3.x, m.r3.y, m.r3.z, m.r3.w]

theorem toMatrix_injective {K : Type} :
    Function.Injective (toMatrix : Matrix4 K → Matrix (Fin 4) (Fin 4) K) := by
  intro a b h
  have entry (i j : Fin 4) : a.toMatrix i j = b.toMatrix i j := by rw [h]
  ext
  · exact entry 0 0
  · exact entry 0 1
  · exact entry 0 2
  · exact entry 0 3
  · exact entry 1 0
  · exact entry 1 1
  · exact entry 1 2
  · exact entry 1 3
  · exact entry 2 0
  · exact entry 2 1
  · exact entry 2 2
  · exact entry 2 3
  · exact entry 3 0
  · exact entry 3 1
  · exact entry 3 2
  · exact entry 3 3

theorem toMatrix_mul (a b : Matrix4 K) : (a.mul b).toMatrix = a.toMatrix * b.toMatrix := by
  ext i j
  fin_cases i <;> fin_cases j <;>
    simp [toMatrix, mul, transpose, apply, Vec4.dot, Matrix.mul_apply, Fin.sum_univ_four]

theorem toMatrix_identity : (identity : Matrix4 K).toMatrix = 1 := by
  ext i j
  fin_cases i <;> fin_cases j <;> rfl

/-- Each matrix undoes the other, from both sides. -/
def IsInverse (a b : Matrix4 K) : Prop :=
  a.mul b = identity ∧ b.mul a = identity

namespace IsInverse

theorem symm {a b : Matrix4 K} (h : IsInverse a b) : IsInverse b a := ⟨h.2, h.1⟩

/-- A matrix that undoes another from the left undoes it from the right. -/
theorem of_mul {a b : Matrix4 K} (h : a.mul b = identity) : IsInverse a b := by
  refine ⟨h, ?_⟩
  have hab : a.toMatrix * b.toMatrix = 1 := by
    rw [← toMatrix_mul, h, toMatrix_identity]
  have hba : b.toMatrix * a.toMatrix = 1 := mul_eq_one_comm.mp hab
  apply toMatrix_injective
  rw [toMatrix_mul, hba, toMatrix_identity]

theorem identity : IsInverse (identity : Matrix4 K) identity :=
  of_mul (identity_mul _)

/-- Products are undone factor by factor, the last factor first. -/
theorem mul {a b c d : Matrix4 K} (hab : IsInverse a b) (hcd : IsInverse c d) :
    IsInverse (a.mul c) (d.mul b) := by
  apply of_mul
  calc (a.mul c).mul (d.mul b)
      = a.mul ((c.mul d).mul b) := by rw [mul_assoc, mul_assoc]
    _ = a.mul b := by rw [hcd.1, identity_mul]
    _ = Matrix4.identity := hab.1

/-- What an inverse takes off, its matrix puts on again. -/
theorem mul_cancel {a b : Matrix4 K} (h : IsInverse a b) (c : Matrix4 K) :
    a.mul (b.mul c) = c := by
  rw [← mul_assoc, h.1, identity_mul]

/-- A factor that has an inverse is cancelled on the left. -/
theorem mul_left_iff {a b : Matrix4 K} (h : IsInverse a b) {c d : Matrix4 K} :
    a.mul c = a.mul d ↔ c = d := by
  refine ⟨fun heq => ?_, congrArg _⟩
  rw [← h.symm.mul_cancel c, heq, h.symm.mul_cancel]

/-- A factor that has an inverse is cancelled on the right. -/
theorem mul_right_iff {a b : Matrix4 K} (h : IsInverse a b) {c d : Matrix4 K} :
    c.mul a = d.mul a ↔ c = d := by
  refine ⟨fun heq => ?_, fun heq => heq ▸ rfl⟩
  rw [← mul_identity c, ← mul_identity d, ← h.1, ← mul_assoc, ← mul_assoc, heq]

end IsInverse

/-- The product of affine maps: linear parts are multiplied, and the second offset goes
through the first linear part. -/
theorem affine_mul_affine (a b : Matrix3 K) (v w : Vec3 K) :
    (affine a v).mul (affine b w) =
      affine (a.mul b)
        ⟨(a.apply w).x + v.x, (a.apply w).y + v.y, (a.apply w).z + v.z⟩ := by
  simp only [affine, mul, transpose, apply, Vec4.dot, Matrix3.mul, Matrix3.ofColumns,
    Matrix3.apply, Matrix3.column0, Matrix3.column1, Matrix3.column2, Matrix3.transpose, Vec3.dot]
  ext <;> ring

end Matrix4
end SceneReader
