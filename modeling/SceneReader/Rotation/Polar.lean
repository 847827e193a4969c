import SceneReader.Algebra.Matrix

/-!
# Nearest rotations

The nearest orthonormal matrix of a matrix without kernel is the limit of taking the
mean of the matrix and its inverse transposed.  The mean keeps an orthonormal matrix as
it is and brings every factor of stretching nearer to one: a large one to its half, so
that a hundred means are enough for all factors that double precision tells from zero.

A matrix with a kernel is first completed by its cofactors, which stretch exactly the
kernel.
-/

namespace SceneReader
namespace Matrix3

variable {K : Type} [Scalar K]

/-- The sum, entry by entry. -/
def add (a b : Matrix3 K) : Matrix3 K :=
  let row (u v : Vec3 K) : Vec3 K := ⟨u.x + v.x, u.y + v.y, u.z + v.z⟩
  ⟨row a.r0 b.r0, row a.r1 b.r1, row a.r2 b.r2⟩

/-- The matrix with every entry divided. -/
def divided (m : Matrix3 K) (s : K) : Matrix3 K := m.map (· / s)

/-- The mean of a matrix and its inverse transposed. -/
def polarMean (m : Matrix3 K) : Matrix3 K :=
  (m.add (m.cofactors.divided m.det)).divided Scalar.two

/-- The matrix, or if it has a kernel the matrix completed there. -/
def completed (m : Matrix3 K) : Matrix3 K :=
  if Scalar.same m.det 0 then m.add m.cofactors else m

/-- The mean taken a number of times. -/
def polarMeans : Nat → Matrix3 K → Matrix3 K
  | 0, m => m
  | n + 1, m => polarMeans n m.polarMean

/-- The nearest orthonormal matrix. -/
def nearestRotation (m : Matrix3 K) : Matrix3 K := polarMeans 100 m.completed

/-- All entries are finite. -/
def isFinite (m : Matrix3 K) : Bool := m.toList.all Scalar.isFinite

end Matrix3
end SceneReader
