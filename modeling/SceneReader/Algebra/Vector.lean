import SceneReader.Algebra.Scalar

/-!
# Vectors

Vectors of three and of four components, with their sums, multiples, inner products and,
in three dimensions, cross products and lengths.
-/

namespace SceneReader

/-- A vector of space. -/
structure Vec3 (K : Type) where
  x : K
  y : K
  z : K
deriving DecidableEq

/-- A row of homogeneous coordinates. -/
structure Vec4 (K : Type) where
  x : K
  y : K
  z : K
  w : K
deriving DecidableEq

variable {K : Type} [Scalar K]

namespace Vec3

/-- The components in order. -/
def toList {K : Type} (v : Vec3 K) : List K := [v.x, v.y, v.z]

/-- The vector with every component changed alike. -/
def map {K L : Type} (f : K → L) (v : Vec3 K) : Vec3 L := ⟨f v.x, f v.y, f v.z⟩

/-- The vector without length. -/
def zero : Vec3 K := ⟨0, 0, 0⟩

/-- The difference, component by component. -/
def sub (a b : Vec3 K) : Vec3 K := ⟨a.x - b.x, a.y - b.y, a.z - b.z⟩

/-- The opposite vector. -/
def neg (a : Vec3 K) : Vec3 K := ⟨-a.x, -a.y, -a.z⟩

/-- The vector with every component divided. -/
def divided (a : Vec3 K) (s : K) : Vec3 K := ⟨a.x / s, a.y / s, a.z / s⟩

/-- The inner product. -/
def dot (a b : Vec3 K) : K := a.x * b.x + a.y * b.y + a.z * b.z

/-- The cross product. -/
def cross (a b : Vec3 K) : Vec3 K :=
  ⟨a.y * b.z - a.z * b.y, a.z * b.x - a.x * b.z, a.x * b.y - a.y * b.x⟩

/-- The length. -/
def length (a : Vec3 K) : K := Scalar.sqrt (a.dot a)

end Vec3

namespace Vec4

/-- The components in order. -/
def toList {K : Type} (v : Vec4 K) : List K := [v.x, v.y, v.z, v.w]

/-- The difference, component by component. -/
def sub (a b : Vec4 K) : Vec4 K := ⟨a.x - b.x, a.y - b.y, a.z - b.z, a.w - b.w⟩

/-- The row with every component multiplied. -/
def times (a : Vec4 K) (s : K) : Vec4 K := ⟨a.x * s, a.y * s, a.z * s, a.w * s⟩

/-- The row with every component divided. -/
def divided (a : Vec4 K) (s : K) : Vec4 K := ⟨a.x / s, a.y / s, a.z / s, a.w / s⟩

/-- The inner product. -/
def dot (a b : Vec4 K) : K := a.x * b.x + a.y * b.y + a.z * b.z + a.w * b.w

end Vec4
end SceneReader
