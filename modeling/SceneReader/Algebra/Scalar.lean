/-!
# Scalars

What the geometry needs of numbers: the four operations, square root, the trigonometric
functions, comparisons, and a way to bring in the numbers that scene files hold.
Binary floating point is one instance; it has values that are no numbers, so whether a
scalar is finite is part of the interface.
-/

namespace SceneReader

/-- Numbers to compute with. -/
class Scalar (K : Type) extends Add K, Sub K, Mul K, Div K, Neg K, Zero K, One K where
  /-- A number from a scene file. -/
  ofFloat : Float → K
  sqrt : K → K
  sin : K → K
  cos : K → K
  arcsin : K → K
  /-- The angle of the point with the given ordinate and abscissa. -/
  angleOf : K → K → K
  /-- Half the circumference of the unit circle. -/
  pi : K
  /-- Strictly less. -/
  less : K → K → Bool
  /-- Equal as numbers. -/
  same : K → K → Bool
  /-- Neither infinite nor undefined. -/
  isFinite : K → Bool
  /-- Beyond all numbers on either side. -/
  isInfinite : K → Bool

namespace Scalar

variable {K : Type} [Scalar K]

/-- The number two. -/
def two : K := 1 + 1

/-- Lengths below this count as none. -/
def epsilon : K := ofFloat 1e-12

/-- The distance from zero. -/
def magnitude (x : K) : K :=
  if less x 0 then -x else x

/-- Degrees in half a turn. -/
def halfTurn : K := ofFloat 180.0

/-- An angle given in degrees. -/
def radians (angle : K) : K := angle * (pi / halfTurn)

/-- An angle in degrees. -/
def degrees (angle : K) : K := angle * (halfTurn / pi)

/-- A number brought between minus one and one. -/
def clampUnit (x : K) : K :=
  let upper := if less x 1 then x else 1
  if less (-1) upper then upper else -1

end Scalar

instance : Scalar Float where
  add := Float.add
  sub := Float.sub
  mul := Float.mul
  div := Float.div
  neg := Float.neg
  zero := 0.0
  one := 1.0
  ofFloat x := x
  sqrt := Float.sqrt
  sin := Float.sin
  cos := Float.cos
  arcsin := Float.asin
  angleOf := Float.atan2
  pi := 3.141592653589793
  less a b := a < b
  same a b := a == b
  isFinite := Float.isFinite
  isInfinite := Float.isInf

end SceneReader
