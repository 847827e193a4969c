import SceneReader.Algebra.Inverse
import SceneReader.Number.Shortest

/-!
# Matrices of elementary motions

Shifts, scalings, rotations and camera frames as matrices, each beside the matrix
that undoes it where one is needed.  What has no inverse is refused: a scaling by zero,
an axis or a direction without length, an up vector along the viewing direction.
-/

namespace SceneReader

/-- Why there is no such transform. -/
inductive TransformFault (K : Type) where
  | zeroScale (x y z : K)
  | zeroAxis
  | zeroVector
  | parallelUp
  | notFinite
  | singular
  /-- Turning without end has no sine and no cosine. -/
  | unboundedAngle
  | elementCount (count : Nat)
  | wrongShape (rows columns : Nat)

namespace TransformFault

/-- The transform is degenerate, which readers of scenes recover from. -/
def isDegenerate {K : Type} : TransformFault K → Bool
  | unboundedAngle => false
  | elementCount _ => false
  | wrongShape _ _ => false
  | _ => true

/-- The message of a fault. -/
def message : TransformFault Float → String
  | zeroScale x y z =>
      "zero scale factor in (" ++ ", ".intercalate ([x, y, z].map Number.exactText) ++ ")"
  | zeroAxis => "zero-length rotation axis"
  | zeroVector => "cannot normalize a zero-length vector"
  | parallelUp => "up vector and viewing direction are parallel"
  | notFinite => "matrix has non-finite elements"
  | singular => "matrix is singular"
  | unboundedAngle => "math domain error"
  | elementCount n => "expected 16 matrix elements, got " ++ toString n
  | wrongShape rows columns =>
      "expected a 4x4 matrix, got shape (" ++ toString rows ++ ", " ++ toString columns ++ ")"

end TransformFault

namespace Frame

variable {K : Type} [Scalar K]

/-- Moves everything by a vector. -/
def shift (d : Vec3 K) : Matrix4 K := .affine .identity d

/-- Scales along the axes. -/
def scaling (x y z : K) : Matrix4 K :=
  .affine ⟨⟨x, 0, 0⟩, ⟨0, y, 0⟩, ⟨0, 0, z⟩⟩ .zero

/-- A scaling by factors none of which is zero. -/
def scaling? (x y z : K) : Except (TransformFault K) (Matrix4 K) :=
  if Scalar.same x 0 || Scalar.same y 0 || Scalar.same z 0 then .error (.zeroScale x y z)
  else .ok (scaling x y z)

/-- The length is too small to divide by. -/
def isShort (length : K) : Bool := Scalar.less length Scalar.epsilon

/-- The sine and the cosine of an angle in degrees. -/
def sineCosine? (angle : K) : Except (TransformFault K) (K × K) :=
  if Scalar.isInfinite angle then .error .unboundedAngle
  else .ok (Scalar.sin (Scalar.radians angle), Scalar.cos (Scalar.radians angle))

/-- The rotation about an axis of length one by the angle with the given sine and
cosine. -/
def rotationAbout (u : Vec3 K) (s c : K) : Matrix3 K :=
  let t := 1 - c
  ⟨⟨c + u.x * u.x * t, u.x * u.y * t - u.z * s, u.x * u.z * t + u.y * s⟩,
   ⟨u.y * u.x * t + u.z * s, c + u.y * u.y * t, u.y * u.z * t - u.x * s⟩,
   ⟨u.z * u.x * t - u.y * s, u.z * u.y * t + u.x * s, c + u.z * u.z * t⟩⟩

/-- The rotation by an angle in degrees about an axis. -/
def rotation? (angle : K) (axis : Vec3 K) : Except (TransformFault K) (Matrix4 K) :=
  if isShort axis.length then .error .zeroAxis
  else (sineCosine? angle).map fun sc =>
    .affine (rotationAbout (axis.divided axis.length) sc.1 sc.2) .zero

/-- The vector of length one in the same direction. -/
def normalize? (v : Vec3 K) : Except (TransformFault K) (Vec3 K) :=
  if isShort v.length then .error .zeroVector else .ok (v.divided v.length)

/-- The frame of a camera at a place, looking at a point, with the given direction
upward: its axes are the columns. -/
def camera? (place point up : Vec3 K) : Except (TransformFault K) (Matrix4 K) := do
  let direction ← normalize? (point.sub place)
  let upward ← normalize? up
  let side := upward.cross direction
  if isShort side.length then .error .parallelUp
  else
    let right ← normalize? side
    return .affine (.ofColumns right (direction.cross right) direction) place

/-- Undoes a rotation with a shift after it. -/
def rigidInverse (m : Matrix4 K) : Matrix4 K :=
  let r := m.linear.transpose
  .affine r ((r.map Neg.neg).apply m.offset)

/-- The length of a vector of two components. -/
def planeLength (a b : K) : K := Scalar.sqrt (a * a + b * b)

/-- A direction across `w`, in the coordinate plane that `w` is far from. -/
def across (w : Vec3 K) : Vec3 K :=
  if Scalar.less (Scalar.magnitude w.y) (Scalar.magnitude w.x) then
    (⟨-w.z, 0, w.x⟩ : Vec3 K).divided (planeLength w.x w.z)
  else (⟨0, w.z, -w.y⟩ : Vec3 K).divided (planeLength w.y w.z)

/-- A right-handed frame whose third axis has the given direction. -/
def ofDirection? (direction : Vec3 K) : Except (TransformFault K) (Matrix4 K) := do
  let w ← normalize? direction
  let u := across w
  return .affine (.ofColumns u (w.cross u) w) .zero

/-- The matrix of sixteen numbers, column by column. -/
def ofColumnMajor? (values : List K) : Except (TransformFault K) (Matrix4 K) :=
  match Matrix4.ofList? values with
  | some m => .ok m.transpose
  | none => .error (.elementCount values.length)

/-- The entries of a matrix, column by column. -/
def columnMajor (m : Matrix4 K) : List K := m.transpose.toList

end Frame
end SceneReader
