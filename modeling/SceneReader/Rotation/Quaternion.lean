import SceneReader.Transform.Frame

/-!
# Quaternions

Rotations as quaternions of length one.  A quaternion and its opposite are the same
rotation; the canonical one of the two has a real part that is not negative.

Angles of roll, pitch and yaw turn about the first, the second and the third axis, in
this order.

-/

namespace SceneReader

/-- A real part and three imaginary ones. -/
structure Quaternion (K : Type) where
  w : K
  x : K
  y : K
  z : K
deriving DecidableEq

namespace Quaternion

/-- The parts in order. -/
def toList {K : Type} (q : Quaternion K) : List K := [q.w, q.x, q.y, q.z]

variable {K : Type} [Scalar K]

/-- The rotation that changes nothing. -/
def identity : Quaternion K := ⟨1, 0, 0, 0⟩

/-- The quaternion with all parts divided. -/
def divided (q : Quaternion K) (s : K) : Quaternion K := ⟨q.w / s, q.x / s, q.y / s, q.z / s⟩

/-- The opposite quaternion. -/
def neg (q : Quaternion K) : Quaternion K := ⟨-q.w, -q.x, -q.y, -q.z⟩

/-- The inner product. -/
def dot (a b : Quaternion K) : K := a.w * b.w + a.x * b.x + a.y * b.y + a.z * b.z

/-- The length. -/
def norm (q : Quaternion K) : K := Scalar.sqrt (q.dot q)

/-- The quaternion brought to length one; one without length becomes the identity. -/
def normalized (q : Quaternion K) : Quaternion K :=
  if Frame.isShort q.norm then identity else q.divided q.norm

/-- The same rotation with a real part that is not negative. -/
def canonical (q : Quaternion K) : Quaternion K :=
  if Scalar.less q.w 0 then q.neg else q

/-- The rotation the other way round. -/
def conjugate (q : Quaternion K) : Quaternion K := ⟨q.w, -q.x, -q.y, -q.z⟩

/-- The product: the right factor rotates first. -/
def mul (a b : Quaternion K) : Quaternion K :=
  ⟨a.w * b.w - a.x * b.x - a.y * b.y - a.z * b.z,
   a.w * b.x + a.x * b.w + a.y * b.z - a.z * b.y,
   a.w * b.y - a.x * b.z + a.y * b.w + a.z * b.x,
   a.w * b.z + a.x * b.y - a.y * b.x + a.z * b.w⟩

/-- Both are the same rotation, up to a tolerance. -/
def isClose (a b : Quaternion K) (tolerance : K) : Bool :=
  let gap := Scalar.magnitude (Scalar.magnitude (a.dot b) - 1)
  Scalar.less gap tolerance || Scalar.same gap tolerance

/-- The sine and the cosine of half an angle in degrees. -/
def halfSineCosine? (angle : K) : Except (TransformFault K) (K × K) :=
  if Scalar.isInfinite angle then .error .unboundedAngle
  else
    let half := Scalar.radians angle / Scalar.two
    .ok (Scalar.sin half, Scalar.cos half)

/-- The rotation by an angle in degrees about an axis. -/
def ofAxisAngle? (axis : Vec3 K) (angle : K) : Except (TransformFault K) (Quaternion K) :=
  if Frame.isShort axis.length then .error .zeroAxis
  else (halfSineCosine? angle).map fun sc =>
    let u := axis.divided axis.length
    canonical ⟨sc.2, u.x * sc.1, u.y * sc.1, u.z * sc.1⟩

/-- The number four. -/
def four : K := Scalar.two + Scalar.two

/-- The quaternion of a rotation matrix before it is brought to length one.  The root is
taken of the largest of the four squares, up to a bound. -/
def extract (r : Matrix3 K) : Quaternion K :=
  let trace := r.r0.x + r.r1.y + r.r2.z
  if Scalar.less 0 trace then
    let s := Scalar.sqrt (trace + 1) * Scalar.two
    ⟨s / four, (r.r2.y - r.r1.z) / s, (r.r0.z - r.r2.x) / s, (r.r1.x - r.r0.y) / s⟩
  else if Scalar.less r.r1.y r.r0.x && Scalar.less r.r2.z r.r0.x then
    let s := Scalar.sqrt (1 + r.r0.x - r.r1.y - r.r2.z) * Scalar.two
    ⟨(r.r2.y - r.r1.z) / s, s / four, (r.r0.y + r.r1.x) / s, (r.r0.z + r.r2.x) / s⟩
  else if Scalar.less r.r2.z r.r1.y then
    let s := Scalar.sqrt (1 + r.r1.y - r.r0.x - r.r2.z) * Scalar.two
    ⟨(r.r0.z - r.r2.x) / s, (r.r0.y + r.r1.x) / s, s / four, (r.r1.z + r.r2.y) / s⟩
  else
    let s := Scalar.sqrt (1 + r.r2.z - r.r0.x - r.r1.y) * Scalar.two
    ⟨(r.r1.x - r.r0.y) / s, (r.r0.z + r.r2.x) / s, (r.r1.z + r.r2.y) / s, s / four⟩

/-- The quaternion of a rotation matrix. -/
def ofMatrix (r : Matrix3 K) : Quaternion K := (extract r).normalized.canonical

/-- The rotation of roll, pitch and yaw angles in degrees. -/
def ofEuler? (roll pitch yaw : K) : Except (TransformFault K) (Quaternion K) := do
  let (sx, cx) ← halfSineCosine? roll
  let (sy, cy) ← halfSineCosine? pitch
  let (sz, cz) ← halfSineCosine? yaw
  return canonical
    ⟨cx * cy * cz + sx * sy * sz, sx * cy * cz - cx * sy * sz,
     cx * sy * cz + sx * cy * sz, cx * cy * sz - sx * sy * cz⟩

/-- Roll, pitch and yaw angles in degrees. -/
def toEuler (q : Quaternion K) : Vec3 K :=
  let two : K := Scalar.two
  ⟨Scalar.degrees (Scalar.angleOf (two * (q.w * q.x + q.y * q.z))
      (1 - two * (q.x * q.x + q.y * q.y))),
   Scalar.degrees (Scalar.arcsin (Scalar.clampUnit (two * (q.w * q.y - q.x * q.z)))),
   Scalar.degrees (Scalar.angleOf (two * (q.w * q.z + q.x * q.y))
      (1 - two * (q.y * q.y + q.z * q.z)))⟩

/-- The rotation matrix. -/
def toMatrix (q : Quaternion K) : Matrix3 K :=
  let two : K := Scalar.two
  ⟨⟨1 - two * (q.y * q.y + q.z * q.z), two * (q.x * q.y - q.w * q.z),
    two * (q.x * q.z + q.w * q.y)⟩,
   ⟨two * (q.x * q.y + q.w * q.z), 1 - two * (q.x * q.x + q.z * q.z),
    two * (q.y * q.z - q.w * q.x)⟩,
   ⟨two * (q.x * q.z - q.w * q.y), two * (q.y * q.z + q.w * q.x),
    1 - two * (q.x * q.x + q.y * q.y)⟩⟩

end Quaternion
end SceneReader
