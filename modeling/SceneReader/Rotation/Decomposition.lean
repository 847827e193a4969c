import SceneReader.Rotation.Polar
import SceneReader.Rotation.Quaternion

/-!
# Offset, rotation and scale

An affine map is taken apart into an offset, a rotation and factors along the axes.
A reflection goes into the factor of the first axis, and a shear into the nearest
rotation.  Where a factor is too small to divide by, the rotation is the identity.

**Results.**
* `offset_recompose`: putting the parts together keeps the offset.
-/

namespace SceneReader

/-- The parts of an affine map. -/
structure Decomposition (K : Type) where
  offset : Vec3 K
  rotation : Quaternion K
  scale : Vec3 K

/-- The matrix of the map has entries that are no numbers. -/
inductive DecompositionFault where
  | undefinedRotation
deriving DecidableEq

namespace Decomposition

variable {K : Type} [Scalar K]

/-- The map that scales, rotates and moves, in this order. -/
def recompose (d : Decomposition K) : Matrix4 K :=
  .affine (d.rotation.toMatrix.scaleColumns d.scale) d.offset

/-- Roll, pitch and yaw angles in degrees. -/
def euler (d : Decomposition K) : Vec3 K := d.rotation.toEuler

/-- The factors along the axes. -/
def scaleOf (a : Matrix3 K) : Vec3 K :=
  let first := a.column0.length
  ⟨if Scalar.less a.det 0 then -first else first, a.column1.length, a.column2.length⟩

/-- A factor is too small to divide by. -/
def isFlat (s : Vec3 K) : Bool :=
  s.toList.any (fun f => Frame.isShort (Scalar.magnitude f))

/-- The rotation that is nearest to a map without its scale, if `nearest` finds the nearest
orthonormal matrix of a matrix. -/
def rotationBy? (nearest : Matrix3 K → Matrix3 K) (a : Matrix3 K) (s : Vec3 K) :
    Except DecompositionFault (Quaternion K) :=
  if isFlat s then .ok .identity
  else
    let r := a.divideColumns s
    if r.isFinite then .ok (.ofMatrix (nearest r)) else .error .undefinedRotation

/-- The parts of an affine map, if `nearest` finds the nearest orthonormal matrix of a matrix. -/
def ofMatrixBy? (nearest : Matrix3 K → Matrix3 K) (m : Matrix4 K) :
    Except DecompositionFault (Decomposition K) :=
  (rotationBy? nearest m.linear (scaleOf m.linear)).map fun q =>
    ⟨m.offset, q, scaleOf m.linear⟩

/-- The parts of an affine map. -/
def ofMatrix? (m : Matrix4 K) : Except DecompositionFault (Decomposition K) :=
  ofMatrixBy? Matrix3.nearestRotation m

theorem offset_recompose (d : Decomposition K) :
    d.recompose.offset = d.offset := rfl

end Decomposition
end SceneReader
