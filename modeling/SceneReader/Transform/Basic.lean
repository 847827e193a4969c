import SceneReader.Transform.Frame

/-!
# Transforms

A transform is a matrix together with its inverse, so that composing transforms needs no
inversion.  A transform set holds the two ends of a motion; the active halves are those
that transform directives change.

**Results.**
* `matrix_compose`, `inverse_compose`: composition multiplies the matrices, and the
  inverses in the other order.
* `select_all`: with both halves active, both change.
-/

namespace SceneReader

variable {K : Type} [Scalar K]

/-- A matrix with its inverse. -/
structure Transform (K : Type) where
  matrix : Matrix4 K
  inverse : Matrix4 K

namespace Transform

/-- The transform that changes nothing. -/
def identity : Transform K := ⟨.identity, .identity⟩

/-- Moves everything by a vector. -/
def translate (d : Vec3 K) : Transform K := ⟨Frame.shift d, Frame.shift d.neg⟩

/-- Scales along the axes. -/
def scale? (x y z : K) : Except (TransformFault K) (Transform K) :=
  (Frame.scaling? x y z).map fun m => ⟨m, Frame.scaling (1 / x) (1 / y) (1 / z)⟩

/-- Rotates by an angle in degrees about an axis. -/
def rotate? (angle : K) (axis : Vec3 K) : Except (TransformFault K) (Transform K) :=
  (Frame.rotation? angle axis).map fun m => ⟨m, m.transpose⟩

/-- Sees the world from a camera. -/
def lookAt? (place point up : Vec3 K) : Except (TransformFault K) (Transform K) :=
  (Frame.camera? place point up).map fun m => ⟨Frame.rigidInverse m, m⟩

/-- The transform of a matrix that can be inverted. -/
def ofMatrix? (m : Matrix4 K) : Except (TransformFault K) (Transform K) :=
  if !m.isFinite then .error .notFinite
  else
    match m.inverse? with
    | some i => .ok ⟨m, i⟩
    | none => .error .singular

/-- One transform and then another inside it. -/
def compose (a b : Transform K) : Transform K :=
  ⟨a.matrix.mul b.matrix, b.inverse.mul a.inverse⟩

/-- The transform that undoes this one. -/
def invert {K : Type} (t : Transform K) : Transform K := ⟨t.inverse, t.matrix⟩

/-- The image of a point. -/
def point (t : Transform K) (p : Vec3 K) : Vec3 K :=
  let h := t.matrix.apply ⟨p.x, p.y, p.z, 1⟩
  let q : Vec3 K := ⟨h.x, h.y, h.z⟩
  if Scalar.same h.w 1 || Scalar.same h.w 0 then q else q.divided h.w

/-- The image of a direction. -/
def vector (t : Transform K) (v : Vec3 K) : Vec3 K := t.matrix.linear.apply v

/-- Both matrices are equal, entry by entry. -/
def same (a b : Transform K) : Bool := a.matrix.same b.matrix && a.inverse.same b.inverse

theorem matrix_compose (a b : Transform K) : (a.compose b).matrix = a.matrix.mul b.matrix := rfl

theorem inverse_compose (a b : Transform K) :
    (a.compose b).inverse = b.inverse.mul a.inverse := rfl

end Transform

/-- Which ends of a motion transform directives change. -/
inductive ActiveHalves where
  | atStart
  | atEnd
  | all
deriving DecidableEq

namespace ActiveHalves

/-- The start changes. -/
def hasStart : ActiveHalves → Bool
  | atEnd => false
  | _ => true

/-- The end changes. -/
def hasEnd : ActiveHalves → Bool
  | atStart => false
  | _ => true

end ActiveHalves

/-- The transforms at both ends of a motion. -/
structure TransformSet (K : Type) where
  start : Transform K
  stop : Transform K
  active : ActiveHalves

namespace TransformSet

/-- Nothing is transformed, and both halves are active. -/
def identity : TransformSet K := ⟨.identity, .identity, .all⟩

/-- Changes the active halves. -/
def select {K : Type} (f : Transform K → Transform K) (s : TransformSet K) : TransformSet K :=
  ⟨if s.active.hasStart then f s.start else s.start,
   if s.active.hasEnd then f s.stop else s.stop, s.active⟩

/-- Composes a transform into the active halves. -/
def compose (s : TransformSet K) (t : Transform K) : TransformSet K := s.select (·.compose t)

/-- Puts a transform in the place of the active halves. -/
def replace {K : Type} (s : TransformSet K) (t : Transform K) : TransformSet K :=
  s.select (fun _ => t)

/-- Both halves undone. -/
def invert {K : Type} (s : TransformSet K) : TransformSet K :=
  ⟨s.start.invert, s.stop.invert, s.active⟩

/-- The two ends differ. -/
def isAnimated (s : TransformSet K) : Bool := !s.start.matrix.same s.stop.matrix

/-- Both halves are equal, and the same ones are active. -/
def same (a b : TransformSet K) : Bool :=
  a.start.same b.start && a.stop.same b.stop && decide (a.active = b.active)

/-- The set seen from inside another, half by half. -/
def relativeTo (s base : TransformSet K) : TransformSet K :=
  ⟨base.start.invert.compose s.start, base.stop.invert.compose s.stop, s.active⟩

omit [Scalar K] in
theorem select_all (f : Transform K → Transform K) (s : TransformSet K) (h : s.active = .all) :
    s.select f = ⟨f s.start, f s.stop, .all⟩ := by
  cases s
  simp_all [select, ActiveHalves.hasStart, ActiveHalves.hasEnd]

end TransformSet
end SceneReader
