import SceneReader.Engine.State
import SceneReader.Number.Reading
import SceneReader.Number.Significant
import SceneReader.Rotation.Decomposition

/-!
# Components

What a node of the scene graph carries: a transform, references to resources, render
settings.  A node has at most one component of each kind.

Components are shown with six digits.  A transform is shown by its offset, its
angles and its scale; numbers too small to matter count as zero, half a turn has no
sign, and where the pitch is upright only the pitch is defined.
-/

namespace SceneReader

/-- Kinds of components. -/
inductive ComponentKind where
  | transform
  | shape
  | material
  | light
  | areaLight
  | camera
  | setting (kind : SettingKind)
  | animation
  | placed
  | coordinateSystem
  | scene
deriving DecidableEq

namespace ComponentKind

/-- All kinds. -/
def all : List ComponentKind :=
  [.transform, .shape, .material, .light, .areaLight, .camera] ++
    SettingKind.all.map .setting ++ [.animation, .placed, .coordinateSystem, .scene]

/-- The word for a kind. -/
def text : ComponentKind → String
  | transform => "transform"
  | shape => "shape"
  | material => "material"
  | light => "light"
  | areaLight => "area_light"
  | camera => "camera"
  | setting kind => kind.text
  | animation => "animation"
  | placed => "instance"
  | coordinateSystem => "coordinate_system"
  | scene => "scene"

/-- The kind of a word. -/
def ofText? (s : String) : Option ComponentKind := all.find? (fun k => k.text == s)

end ComponentKind

/-- A component of a node. -/
inductive Component (K : Type) where
  /-- The transform from the node to its parent. -/
  | transform (matrix : Matrix4 K)
  | shape (id : ResourceId) (reversed : Bool) (inside outside : String)
  | material (id : Option ResourceId)
  | light (id : ResourceId)
  | areaLight (id : ResourceId)
  | camera (setting : RenderSetting) (cameraToWorld : Matrix4 K)
  | setting (kind : SettingKind) (setting : RenderSetting)
  /-- The transforms of a moving node at two times. -/
  | animation (start : Matrix4 K) (startTime : Float) (stop : Matrix4 K) (stopTime : Float)
  /-- An object is placed here. -/
  | placed (object : String)
  | coordinateSystem (up : Vec3 K)
  | scene (filename fullpath : String)

namespace Component

/-- The kind of a component. -/
def kind {K : Type} : Component K → ComponentKind
  | transform _ => .transform
  | shape _ _ _ _ => .shape
  | material _ => .material
  | light _ => .light
  | areaLight _ => .areaLight
  | camera _ _ => .camera
  | setting k _ => .setting k
  | animation _ _ _ _ => .animation
  | placed _ => .placed
  | coordinateSystem _ => .coordinateSystem
  | scene _ _ => .scene

end Component

/-! ## The upward axis -/

namespace UpAxis

variable {K : Type} [Scalar K]

/-- The number is none. -/
def isUndefined (x : K) : Bool := !Scalar.same x x

/-- The index of the component that is farthest from zero, the first of equals.  What is
no number counts as farthest. -/
def dominant (v : Vec3 K) : Nat :=
  let beats (a b : K) : Bool := Scalar.less b a || (isUndefined a && !isUndefined b)
  let m := v.map Scalar.magnitude
  if beats m.y m.x then (if beats m.z m.y then 2 else 1) else if beats m.z m.x then 2 else 0

/-- The unit vector of an axis in the direction of a number. -/
def unit (index : Nat) (x : K) : Vec3 K :=
  let s : K := if Scalar.less 0 x || Scalar.same x 0 then 1 else -1
  match index with
  | 0 => ⟨s, 0, 0⟩
  | 1 => ⟨0, s, 0⟩
  | _ => ⟨0, 0, s⟩

/-- The upward direction of a camera, brought to the axis that it is closest to. -/
def ofCamera (cameraToWorld : Matrix4 K) : Vec3 K :=
  let up := cameraToWorld.linear.column1
  match dominant up with
  | 0 => unit 0 up.x
  | 1 => unit 1 up.y
  | n => unit n up.z

/-- The letter of the axis that a vector is closest to. -/
def letter (v : Vec3 K) : String :=
  let m := v.map Scalar.magnitude
  if Scalar.less m.x m.y then (if Scalar.less m.y m.z then "Z" else "Y")
  else if Scalar.less m.x m.z then "Z" else "X"

/-- The smallest component. -/
def least (v : Vec3 K) : K :=
  let a := if Scalar.less v.y v.x then v.y else v.x
  if Scalar.less v.z a then v.z else a

/-- The axis with its sign. -/
def text (v : Vec3 K) : String :=
  (if Scalar.less (least v) 0 then "-" else "+") ++ letter v

end UpAxis

/-! ## Components as text -/

namespace Shown

/-- A number as shown. -/
def number (x : Float) : String :=
  let text := Number.briefText x
  match Number.ofText? text with
  | some y => if y.abs < 1e-9 then "0" else text
  | none => text

/-- Numbers between parentheses. -/
def row (items : List String) : String := "(" ++ ", ".intercalate items ++ ")"

/-- An angle as shown. -/
def angle (x : Float) : String :=
  let text := number x
  if text = "-180" then "180" else text

/-- The angle as it is shown is upright. -/
def isUpright (x : Float) : Bool :=
  match Number.ofText? (Number.briefText x) with
  | some y => 89.999 ≤ y.abs
  | none => false

/-- Roll, pitch and yaw as shown. -/
def angles (v : Vec3 Float) : List String :=
  if isUpright v.y then ["*", if v.y < 0.0 then "-90" else "90", "*"]
  else [angle v.x, angle v.y, angle v.z]

/-- A transform as shown. -/
def transform (m : Matrix4 Float) : Except DecompositionFault String :=
  (Decomposition.ofMatrix? m).map fun d =>
    "position=" ++ row (d.offset.toList.map number) ++
      " rotation=" ++ row (angles d.euler) ++
      " scale=" ++ row (d.scale.toList.map number)

/-- A render setting as shown. -/
def setting (s : RenderSetting) : String :=
  "\"" ++ s.type ++ "\" (" ++ toString s.params.size ++ " params)"

/-- The first text that is not empty. -/
def firstOf : List String → String → String
  | [], fallback => fallback
  | s :: ss, fallback => if s.isEmpty then firstOf ss fallback else s

/-- A component as shown. -/
def component : Component Float → Except DecompositionFault String
  | .transform m => transform m
  | .shape id reversed _ _ =>
      .ok ("shape=" ++ id.text ++ (if reversed then " reversed" else ""))
  | .material id => .ok ("material=" ++ (id.map ResourceId.text).getD "None")
  | .light id => .ok ("light=" ++ id.text)
  | .areaLight id => .ok ("area_light=" ++ id.text)
  | .camera s _ => .ok (setting s)
  | .setting _ s => .ok (setting s)
  | .animation _ a _ b => .ok ("t=" ++ Number.briefText a ++ ".." ++ Number.briefText b)
  | .placed object => .ok ("object \"" ++ object ++ "\"")
  | .coordinateSystem up => .ok ("up=" ++ UpAxis.text up)
  | .scene filename fullpath => .ok (firstOf [fullpath, filename] "<string>")

end Shown
end SceneReader
