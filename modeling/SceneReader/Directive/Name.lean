/-!
# Names of directives

The directives of the scene language, the words for them, and the shape of the
arguments that each of them takes.

**Results.**
* `ofText?_text`: every directive is found by its word.
-/

namespace SceneReader

/-- The directives. -/
inductive DirectiveName where
  | identity
  | translate
  | scale
  | rotate
  | lookAt
  | coordinateSystem
  | coordSysTransform
  | transform
  | concatTransform
  | transformTimes
  | activeTransform
  | camera
  | film
  | sampler
  | accelerator
  | integrator
  | pixelFilter
  | makeNamedMedium
  | mediumInterface
  | worldBegin
  | worldEnd
  | attributeBegin
  | attributeEnd
  | transformBegin
  | transformEnd
  | texture
  | material
  | makeNamedMaterial
  | namedMaterial
  | lightSource
  | areaLightSource
  | shape
  | reverseOrientation
  | objectBegin
  | objectEnd
  | objectInstance
  | includeFile
  | workDirBegin
  | workDirEnd
deriving DecidableEq

namespace DirectiveName

/-- All directives, in the order in which the format lists them. -/
def all : List DirectiveName :=
  [.identity, .translate, .scale, .rotate, .lookAt, .coordinateSystem, .coordSysTransform,
   .transform, .concatTransform, .transformTimes, .activeTransform, .camera, .film,
   .sampler, .accelerator, .integrator, .pixelFilter, .makeNamedMedium, .mediumInterface,
   .worldBegin, .worldEnd, .attributeBegin, .attributeEnd, .transformBegin, .transformEnd,
   .texture, .material, .makeNamedMaterial, .namedMaterial, .lightSource, .areaLightSource,
   .shape, .reverseOrientation, .objectBegin, .objectEnd, .objectInstance, .includeFile,
   .workDirBegin, .workDirEnd]

/-- The word for a directive. -/
def text : DirectiveName → String
  | identity => "Identity"
  | translate => "Translate"
  | scale => "Scale"
  | rotate => "Rotate"
  | lookAt => "LookAt"
  | coordinateSystem => "CoordinateSystem"
  | coordSysTransform => "CoordSysTransform"
  | transform => "Transform"
  | concatTransform => "ConcatTransform"
  | transformTimes => "TransformTimes"
  | activeTransform => "ActiveTransform"
  | camera => "Camera"
  | film => "Film"
  | sampler => "Sampler"
  | accelerator => "Accelerator"
  | integrator => "Integrator"
  | pixelFilter => "PixelFilter"
  | makeNamedMedium => "MakeNamedMedium"
  | mediumInterface => "MediumInterface"
  | worldBegin => "WorldBegin"
  | worldEnd => "WorldEnd"
  | attributeBegin => "AttributeBegin"
  | attributeEnd => "AttributeEnd"
  | transformBegin => "TransformBegin"
  | transformEnd => "TransformEnd"
  | texture => "Texture"
  | material => "Material"
  | makeNamedMaterial => "MakeNamedMaterial"
  | namedMaterial => "NamedMaterial"
  | lightSource => "LightSource"
  | areaLightSource => "AreaLightSource"
  | shape => "Shape"
  | reverseOrientation => "ReverseOrientation"
  | objectBegin => "ObjectBegin"
  | objectEnd => "ObjectEnd"
  | objectInstance => "ObjectInstance"
  | includeFile => "Include"
  | workDirBegin => "WorkDirBegin"
  | workDirEnd => "WorkDirEnd"

/-- The directive of a word. -/
def ofText? (s : String) : Option DirectiveName :=
  all.find? (fun d => d.text == s)

theorem ofText?_text (d : DirectiveName) : ofText? d.text = some d := by
  cases d <;> decide

end DirectiveName

/-- The positional arguments of a directive. -/
inductive ArgShape where
  | nothing
  | numbers (count : Nat)
  | matrix
  | keyword
  | name
  | oneOrTwoNames
  /-- One name and a parameter list. -/
  | named
  /-- Name, value type and class, and a parameter list. -/
  | texture
deriving DecidableEq

namespace DirectiveName

/-- The arguments that a directive takes. -/
def signature : DirectiveName → ArgShape
  | identity => .nothing
  | translate => .numbers 3
  | scale => .numbers 3
  | rotate => .numbers 4
  | lookAt => .numbers 9
  | coordinateSystem => .name
  | coordSysTransform => .name
  | transform => .matrix
  | concatTransform => .matrix
  | transformTimes => .numbers 2
  | activeTransform => .keyword
  | camera => .named
  | film => .named
  | sampler => .named
  | accelerator => .named
  | integrator => .named
  | pixelFilter => .named
  | makeNamedMedium => .named
  | mediumInterface => .oneOrTwoNames
  | worldBegin => .nothing
  | worldEnd => .nothing
  | attributeBegin => .nothing
  | attributeEnd => .nothing
  | transformBegin => .nothing
  | transformEnd => .nothing
  | texture => .texture
  | material => .named
  | makeNamedMaterial => .named
  | namedMaterial => .name
  | lightSource => .named
  | areaLightSource => .named
  | shape => .named
  | reverseOrientation => .nothing
  | objectBegin => .name
  | objectEnd => .nothing
  | objectInstance => .name
  | includeFile => .named
  | workDirBegin => .name
  | workDirEnd => .nothing

end DirectiveName

/-- The halves of the transform that directives may act on, as the format spells them. -/
def activeKeywords : List String := ["All", "StartTime", "EndTime"]

end SceneReader
