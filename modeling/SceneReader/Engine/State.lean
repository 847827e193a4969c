import SceneReader.Directive.Name
import SceneReader.Include.Directories
import SceneReader.Scene.Resource
import SceneReader.Table
import SceneReader.Transform.Basic

/-!
# The state of reading a scene

A scene is read in phases: first the options, then the world, then nothing more.  What
directives act on is the current transform with the scopes that saved it, the graphics
state with the attribute blocks that saved it, coordinate systems, render options,
objects, media and directories.
-/

namespace SceneReader

/-- The block of a scene that is being read. -/
inductive Phase where
  | options
  | world
  | ended
deriving DecidableEq

/-- The word for a phase. -/
def Phase.text : Phase → String
  | options => "options"
  | world => "world"
  | ended => "ended"

/-- Kinds of blocks that save the current transform. -/
inductive ScopeKind where
  | attributes
  | transform
  | object
deriving DecidableEq

namespace ScopeKind

/-- The word for a kind of block. -/
def text : ScopeKind → String
  | attributes => "Attribute"
  | transform => "Transform"
  | object => "Object"

/-- The directive that opens a block. -/
def opener (k : ScopeKind) : DirectiveName :=
  match k with
  | attributes => .attributeBegin
  | transform => .transformBegin
  | object => .objectBegin

/-- The directive that closes a block. -/
def closer (k : ScopeKind) : DirectiveName :=
  match k with
  | attributes => .attributeEnd
  | transform => .transformEnd
  | object => .objectEnd

end ScopeKind

/-- Render settings beside the camera, in the order of the format. -/
inductive SettingKind where
  | pixelFilter
  | film
  | sampler
  | accelerator
  | integrator
deriving DecidableEq

namespace SettingKind

/-- All kinds in order. -/
def all : List SettingKind := [.pixelFilter, .film, .sampler, .accelerator, .integrator]

/-- The name of a setting. -/
def text : SettingKind → String
  | pixelFilter => "pixel_filter"
  | film => "film"
  | sampler => "sampler"
  | accelerator => "accelerator"
  | integrator => "integrator"

end SettingKind

/-- The type and the parameters of a render setting. -/
structure RenderSetting where
  type : String
  params : ParamMap

/-- A setting without parameters. -/
def RenderSetting.plain (type : String) : RenderSetting := ⟨type, .empty⟩

/-- The settings of the options block. -/
structure RenderOptions (K : Type) where
  startTime : Float
  stopTime : Float
  pixelFilter : RenderSetting
  film : RenderSetting
  sampler : RenderSetting
  accelerator : RenderSetting
  integrator : RenderSetting
  camera : RenderSetting
  cameraToWorld : Option (TransformSet K)

namespace RenderOptions

variable {K : Type}

/-- The settings of a scene that makes none. -/
def standard : RenderOptions K :=
  ⟨0.0, 1.0, .plain "box", .plain "image", .plain "halton", .plain "bvh", .plain "path",
   .plain "perspective", none⟩

/-- The setting of a kind. -/
def get (o : RenderOptions K) : SettingKind → RenderSetting
  | .pixelFilter => o.pixelFilter
  | .film => o.film
  | .sampler => o.sampler
  | .accelerator => o.accelerator
  | .integrator => o.integrator

/-- The options with the setting of a kind changed. -/
def set (o : RenderOptions K) (k : SettingKind) (s : RenderSetting) : RenderOptions K :=
  match k with
  | .pixelFilter => { o with pixelFilter := s }
  | .film => { o with film := s }
  | .sampler => { o with sampler := s }
  | .accelerator => { o with accelerator := s }
  | .integrator => { o with integrator := s }

/-- The options with the camera changed. -/
def setCamera (o : RenderOptions K) (s : RenderSetting) (t : TransformSet K) :
    RenderOptions K :=
  { o with camera := s, cameraToWorld := some t }

end RenderOptions

/-- What attribute blocks save and restore beside the transform. -/
structure GraphicsState (K : Type) where
  material : Option ResourceId
  namedMaterials : Table ResourceId
  textures : Table ResourceId
  /-- The area light that the next shape takes. -/
  areaLight : Option (Resource K)
  reversed : Bool
  inside : String
  outside : String

/-- The graphics state at the start. -/
def GraphicsState.initial {K : Type} : GraphicsState K :=
  ⟨none, .empty, .empty, none, false, "", ""⟩

/-- A shape together with the state in which it was read. -/
structure ShapeStatement (K : Type) where
  shape : Resource K
  transform : TransformSet K
  material : Option ResourceId
  areaLight : Option (Resource K)
  reversed : Bool
  startTime : Float
  stopTime : Float
  inside : String
  outside : String
  span : Option Span

/-- The shapes between the begin and the end of an object. -/
structure ObjectDefinition (K : Type) where
  name : String
  shapes : List (ShapeStatement K)

/-- An open block: the transform that it restores, and whether targets know of it. -/
structure Scope (K : Type) where
  kind : ScopeKind
  ctm : TransformSet K
  reported : Bool

/-- The state between two directives. -/
structure EngineState (K : Type) where
  /-- The start was reported. -/
  begun : Bool
  phase : Phase
  /-- The current transform. -/
  ctm : TransformSet K
  /-- Open blocks, the innermost first. -/
  scopes : List (Scope K)
  graphics : GraphicsState K
  /-- Saved graphics states, those of the innermost block first. -/
  savedGraphics : List (GraphicsState K)
  coordinateSystems : Table (TransformSet K)
  options : RenderOptions K
  objects : Table (ObjectDefinition K)
  /-- The object that is being defined. -/
  openObject : Option (ObjectDefinition K)
  media : Table ResourceId
  dirs : DirectoryStack
  /-- Shapes read from files, by file. -/
  meshes : Table (Resource K)
  /-- The files that were declared. -/
  declaredFiles : List String
  /-- How many resources were made. -/
  made : Nat

/-- The state before the first directive. -/
def EngineState.initial {K : Type} [Scalar K] (dirs : DirectoryStack) : EngineState K :=
  ⟨false, .options, .identity, [], .initial, [], .empty, .standard, .empty, none, .empty,
   dirs, .empty, [], 0⟩

end SceneReader
