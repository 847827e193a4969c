import SceneReader.Engine.State

/-!
# Events

What a reader of scenes tells its targets.  Events hold resolved values only: transforms
are composed, names looked up and resources made.
-/

namespace SceneReader

/-- An effect of a directive that targets are told of. -/
inductive Event (K : Type) where
  /-- The start, with the name of the source. -/
  | begin (source : Option String)
  | setting (kind : SettingKind) (setting : RenderSetting)
  | camera (setting : RenderSetting) (cameraToWorld : TransformSet K)
  | worldBegin (options : RenderOptions K)
  | beginScope (kind : ScopeKind) (ctm : TransformSet K)
  | endScope (kind : ScopeKind)
  | declare (resource : Resource K)
  | shape (statement : ShapeStatement K)
  | light (light : Resource K) (ctm : TransformSet K)
  | objectBegin (name : String)
  | objectEnd (definition : ObjectDefinition K)
  | placed (definition : ObjectDefinition K) (ctm : TransformSet K)
  | worldEnd
  | finish

end SceneReader
