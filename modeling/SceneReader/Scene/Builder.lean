import SceneReader.Document
import SceneReader.Engine.Event
import SceneReader.Scene.Graph

/-!
# Scenes from events

A scene is a graph with one node for each block, shape, light and placed object, and the
declared resources.  A node holds its transform relative to its parent, which is computed
from the inverse of the transform at which the parent was opened.  Render settings are
components of the root.
-/

namespace SceneReader

/-- A scene as it was read. -/
structure Scene (K : Type) where
  graph : SceneGraph K
  resources : ResourceTable K
  objects : Table (ObjectDefinition K)
  source : Option String

/-- Why events make no scene. -/
inductive BuildFault where
  | declaredTwice (e : DeclaredTwice)
  | missingNode (e : MissingNode)
  /-- Something is placed before the start or after the last block was closed. -/
  | noParent

/-- A scene that is being made. -/
structure SceneBuilder (K : Type) where
  graph : SceneGraph K
  resources : ResourceTable K
  objects : Table (ObjectDefinition K)
  options : RenderOptions K
  source : Option String
  /-- Open nodes with their transforms to the world, the innermost first. -/
  open? : List (NodeId × Transform K)

namespace SceneBuilder

variable {K : Type} [Scalar K]

/-- Nothing yet. -/
def initial {K : Type} : SceneBuilder K := ⟨.empty, .empty, .empty, .standard, none, []⟩

/-- The innermost open node. -/
def parent? {K : Type} (b : SceneBuilder K) : Except BuildFault (NodeId × Transform K) :=
  match b.open? with
  | [] => .error .noParent
  | top :: _ => .ok top

/-- Adds a node with a transform below another node. -/
def addChild (b : SceneBuilder K) (name : String) (ctm : TransformSet K)
    (parent : NodeId × Transform K) : Except BuildFault (NodeId × SceneBuilder K) := do
  let (id, graph) ← (b.graph.addNode name (some parent.1)).mapError .missingNode
  let relative := parent.2.inverse.mul ctm.start.matrix
  return (id, { b with graph := graph.attach id (.transform relative) })

/-- Attaches components to a node. -/
def attachAll {K : Type} (b : SceneBuilder K) (id : NodeId) (cs : List (Component K)) :
    SceneBuilder K :=
  { b with graph := cs.foldl (fun g c => g.attach id c) b.graph }

/-- The components of a shape beside its transform. -/
def shapeComponents (st : ShapeStatement K) (parent : Transform K) : List (Component K) :=
  [.shape st.shape.id st.reversed st.inside st.outside, .material st.material] ++
    (match st.areaLight with
      | some light => [.areaLight light.id]
      | none => []) ++
    (if st.transform.isAnimated then
      [.animation (parent.inverse.mul st.transform.start.matrix) st.startTime
        (parent.inverse.mul st.transform.stop.matrix) st.stopTime]
    else [])

/-- Adds the node of a shape. -/
def placeShape (parent : NodeId × Transform K) (b : SceneBuilder K) (st : ShapeStatement K) :
    Except BuildFault (SceneBuilder K) := do
  let name := if st.areaLight.isSome then "AreaLight" else st.shape.name
  let (id, b) ← b.addChild name st.transform parent
  return b.attachAll id (shapeComponents st parent.2)

/-- A point among the parameters, or another one if it is not given with three numbers. -/
def pointOr (params : ParamMap) (name : String) (fallback : Vec3 K) : Vec3 K :=
  match (params.floats name).map Scalar.ofFloat with
  | [x, y, z] => ⟨x, y, z⟩
  | _ => fallback

/-- Where the parameters of a light put it: the transform inside its node, and the
parameters that this takes up. -/
def lightPlacement? (light : Resource K) : Option (Matrix4 K × List String) :=
  let origin := pointOr light.params "from" .zero
  if light.type = "point" then some (Frame.shift origin, ["from"])
  else if light.type = "spot" ∨ light.type = "distant" then
    match Frame.ofDirection? ((pointOr light.params "to" ⟨0, 0, 1⟩).sub origin) with
    | .ok frame => some ((Frame.shift origin).mul frame, ["from", "to"])
    | .error _ => none
  else none

/-- Parameters without some of them. -/
def withoutParams (m : ParamMap) (names : List String) : ParamMap :=
  names.foldl (fun m n => (m.remove n).2) m

/-- Adds the node of a light. -/
def placeLight (b : SceneBuilder K) (light : Resource K) (ctm : TransformSet K) :
    Except BuildFault (SceneBuilder K) := do
  let parent ← b.parent?
  let (id, b) ← b.addChild light.name ctm parent
  let b := match lightPlacement? light with
    | none => b
    | some (m, taken) =>
        { b with
          graph := b.graph.attach id (.transform ((b.graph.localMatrix id).mul m))
          resources := b.resources.adjustLight light.id (withoutParams · taken) }
  return b.attachAll id [.light light.id]

/-- Adds the node of a placed object with its shapes below. -/
def placeObject (b : SceneBuilder K) (o : ObjectDefinition K) (ctm : TransformSet K) :
    Except BuildFault (SceneBuilder K) := do
  let parent ← b.parent?
  let (id, b) ← b.addChild "Instance" ctm parent
  o.shapes.foldlM (placeShape (id, .identity)) (b.attachAll id [.placed o.name])

/-- The components of the root.  `here` is the directory from which the name of the
source is seen. -/
def rootComponents (here : Location) (b : SceneBuilder K) : List (Component K) :=
  let camera := match b.options.cameraToWorld with
    | some t => t.start.matrix
    | none => .identity
  let name := b.source.getD ""
  let path := Path.ofText name
  let origin : Component K :=
    if name.isEmpty then .scene "" "" else .scene path.name (Location.text (path.resolve here))
  origin :: .camera b.options.camera camera ::
    SettingKind.all.map (fun k => .setting k (b.options.get k)) ++
    [.coordinateSystem (UpAxis.ofCamera camera)]

/-- What an event adds to a scene. -/
def step (here : Location) (b : SceneBuilder K) : Event K → Except BuildFault (SceneBuilder K)
  | .begin source => do
      let (id, graph) ← (b.graph.addNode "Scene" none).mapError .missingNode
      return { b with source := source, graph := graph, open? := [(id, .identity)] }
  | .setting kind s => .ok { b with options := b.options.set kind s }
  | .camera s t => .ok { b with options := b.options.setCamera s t }
  | .worldBegin o => .ok { b with options := o }
  | .beginScope kind ctm => do
      let parent ← b.parent?
      let (id, b) ← b.addChild kind.text ctm parent
      return { b with open? := (id, ctm.start) :: b.open? }
  | .endScope _ => .ok { b with open? := b.open?.tail }
  | .declare r => do
      let resources ← (b.resources.add r).mapError .declaredTwice
      return { b with resources := resources }
  | .shape st => do
      let parent ← b.parent?
      b.placeShape parent st
  | .light r ctm => b.placeLight r ctm
  | .objectBegin _ => .ok b
  | .objectEnd o => .ok { b with objects := b.objects.put o.name o }
  | .placed o ctm => b.placeObject o ctm
  | .worldEnd => .ok b
  | .finish => .ok (b.attachAll 0 (b.rootComponents here))

end SceneBuilder

namespace Scene

variable {K : Type}

/-- The scene that events make. -/
def ofEvents [Scalar K] (here : Location) (es : List (Event K)) : Except BuildFault (Scene K) :=
  (es.foldlM (SceneBuilder.step here) .initial).map fun b =>
    ⟨b.graph, b.resources, b.objects, b.source⟩

/-- The counts of a scene for other programs. -/
def summary (s : Scene K) (warnings : Nat) : Document :=
  .object [("source", .optional s.source), ("nodes", .nat s.graph.size),
    ("shape_nodes", .nat (s.graph.find .shape).length),
    ("light_nodes", .nat (s.graph.find .light).length),
    ("instances", .nat (s.graph.find .placed).length),
    ("objects", .nat s.objects.size),
    ("resources", .object (s.resources.counts.map fun e => (e.1, .nat e.2))),
    ("warnings", .nat warnings)]

end Scene
end SceneReader
