import SceneReader.Proofs.Engine.Places
import SceneReader.Scene.Loading

/-!
# Scenes without places

The places of statements get into a scene with the definitions of its objects.  Its nodes and
resources have none, and neither do the counts of its events.

**Results.**
* `step_unplaced`: what an event adds to a scene.
* `ofEvents_unplaced`: events without places make the scene without places.
* `statistics_unplaced`: they are counted as before.
-/

namespace SceneReader

variable {K : Type}

/-- The scene without where the shapes of its objects were read. -/
def Scene.unplaced (s : Scene K) : Scene K :=
  { s with objects := s.objects.map ObjectDefinition.unplaced }

/-- The scene and its statistics without where shapes were read. -/
def LoadedScene.unplaced (s : LoadedScene K) : LoadedScene K := { s with scene := s.scene.unplaced }

/-! ## Adding to a scene -/

namespace SceneBuilder

/-- The scene that is being made without where shapes were read. -/
def unplaced (b : SceneBuilder K) : SceneBuilder K :=
  { b with objects := b.objects.map ObjectDefinition.unplaced }

variable [Scalar K] (b : SceneBuilder K)

theorem addChild_unplaced (name : String) (ctm : TransformSet K)
    (parent : NodeId × Transform K) :
    b.unplaced.addChild name ctm parent =
      (b.addChild name ctm parent).map fun r => (r.1, r.2.unplaced) := by
  have hgraph : b.unplaced.graph = b.graph := rfl
  unfold addChild
  rw [hgraph]
  cases b.graph.addNode name (some parent.1) <;> rfl

theorem placeShape_unplaced (parent : NodeId × Transform K) (st : ShapeStatement K) :
    placeShape parent b.unplaced st.unplaced = (placeShape parent b st).map unplaced := by
  have hname : (if st.unplaced.areaLight.isSome then "AreaLight" else st.unplaced.shape.name) =
      if st.areaLight.isSome then "AreaLight" else st.shape.name := rfl
  have htransform : st.unplaced.transform = st.transform := rfl
  unfold placeShape
  dsimp only
  rw [hname, htransform, addChild_unplaced]
  cases b.addChild _ st.transform parent <;> rfl

theorem placeLight_unplaced (light : Resource K) (ctm : TransformSet K) :
    b.unplaced.placeLight light ctm = (b.placeLight light ctm).map unplaced := by
  have hparent : b.unplaced.parent? = b.parent? := rfl
  unfold placeLight
  rw [hparent]
  cases b.parent? with
  | error f => rfl
  | ok parent =>
      change (b.unplaced.addChild _ _ _ >>= _) = Except.map _ (b.addChild _ _ _ >>= _)
      rw [addChild_unplaced]
      cases b.addChild light.name ctm parent with
      | error f => rfl
      | ok r => cases hplace : lightPlacement? light <;> rfl

theorem foldlM_placeShape_unplaced (parent : NodeId × Transform K)
    (sts : List (ShapeStatement K)) :
    (sts.map ShapeStatement.unplaced).foldlM (placeShape parent) b.unplaced =
      (sts.foldlM (placeShape parent) b).map unplaced := by
  induction sts generalizing b with
  | nil => rfl
  | cons st sts ih =>
      rw [List.map_cons, List.foldlM_cons, List.foldlM_cons, placeShape_unplaced]
      cases placeShape parent b st with
      | error f => rfl
      | ok b' => exact ih b'

theorem placeObject_unplaced (o : ObjectDefinition K) (ctm : TransformSet K) :
    b.unplaced.placeObject o.unplaced ctm = (b.placeObject o ctm).map unplaced := by
  have hparent : b.unplaced.parent? = b.parent? := rfl
  unfold placeObject
  rw [hparent]
  cases b.parent? with
  | error f => rfl
  | ok parent =>
      change (b.unplaced.addChild _ _ _ >>= _) = Except.map _ (b.addChild _ _ _ >>= _)
      rw [addChild_unplaced]
      cases b.addChild "Instance" ctm parent with
      | error f => rfl
      | ok r => exact foldlM_placeShape_unplaced (r.2.attachAll r.1 [.placed o.name]) _ o.shapes

/-- What an event adds to a scene. -/
theorem step_unplaced (here : Location) (e : Event K) :
    step here b.unplaced e.unplaced = (step here b e).map unplaced := by
  have hparent : b.unplaced.parent? = b.parent? := rfl
  cases e with
  | begin source =>
      have hgraph : b.unplaced.graph = b.graph := rfl
      dsimp only [Event.unplaced, step]
      rw [hgraph]
      cases b.graph.addNode "Scene" none <;> rfl
  | beginScope kind ctm =>
      dsimp only [Event.unplaced, step]
      rw [hparent]
      cases b.parent? with
      | error f => rfl
      | ok parent =>
          change (b.unplaced.addChild _ _ _ >>= _) = Except.map _ (b.addChild _ _ _ >>= _)
          rw [addChild_unplaced]
          cases b.addChild kind.text ctm parent <;> rfl
  | declare r =>
      have hresources : b.unplaced.resources = b.resources := rfl
      dsimp only [Event.unplaced, step]
      rw [hresources]
      cases b.resources.add r <;> rfl
  | shape st =>
      dsimp only [Event.unplaced, step]
      rw [hparent]
      cases b.parent? with
      | error f => rfl
      | ok parent => exact placeShape_unplaced b parent st
  | light r ctm => exact placeLight_unplaced b r ctm
  | placed o ctm => exact placeObject_unplaced b o ctm
  | objectEnd o =>
      exact congrArg (fun t => Except.ok { b with objects := t })
        (Table.put_map ObjectDefinition.unplaced b.objects o.name o)
  | setting kind s => rfl
  | camera s t => rfl
  | worldBegin o => rfl
  | endScope kind => rfl
  | objectBegin name => rfl
  | worldEnd => rfl
  | finish => rfl

theorem foldlM_step_unplaced (here : Location) (es : List (Event K)) :
    (es.map Event.unplaced).foldlM (step here) b.unplaced =
      (es.foldlM (step here) b).map unplaced := by
  induction es generalizing b with
  | nil => rfl
  | cons e es ih =>
      rw [List.map_cons, List.foldlM_cons, List.foldlM_cons, step_unplaced]
      cases step here b e with
      | error f => rfl
      | ok b' => exact ih b'

end SceneBuilder

/-- Events without places make the scene without places. -/
theorem Scene.ofEvents_unplaced [Scalar K] (here : Location) (es : List (Event K)) :
    Scene.ofEvents here (es.map Event.unplaced) = (Scene.ofEvents here es).map Scene.unplaced := by
  have hfold := SceneBuilder.foldlM_step_unplaced (K := K) .initial here es
  unfold Scene.ofEvents
  change ((es.map Event.unplaced).foldlM (SceneBuilder.step here)
    (SceneBuilder.unplaced .initial)).map _ = _
  rw [hfold]
  cases es.foldlM (SceneBuilder.step here) SceneBuilder.initial <;> rfl

/-! ## Counting -/

namespace Event

variable (e : Event K)

theorem shapeTypes_unplaced : e.unplaced.shapeTypes = e.shapeTypes := by
  cases e with
  | placed o ctm => simp [unplaced, shapeTypes, ObjectDefinition.unplaced, ShapeStatement.unplaced]
  | _ => rfl

theorem lightTypes_unplaced : e.unplaced.lightTypes = e.lightTypes := by
  cases e <;> rfl

theorem declaredKinds_unplaced : e.unplaced.declaredKinds = e.declaredKinds := by
  cases e <;> rfl

theorem endsObject_unplaced : e.unplaced.endsObject = e.endsObject := by
  cases e <;> rfl

theorem placesObject_unplaced : e.unplaced.placesObject = e.placesObject := by
  cases e <;> rfl

end Event

/-- Events are counted as before. -/
theorem statistics_unplaced (es : List (Event K)) :
    Statistics.ofEvents (es.map Event.unplaced) = Statistics.ofEvents es := by
  simp only [Statistics.ofEvents, List.flatMap_map, List.countP_map, Function.comp_def,
    Event.shapeTypes_unplaced, Event.lightTypes_unplaced, Event.declaredKinds_unplaced,
    Event.endsObject_unplaced, Event.placesObject_unplaced]

end SceneReader
