import SceneReader.Proofs.Engine.Objects
import SceneReader.Proofs.Scene.Completion

/-!
# What scenes contain

The nodes of a scene come in the order of the events that add them, and what a node refers to
is fixed by its event: shapes with their materials and area lights, lights, placed objects.
The root gets render settings only.  Resources come in the order of their declaration, of
which only the parameters of lights change later; and objects are those that have ended.

**Results.**
* `contentOf_of_mem`: where what they refer to comes from.
* `contents_step`, `contents_foldlM`: what the nodes refer to.
* `tables_step`, `tables_foldlM`: the declared resources, up to parameters, and the objects.
* `contents_ofEvents`: what a whole scene consists of.
-/

namespace SceneReader

variable {K : Type}

/-! ## What nodes refer to -/

namespace ComponentKind

/-- A component of the kind refers to a resource or to an object. -/
def refers : ComponentKind → Bool
  | shape => true
  | material => true
  | light => true
  | areaLight => true
  | placed => true
  | _ => false

end ComponentKind

/-- The components that refer to a resource or to an object. -/
def Node.contents (n : Node K) : List (Component K) := n.components.filter (·.kind.refers)

/-- The components of a shape that refer to resources. -/
def ShapeStatement.contents (st : ShapeStatement K) : List (Component K) :=
  [.shape st.shape.id st.reversed st.inside st.outside, .material st.material] ++
    st.areaLight.toList.map fun light => .areaLight light.id

/-- A resource without its parameters. -/
def Resource.bare (r : Resource K) : Resource K := { r with params := .empty }

/-- What the nodes that an event adds refer to, node by node. -/
def Event.contents : Event K → List (List (Component K))
  | begin _ => [[]]
  | beginScope _ _ => [[]]
  | shape st => [st.contents]
  | light r _ => [[.light r.id]]
  | placed o _ => [.placed o.name] :: o.shapes.map ShapeStatement.contents
  | _ => []

/-- What nodes refer to, node by node. -/
def SceneGraph.contents (g : SceneGraph K) : List (List (Component K)) :=
  g.nodes.map Node.contents

/-- Where a component comes from to which the nodes of an event refer. -/
inductive ContentOf (comp : Component K) : Event K → Nat → Prop
  | shape (st : ShapeStatement K) (h : comp ∈ st.contents) : ContentOf comp (.shape st) 0
  | light (r : Resource K) (ctm : TransformSet K) (h : comp = .light r.id) :
      ContentOf comp (.light r ctm) 0
  | placed (o : ObjectDefinition K) (ctm : TransformSet K) (h : comp = .placed o.name) :
      ContentOf comp (.placed o ctm) 0
  /-- It belongs to a shape of the placed object. -/
  | below (o : ObjectDefinition K) (ctm : TransformSet K) (j : Nat) (st : ShapeStatement K)
      (hst : o.shapes[j]? = some st) (h : comp ∈ st.contents) :
      ContentOf comp (.placed o ctm) (j + 1)

theorem contentOf_of_mem {e : Event K} {k : Nat} {comps : List (Component K)}
    {comp : Component K} (hk : e.contents[k]? = some comps) (hcomp : comp ∈ comps) :
    ContentOf comp e k := by
  have single {x : List (Component K)} (hx : [x][k]? = some comps) : k = 0 ∧ comps = x := by
    cases k with
    | zero => exact ⟨rfl, (Option.some.inj hx).symm⟩
    | succ k => cases hx
  cases e with
  | shape st =>
      obtain ⟨rfl, rfl⟩ := single hk
      exact .shape st hcomp
  | light r ctm =>
      obtain ⟨rfl, rfl⟩ := single hk
      exact .light r ctm (List.mem_singleton.mp hcomp)
  | placed o ctm =>
      cases k with
      | zero =>
          cases hk
          exact .placed o ctm (List.mem_singleton.mp hcomp)
      | succ j =>
          have hj : (o.shapes.map ShapeStatement.contents)[j]? = some comps := hk
          rw [List.getElem?_map] at hj
          obtain ⟨st, hst, rfl⟩ := Option.map_eq_some_iff.mp hj
          exact .below o ctm j st hst hcomp
  | begin source =>
      obtain ⟨rfl, rfl⟩ := single hk
      cases hcomp
  | beginScope kind ctm =>
      obtain ⟨rfl, rfl⟩ := single hk
      cases hcomp
  | _ => cases hk

/-- A shape refers to no object. -/
theorem ShapeStatement.kind_ne_placed {st : ShapeStatement K} {comp : Component K}
    (h : comp ∈ st.contents) : comp.kind ≠ .placed := by
  unfold contents at h
  simp only [List.mem_append, List.mem_cons, List.mem_map, List.not_mem_nil, or_false] at h
  rcases h with (rfl | rfl) | ⟨light, -, rfl⟩ <;> exact nofun

namespace SceneGraph

@[simp] theorem contents_extend (g : SceneGraph K) (ns : List (Node K)) :
    (g.extend ns).contents = g.contents ++ ns.map Node.contents := List.map_append

/-- A change of nodes that keeps what they refer to. -/
theorem contents_modify (g : SceneGraph K) (id : NodeId) {f : Node K → Node K}
    (h : ∀ n, (f n).contents = n.contents) : (g.modify id f).contents = g.contents := by
  refine List.ext_getElem? fun i => ?_
  unfold contents modify
  dsimp only
  rw [List.getElem?_map, List.getElem?_map, List.getElem?_modify]
  cases g.nodes[i]? with
  | none => rfl
  | some n =>
      change some (Node.contents (if id = i then f n else n)) = _
      split
      · exact congrArg some (h n)
      · rfl

@[simp] theorem contents_adopt (g : SceneGraph K) (p : NodeId) (ids : List NodeId) :
    (g.adopt p ids).contents = g.contents := contents_modify g p fun _ => rfl

/-- A component that refers to nothing and takes the place of none that does. -/
theorem contents_attach (n : Node K) {c : Component K} (hc : c.kind.refers = false) :
    (n.attach c).contents = n.contents := by
  unfold Node.contents Node.attach
  dsimp only
  induction n.components with
  | nil => simp [Node.attachTo, hc]
  | cons d ds ih =>
      unfold Node.attachTo
      split
      · rename_i hd
        simp [hd, hc]
      · rw [List.filter_cons, List.filter_cons, ih]

end SceneGraph

namespace SceneBuilder

variable [Scalar K] {here : Location} {b b' : SceneBuilder K} {e : Event K} {es : List (Event K)}

theorem contents_shapeNode (parent : NodeId × Transform K) (st : ShapeStatement K) :
    (shapeNode parent st).contents = st.contents := by
  unfold shapeNode Node.contents ShapeStatement.contents shapeComponents
  cases st.areaLight <;> cases st.transform.isAnimated <;> rfl

theorem refers_rootComponents (here : Location) (b : SceneBuilder K) :
    ∀ c ∈ b.rootComponents here, c.kind.refers = false := by
  intro c hc
  unfold rootComponents at hc
  simp only [List.mem_append, List.mem_cons, List.mem_map, List.not_mem_nil, or_false] at hc
  rcases hc with (rfl | rfl | ⟨k, -, rfl⟩) | rfl
  · split <;> rfl
  · rfl
  · rfl
  · rfl

omit [Scalar K] in
theorem contents_attachAll (b : SceneBuilder K) (id : NodeId) {cs : List (Component K)}
    (h : ∀ c ∈ cs, c.kind.refers = false) :
    (b.attachAll id cs).graph.contents = b.graph.contents := by
  unfold attachAll
  dsimp only
  induction cs generalizing b with
  | nil => rfl
  | cons c cs ih =>
      obtain ⟨hc, hcs⟩ := List.forall_mem_cons.mp h
      rw [List.foldl_cons]
      exact (ih { b with graph := b.graph.attach id c } hcs).trans
        (SceneGraph.contents_modify _ _ fun n => SceneGraph.contents_attach n hc)

/-! ## Rows of nodes -/

/-- The row of nodes that an event adds below a parent, if there are `size` nodes before. -/
inductive IsRow (parent : NodeId × Transform K) (size : Nat) : Event K → List (Node K) → Prop
  | block (kind : ScopeKind) (ctm : TransformSet K) :
      IsRow parent size (.beginScope kind ctm)
        [⟨kind.text, some parent.1, [], [.transform (parent.2.inverse.mul ctm.start.matrix)]⟩]
  | shape (st : ShapeStatement K) : IsRow parent size (.shape st) [shapeNode parent st]
  | light (r : Resource K) (ctm : TransformSet K) (m : Matrix4 K) :
      IsRow parent size (.light r ctm) [lightNode parent r m]
  | placed (o : ObjectDefinition K) (ctm : TransformSet K) :
      IsRow parent size (.placed o ctm)
        (instanceNode parent o ctm size :: o.shapes.map (shapeNode (size, .identity)))

/-- The node that an event opens, if there are `size` nodes before. -/
def opens (size : Nat) : Event K → List (NodeId × Transform K)
  | .beginScope _ ctm => [(size, ctm.start)]
  | _ => []

/-- What an event does to the graph and to the open nodes. -/
inductive GraphStep (here : Location) (b b' : SceneBuilder K) : Event K → Prop
  | root (source : Option String) (hg : b'.graph = b.graph.extend [⟨"Scene", none, [], []⟩]) :
      GraphStep here b b' (.begin source)
  | row (e : Event K) (parent : NodeId × Transform K) (ns : List (Node K))
      (hparent : b.parent? = .ok parent) (hrow : IsRow parent b.graph.size e ns)
      (hg : b'.graph = (b.graph.adopt parent.1 [b.graph.size]).extend ns)
      (ho : b'.open? = opens b.graph.size e ++ b.open?) : GraphStep here b b' e
  | same (e : Event K) (he : e.contents = []) (hg : b'.graph = b.graph)
      (ho : b'.open? <:+ b.open?) : GraphStep here b b' e
  | finished (hg : b'.graph = (b.attachAll 0 (b.rootComponents here)).graph)
      (ho : b'.open? = b.open?) : GraphStep here b b' .finish

theorem graphStep_of_step (hb : InRange b) (h : b.step here e = .ok b') :
    GraphStep here b b' e := by
  have range {parent : NodeId × Transform K} (hparent : b.parent? = .ok parent) :
      parent.1 < b.graph.size := hb parent (mem_of_parent? hparent)
  cases e with
  | begin source =>
      cases h
      exact .root source rfl
  | beginScope kind ctm =>
      obtain ⟨parent, hparent, h⟩ := Success.of_bind h
      rw [addChild_eq (range hparent)] at h
      cases h
      exact .row _ parent _ hparent (.block kind ctm) rfl rfl
  | endScope kind =>
      cases h
      exact .same _ rfl rfl (List.tail_suffix _)
  | shape st =>
      obtain ⟨parent, hparent, h⟩ := Success.of_bind h
      rw [placeShape_eq (range hparent)] at h
      cases h
      exact .row _ parent _ hparent (.shape st) rfl rfl
  | light r ctm =>
      obtain ⟨parent, hparent, -⟩ := Success.of_bind h
      obtain ⟨m, f, hplace⟩ := placeLight_eq hparent (range hparent) r ctm
      cases hplace.symm.trans h
      exact .row _ parent _ hparent (.light r ctm m) rfl rfl
  | placed o ctm =>
      obtain ⟨parent, hparent, -⟩ := Success.of_bind h
      cases (placeObject_eq hparent (range hparent) o ctm).symm.trans h
      exact .row _ parent _ hparent (.placed o ctm) rfl rfl
  | declare r =>
      obtain ⟨resources, -, h⟩ := Success.of_bind h
      cases h
      exact .same _ rfl rfl List.suffix_rfl
  | finish =>
      cases h
      exact .finished rfl rfl
  | _ =>
      cases h
      exact .same _ rfl rfl List.suffix_rfl

theorem IsRow.contents {parent : NodeId × Transform K} {size : Nat} {ns : List (Node K)}
    (h : IsRow parent size e ns) : ns.map Node.contents = e.contents := by
  cases h with
  | block kind ctm => rfl
  | shape st => exact congrArg ([·]) (contents_shapeNode parent st)
  | light r ctm m => rfl
  | placed o ctm =>
      have hshapes : (o.shapes.map (shapeNode (size, .identity))).map Node.contents =
          o.shapes.map ShapeStatement.contents := by
        rw [List.map_map]
        exact List.map_congr_left fun st _ => contents_shapeNode (size, .identity) st
      rw [List.map_cons, hshapes]
      rfl

/-- The nodes that an event adds refer to what the event says. -/
theorem contents_step (hb : InRange b) (h : b.step here e = .ok b') :
    b'.graph.contents = b.graph.contents ++ e.contents := by
  cases graphStep_of_step hb h with
  | root source hg => rw [hg, SceneGraph.contents_extend]; rfl
  | row e parent ns hparent hrow hg ho =>
      rw [hg, SceneGraph.contents_extend, SceneGraph.contents_adopt, hrow.contents]
  | same e he hg ho => rw [hg, he, List.append_nil]
  | finished hg ho =>
      rw [hg, contents_attachAll b 0 (refers_rootComponents here b)]
      exact (List.append_nil _).symm

theorem contents_foldlM (hb : InRange b) (h : es.foldlM (step here) b = .ok b') :
    b'.graph.contents = b.graph.contents ++ es.flatMap Event.contents := by
  induction es generalizing b with
  | nil =>
      cases h
      exact (List.append_nil _).symm
  | cons e es ih =>
      rw [List.foldlM_cons] at h
      obtain ⟨b₁, he, h⟩ := Success.of_bind h
      have hb₁ := ((addition_of_step hb he).grows hb).inRange hb
      rw [ih hb₁ h, contents_step hb he, List.append_assoc, List.flatMap_cons]

/-- There are as many nodes as events told of. -/
theorem size_of_foldlM (h : es.foldlM (step here) .initial = .ok b) :
    b.graph.size = (es.flatMap Event.contents).length := by
  have hlength := congrArg List.length (contents_foldlM inRange_initial h)
  unfold SceneGraph.contents at hlength
  rw [List.length_map, List.length_append] at hlength
  exact hlength.trans (Nat.zero_add _)

/-! ## Resources and objects -/

omit [Scalar K] in
theorem bare_add {t t' : ResourceTable K} {r : Resource K} (h : t.add r = .ok t') :
    t'.declared = t.declared ++ [r] := by
  unfold ResourceTable.add at h
  split at h
  · cases h
  · cases h
    rfl

/-- What an event does to the resources, up to parameters, and to the objects. -/
theorem tables_step (hb : InRange b) (h : b.step here e = .ok b') :
    b'.resources.declared.map Resource.bare =
        b.resources.declared.map Resource.bare ++ e.declared?.toList.map Resource.bare ∧
      b'.objects = e.objectsAfter b.objects := by
  have range {parent : NodeId × Transform K} (hparent : b.parent? = .ok parent) :
      parent.1 < b.graph.size := hb parent (mem_of_parent? hparent)
  have same : b.resources.declared.map Resource.bare =
      b.resources.declared.map Resource.bare ++ [] := (List.append_nil _).symm
  cases e with
  | beginScope kind ctm =>
      obtain ⟨parent, hparent, h⟩ := Success.of_bind h
      rw [addChild_eq (range hparent)] at h
      cases h
      exact ⟨same, rfl⟩
  | shape st =>
      obtain ⟨parent, hparent, h⟩ := Success.of_bind h
      rw [placeShape_eq (range hparent)] at h
      cases h
      exact ⟨same, rfl⟩
  | light r ctm =>
      obtain ⟨parent, hparent, -⟩ := Success.of_bind h
      obtain ⟨m, f, hplace⟩ := placeLight_eq hparent (range hparent) r ctm
      cases hplace.symm.trans h
      exact ⟨(declared_adjustLight _ _ f Resource.bare fun _ _ => rfl).trans same, rfl⟩
  | placed o ctm =>
      obtain ⟨parent, hparent, -⟩ := Success.of_bind h
      cases (placeObject_eq hparent (range hparent) o ctm).symm.trans h
      exact ⟨same, rfl⟩
  | declare r =>
      obtain ⟨resources, hadd, h⟩ := Success.of_bind h
      cases h
      refine ⟨?_, rfl⟩
      rw [bare_add (Success.of_mapError hadd), List.map_append]
      rfl
  | _ =>
      cases h
      exact ⟨same, rfl⟩

theorem tables_foldlM (hb : InRange b) (h : es.foldlM (step here) b = .ok b') :
    b'.resources.declared.map Resource.bare =
        b.resources.declared.map Resource.bare ++
          (es.filterMap Event.declared?).map Resource.bare ∧
      b'.objects = es.foldl (fun t e => e.objectsAfter t) b.objects := by
  induction es generalizing b with
  | nil =>
      cases h
      exact ⟨(List.append_nil _).symm, rfl⟩
  | cons e es ih =>
      rw [List.foldlM_cons] at h
      obtain ⟨b₁, he, h⟩ := Success.of_bind h
      have hb₁ := ((addition_of_step hb he).grows hb).inRange hb
      obtain ⟨hdeclared, hobjects⟩ := tables_step hb he
      obtain ⟨hdeclareds, hobjectss⟩ := ih hb₁ h
      refine ⟨?_, ?_⟩
      · rw [hdeclareds, hdeclared, List.append_assoc, ← List.map_append]
        congr 2
        cases hr : e.declared? <;> simp [hr]
      · rw [hobjectss, hobjects, List.foldl_cons]

end SceneBuilder

/-! ## Whole scenes -/

namespace Scene

variable [Scalar K] {here : Location} {es : List (Event K)} {scene : Scene K}

/-- What a scene consists of, told from its events. -/
theorem contents_ofEvents (h : Scene.ofEvents here es = .ok scene) :
    scene.graph.contents = es.flatMap Event.contents ∧
      scene.resources.declared.map Resource.bare =
        (es.filterMap Event.declared?).map Resource.bare ∧
      scene.objects = es.foldl (fun t e => e.objectsAfter t) .empty := by
  obtain ⟨b, hb, rfl⟩ := Success.of_map h
  exact ⟨SceneBuilder.contents_foldlM SceneBuilder.inRange_initial hb,
    SceneBuilder.tables_foldlM SceneBuilder.inRange_initial hb⟩

end Scene

end SceneReader
