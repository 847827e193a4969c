import SceneReader.Proofs.Scene.WorldMatrix
import SceneReader.Proofs.Success
import SceneReader.Scene.Builder

/-!
# What is added to a graph

A node that is added goes behind all others, and its parent takes it up as its last child;
nothing else of the graph changes.  So what an event adds is one graph operation: a parent
takes up children, and a row of nodes goes behind the others.  The node of a shape and the
node of a placed object are given here as a whole.

**Results.**
* `adopt_extend`, `attach_extend`: changes of nodes of a graph that has grown.
* `addChild_eq`, `placeShape_eq`, `placeShapes_eq`, `placeObject_eq`, `placeLight_eq`: what
  is added, if the parent is there.
-/

namespace SceneReader

variable {K : Type}

/-! ## Graphs -/

namespace SceneGraph

/-- The children of a node. -/
def childrenOf (g : SceneGraph K) (id : NodeId) : List NodeId :=
  ((g.node? id).map (·.children)).getD []

/-- The graph with more children of a node. -/
def adopt (g : SceneGraph K) (p : NodeId) (ids : List NodeId) : SceneGraph K :=
  g.modify p (fun n => { n with children := n.children ++ ids })

/-- The graph with more nodes behind the others. -/
def extend (g : SceneGraph K) (ns : List (Node K)) : SceneGraph K := ⟨g.nodes ++ ns⟩

@[simp] theorem size_modify (g : SceneGraph K) (id : NodeId) (f : Node K → Node K) :
    (g.modify id f).size = g.size := by
  simp [modify, size]

@[simp] theorem size_adopt (g : SceneGraph K) (p : NodeId) (ids : List NodeId) :
    (g.adopt p ids).size = g.size := size_modify g p _

@[simp] theorem size_extend (g : SceneGraph K) (ns : List (Node K)) :
    (g.extend ns).size = g.size + ns.length := by
  simp [extend, size]

theorem extend_nil (g : SceneGraph K) : g.extend [] = g := by
  simp [extend]

theorem extend_extend (g : SceneGraph K) (ns ms : List (Node K)) :
    (g.extend ns).extend ms = g.extend (ns ++ ms) := by
  simp [extend]

theorem adopt_nil (g : SceneGraph K) (p : NodeId) : g.adopt p [] = g := by
  have hid : (fun n : Node K => { n with children := n.children ++ [] }) = id := by
    funext n
    simp
  unfold adopt modify
  rw [hid, List.modify_id]

theorem adopt_adopt (g : SceneGraph K) (p : NodeId) (ids more : List NodeId) :
    (g.adopt p ids).adopt p more = g.adopt p (ids ++ more) := by
  unfold adopt modify
  rw [List.modify_modify_eq]
  simp [Function.comp_def]

/-- A node that was there before more nodes came. -/
theorem modify_extend {g : SceneGraph K} {id : NodeId} (hid : id < g.size) (ns : List (Node K))
    (f : Node K → Node K) : (g.extend ns).modify id f = (g.modify id f).extend ns := by
  have hn : g.nodes[id]? = some g.nodes[id] := List.getElem?_eq_getElem hid
  unfold extend modify
  dsimp only
  rw [List.modify_eq_set_getElem?, List.getElem?_append_left hid, hn,
    List.modify_eq_set_getElem?, hn]
  exact congrArg SceneGraph.mk (List.set_append_left _ _ hid)

theorem adopt_extend {g : SceneGraph K} {p : NodeId} (hp : p < g.size) (ns : List (Node K))
    (ids : List NodeId) : (g.extend ns).adopt p ids = (g.adopt p ids).extend ns :=
  modify_extend hp ns _

/-- The last node of a graph. -/
theorem modify_last (g : SceneGraph K) (n : Node K) (f : Node K → Node K) :
    (g.extend [n]).modify g.size f = g.extend [f n] := by
  exact congrArg mk (List.modifyTailIdx_add (List.modifyHead f) 0 g.nodes [n])

theorem adopt_last (g : SceneGraph K) (n : Node K) (ids : List NodeId) :
    (g.extend [n]).adopt g.size ids = g.extend [{ n with children := n.children ++ ids }] :=
  modify_last g n _

theorem node?_extend_left {g : SceneGraph K} {id : NodeId} (hid : id < g.size)
    (ns : List (Node K)) : (g.extend ns).node? id = g.node? id :=
  List.getElem?_append_left hid

theorem node?_extend_right (g : SceneGraph K) (ns : List (Node K)) (i : Nat) :
    (g.extend ns).node? (g.size + i) = ns[i]? := by
  unfold extend node? size
  rw [List.getElem?_append_right (Nat.le_add_right _ _)]
  simp

theorem node?_adopt_of_ne (g : SceneGraph K) {p id : NodeId} (h : p ≠ id) (ids : List NodeId) :
    (g.adopt p ids).node? id = g.node? id := by
  unfold adopt
  rw [node?_modify, if_neg h]

theorem childrenOf_adopt {g : SceneGraph K} {p : NodeId} (hp : p < g.size) (ids : List NodeId) :
    (g.adopt p ids).childrenOf p = g.childrenOf p ++ ids := by
  unfold childrenOf adopt
  rw [node?_modify, if_pos rfl]
  have hn : g.node? p = some g.nodes[p] := List.getElem?_eq_getElem hp
  rw [hn]
  rfl

/-- Adding a node below another one. -/
theorem addNode_eq {g : SceneGraph K} {p : NodeId} (hp : p < g.size) (name : String) :
    g.addNode name (some p) =
      .ok (g.size, (g.adopt p [g.size]).extend [⟨name, some p, [], []⟩]) := by
  have hrange : (0 : Int) ≤ p ∧ (p : Int) < g.size :=
    ⟨Int.natCast_nonneg p, Int.ofNat_lt.mpr hp⟩
  unfold addNode
  dsimp only
  rw [if_pos hrange]
  rfl

end SceneGraph

/-! ## Nodes -/

namespace Node

theorem attachTo_of_kind {c : Component K} {cs : List (Component K)}
    (h : ∀ d ∈ cs, d.kind ≠ c.kind) : attachTo c cs = cs ++ [c] := by
  induction cs with
  | nil => rfl
  | cons d ds ih =>
      obtain ⟨hd, hds⟩ := List.forall_mem_cons.mp h
      rw [attachTo, if_neg hd, ih hds]
      rfl

/-- Components of kinds that a node does not have come behind those that it has. -/
theorem foldl_attach (n : Node K) {cs : List (Component K)}
    (h : ((n.components ++ cs).map Component.kind).Nodup) :
    cs.foldl Node.attach n = { n with components := n.components ++ cs } := by
  induction cs generalizing n with
  | nil => simp
  | cons c cs ih =>
      have hc : ∀ d ∈ n.components, d.kind ≠ c.kind := by
        intro d hd
        rw [List.map_append, List.map_cons] at h
        exact (List.nodup_append.mp h).2.2 _ (List.mem_map_of_mem hd) _ List.mem_cons_self
      have hattach : n.attach c = { n with components := n.components ++ [c] } := by
        rw [attach, attachTo_of_kind hc]
      rw [List.foldl_cons, hattach, ih]
      · simp
      · simpa using h

end Node

/-! ## What is added to a scene -/

namespace SceneBuilder

variable [Scalar K]

/-- The node of a shape. -/
def shapeNode (parent : NodeId × Transform K) (st : ShapeStatement K) : Node K :=
  ⟨if st.areaLight.isSome then "AreaLight" else st.shape.name, some parent.1, [],
    .transform (parent.2.inverse.mul st.transform.start.matrix) :: shapeComponents st parent.2⟩

/-- The node of a placed object, of which the graph had `id` nodes before. -/
def instanceNode (parent : NodeId × Transform K) (o : ObjectDefinition K) (ctm : TransformSet K)
    (id : NodeId) : Node K :=
  ⟨"Instance", some parent.1, List.range' (id + 1) o.shapes.length,
    [.transform (parent.2.inverse.mul ctm.start.matrix), .placed o.name]⟩

/-- The node of a light. -/
def lightNode (parent : NodeId × Transform K) (light : Resource K) (m : Matrix4 K) : Node K :=
  ⟨light.name, some parent.1, [], [.transform m, .light light.id]⟩

theorem addChild_eq {b : SceneBuilder K} {parent : NodeId × Transform K}
    (hp : parent.1 < b.graph.size) (name : String) (ctm : TransformSet K) :
    b.addChild name ctm parent = .ok (b.graph.size, { b with
      graph := (b.graph.adopt parent.1 [b.graph.size]).extend
        [⟨name, some parent.1, [], [.transform (parent.2.inverse.mul ctm.start.matrix)]⟩] }) := by
  have hlast := SceneGraph.modify_last (b.graph.adopt parent.1 [b.graph.size])
    ⟨name, some parent.1, [], []⟩
    (·.attach (.transform (parent.2.inverse.mul ctm.start.matrix)))
  rw [SceneGraph.size_adopt] at hlast
  unfold addChild
  rw [SceneGraph.addNode_eq hp]
  exact congrArg (fun g => Except.ok (b.graph.size, { b with graph := g })) hlast

omit [Scalar K] in
/-- Components are attached to the last node. -/
theorem attachAll_last (b : SceneBuilder K) (g : SceneGraph K) (n : Node K)
    (cs : List (Component K)) :
    attachAll { b with graph := g.extend [n] } g.size cs =
      { b with graph := g.extend [cs.foldl Node.attach n] } := by
  unfold attachAll
  dsimp only
  congr 1
  induction cs generalizing n with
  | nil => rfl
  | cons c cs ih =>
      rw [List.foldl_cons, List.foldl_cons, ← ih]
      congr 1
      exact SceneGraph.modify_last g n (·.attach c)

theorem nodup_shapeComponents (m : Matrix4 K) (st : ShapeStatement K) (parent : Transform K) :
    (([Component.transform m] ++ shapeComponents st parent).map Component.kind).Nodup := by
  unfold shapeComponents
  cases st.areaLight <;> cases st.transform.isAnimated <;> simp [Component.kind]

theorem placeShape_eq {b : SceneBuilder K} {parent : NodeId × Transform K}
    (hp : parent.1 < b.graph.size) (st : ShapeStatement K) :
    placeShape parent b st = .ok { b with
      graph := (b.graph.adopt parent.1 [b.graph.size]).extend [shapeNode parent st] } := by
  have hlast := attachAll_last b (b.graph.adopt parent.1 [b.graph.size])
    ⟨if st.areaLight.isSome then "AreaLight" else st.shape.name, some parent.1, [],
      [.transform (parent.2.inverse.mul st.transform.start.matrix)]⟩
    (shapeComponents st parent.2)
  rw [SceneGraph.size_adopt, Node.foldl_attach _ (nodup_shapeComponents _ st parent.2)] at hlast
  unfold placeShape
  dsimp only
  rw [addChild_eq hp]
  exact congrArg Except.ok hlast

/-- The nodes of a row of shapes below one parent. -/
theorem placeShapes_eq {b : SceneBuilder K} {parent : NodeId × Transform K}
    (hp : parent.1 < b.graph.size) (sts : List (ShapeStatement K)) :
    sts.foldlM (placeShape parent) b = .ok { b with
      graph := (b.graph.adopt parent.1 (List.range' b.graph.size sts.length)).extend
        (sts.map (shapeNode parent)) } := by
  induction sts generalizing b with
  | nil =>
      rw [List.length_nil, List.range'_zero, SceneGraph.adopt_nil, List.map_nil,
        SceneGraph.extend_nil]
      rfl
  | cons st sts ih =>
      rw [List.foldlM_cons, placeShape_eq hp]
      have hp' : parent.1 < (b.graph.adopt parent.1 [b.graph.size]).size := by
        rw [SceneGraph.size_adopt]
        exact hp
      change List.foldlM (placeShape parent) _ sts = _
      rw [ih]
      · dsimp only
        rw [SceneGraph.size_extend, SceneGraph.size_adopt, SceneGraph.adopt_extend hp',
          SceneGraph.adopt_adopt, SceneGraph.extend_extend]
        rfl
      · dsimp only
        rw [SceneGraph.size_extend]
        exact Nat.lt_add_right _ hp'

theorem placeObject_eq {b : SceneBuilder K} {parent : NodeId × Transform K}
    (hparent : b.parent? = .ok parent) (hp : parent.1 < b.graph.size) (o : ObjectDefinition K)
    (ctm : TransformSet K) :
    b.placeObject o ctm = .ok { b with
      graph := (b.graph.adopt parent.1 [b.graph.size]).extend
        (instanceNode parent o ctm b.graph.size ::
          o.shapes.map (shapeNode (b.graph.size, .identity))) } := by
  have hsize := SceneGraph.size_adopt b.graph parent.1 [b.graph.size]
  have hlast := attachAll_last b (b.graph.adopt parent.1 [b.graph.size])
    ⟨"Instance", some parent.1, [], [.transform (parent.2.inverse.mul ctm.start.matrix)]⟩
    [.placed o.name]
  rw [hsize] at hlast
  unfold placeObject
  rw [hparent]
  change (b.addChild "Instance" ctm parent >>= _) = _
  rw [addChild_eq hp]
  change List.foldlM (placeShape (b.graph.size, .identity)) (attachAll _ b.graph.size _) _ = _
  rw [hlast, placeShapes_eq]
  · -- the last node takes up those of the shapes
    dsimp only
    rw [SceneGraph.size_extend, hsize, List.length_singleton]
    have hadopt := SceneGraph.adopt_last (b.graph.adopt parent.1 [b.graph.size])
      ([.placed o.name].foldl Node.attach ⟨"Instance", some parent.1, [],
        [.transform (parent.2.inverse.mul ctm.start.matrix)]⟩)
      (List.range' (b.graph.size + 1) o.shapes.length)
    rw [hsize] at hadopt
    rw [hadopt, SceneGraph.extend_extend]
    rfl
  · dsimp only
    rw [SceneGraph.size_extend, hsize]
    exact Nat.lt_succ_self _

omit [Scalar K] in
/-- Only the parameters of a light change. -/
theorem declared_adjustLight (t : ResourceTable K) (id : ResourceId) (f : ParamMap → ParamMap)
    {β : Type} (g : Resource K → β) (hg : ∀ r params, g { r with params := params } = g r) :
    (t.adjustLight id f).declared.map g = t.declared.map g := by
  unfold ResourceTable.adjustLight
  rw [List.map_map]
  refine List.map_congr_left fun r _ => ?_
  rw [Function.comp_apply]
  split
  · exact hg r _
  · rfl

omit [Scalar K] in
theorem adjustLight_same (t : ResourceTable K) (id : ResourceId) :
    t.adjustLight id (fun params => params) = t := by
  unfold ResourceTable.adjustLight
  congr 1
  exact (List.map_congr_left fun r _ => ite_self r).trans (List.map_id' _)

/-- A light has one node, whatever of its parameters places it. -/
theorem placeLight_eq {b : SceneBuilder K} {parent : NodeId × Transform K}
    (hparent : b.parent? = .ok parent) (hp : parent.1 < b.graph.size) (light : Resource K)
    (ctm : TransformSet K) :
    ∃ m f, b.placeLight light ctm = .ok { b with
      graph := (b.graph.adopt parent.1 [b.graph.size]).extend [lightNode parent light m]
      resources := b.resources.adjustLight light.id f } := by
  have hsize := SceneGraph.size_adopt b.graph parent.1 [b.graph.size]
  have hlast (b₁ : SceneBuilder K) (n : Node K) :=
    attachAll_last b₁ (b.graph.adopt parent.1 [b.graph.size]) n [.light light.id]
  rw [hsize] at hlast
  unfold placeLight
  rw [hparent]
  change ∃ m f, (b.addChild light.name ctm parent >>= _) = _
  rw [addChild_eq hp]
  cases lightPlacement? light with
  | none =>
      refine ⟨parent.2.inverse.mul ctm.start.matrix, fun params => params, ?_⟩
      rw [adjustLight_same]
      exact congrArg Except.ok (hlast b _)
  | some placement =>
      have hattach (n : Node K) (c : Component K) : SceneGraph.attach _ b.graph.size c = _ :=
        hsize ▸ SceneGraph.modify_last (b.graph.adopt parent.1 [b.graph.size]) n (·.attach c)
      let g := (b.graph.adopt parent.1 [b.graph.size]).extend
        [⟨light.name, some parent.1, [], [.transform (parent.2.inverse.mul ctm.start.matrix)]⟩]
      have hgraph (m : Matrix4 K) :
          (g.attach b.graph.size (.transform m)).attach b.graph.size (.light light.id) =
            (b.graph.adopt parent.1 [b.graph.size]).extend [lightNode parent light m] := by
        rw [hattach, hattach]
        rfl
      refine ⟨(g.localMatrix b.graph.size).mul placement.1, (withoutParams · placement.2), ?_⟩
      rw [← hgraph]
      rfl

end SceneBuilder
end SceneReader
