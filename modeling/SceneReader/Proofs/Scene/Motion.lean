import SceneReader.Proofs.Scene.Contents
import SceneReader.Proofs.Scene.InstancePlacement

/-!
# Moving shapes

A shape that is stated while the two halves of the current transform differ moves from one
placement to another one.  Its node is at the first placement, and a component of it holds both,
seen from the parent.  The node of a shape that does not move has no such component.

The node of a placed object is at the first half of the transform where it is placed, and holds
nothing of the second half.  So the shapes of an object show the motion that they have inside of
it, and the motion of the whole object is lost.

**Results.**
* `showsMotion_iff`: which motion the node of a shape shows.
* `exists_event_of_shape`: the event that a node with a shape comes from.
* `motion_of_shapeNode`: stated shapes show their motion, and the shapes of a placed object show
  theirs if and only if the object is placed at rest.
-/

namespace SceneReader

variable {K : Type}

namespace SceneGraph

/-- A node shows the motion between two placements in the world: if they differ, both are held
by a component, seen from the parent; and if they are the same, there is no such component. -/
structure ShowsMotion [Scalar K] (g : SceneGraph K) (id : NodeId) (start stop : Matrix4 K) :
    Prop where
  moving : start ≠ stop → ∃ p a t b t', g.parentOf id = some p ∧
    (g.node? id).bind (·.component? .animation) = some (.animation a t b t') ∧
    (g.worldMatrix p).mul a = start ∧ (g.worldMatrix p).mul b = stop
  atRest : start = stop → (g.node? id).bind (·.component? .animation) = none

end SceneGraph

namespace SceneBuilder

open SceneGraph (ShowsMotion Keeps)

/-! ## The nodes of shapes -/

section Nodes

variable [Scalar K] {here : Location} {b b' b'' : SceneBuilder K} {e : Event K}
  {es es' : List (Event K)}

/-- The motion of a shape, seen from its parent. -/
theorem animation_shapeNode (parent : NodeId × Transform K) (st : ShapeStatement K) :
    (shapeNode parent st).component? .animation =
      if st.transform.isAnimated then
        some (.animation (parent.2.inverse.mul st.transform.start.matrix) st.startTime
          (parent.2.inverse.mul st.transform.stop.matrix) st.stopTime)
      else none := by
  unfold shapeNode Node.component? shapeComponents
  cases st.areaLight <;> cases st.transform.isAnimated <;> rfl

/-- A row of nodes that are not opened stays as it was added. -/
theorem node?_of_row {parent : NodeId × Transform K} {ns : List (Node K)} (hb : InRange b)
    (hparent : b.parent? = .ok parent) (h : b.step here e = .ok b')
    (hg : b'.graph = (b.graph.adopt parent.1 [b.graph.size]).extend ns)
    (ho : b'.open? = b.open?) (hes : es.foldlM (step here) b' = .ok b'') {j : Nat}
    (hj : j < ns.length) : b''.graph.node? (b.graph.size + j) = ns[j]? := by
  have hp : parent.1 < b.graph.size := hb parent (mem_of_parent? hparent)
  have hgrows := grows_foldlM (((addition_of_step hb h).grows hb).inRange hb) hes
  have hbase : (b.graph.adopt parent.1 [b.graph.size]).size = b.graph.size :=
    SceneGraph.size_adopt _ _ _
  have hsize : b'.graph.size = b.graph.size + ns.length := by
    rw [hg, SceneGraph.size_extend, hbase]
  have hpos : 0 < b.graph.size := Nat.zero_lt_of_lt hp
  have hroot : b.graph.size + j ≠ 0 := by omega
  rw [hgrows.node? _ (by omega) hroot, hg, ← SceneGraph.node?_extend_right, hbase]
  intro top htop
  rw [ho] at htop
  exact Nat.ne_of_lt (Nat.lt_add_right j (hb top htop))

/-- The node of a shape that is stated. -/
theorem node?_of_shape {st : ShapeStatement K} (hb : InRange b)
    (h : b.step here (.shape st) = .ok b') (hes : es.foldlM (step here) b' = .ok b'') :
    ∃ parent, b.parent? = .ok parent ∧
      b''.graph.node? b.graph.size = some (shapeNode parent st) := by
  cases graphStep_of_step hb h with
  | same e he hg ho => cases he
  | row e parent ns hparent hrow hg ho =>
      cases hrow
      exact ⟨parent, hparent, node?_of_row hb hparent h hg ho hes Nat.zero_lt_one⟩

/-- The node of a shape of a placed object. -/
theorem node?_of_placed {o : ObjectDefinition K} {ctm : TransformSet K} (hb : InRange b)
    (h : b.step here (.placed o ctm) = .ok b') (hes : es.foldlM (step here) b' = .ok b'')
    {j : Nat} {st : ShapeStatement K} (hst : o.shapes[j]? = some st) :
    b''.graph.node? (b.graph.size + 1 + j) = some (shapeNode (b.graph.size, .identity) st) := by
  cases graphStep_of_step hb h with
  | same e he hg ho => cases he
  | row e parent ns hparent hrow hg ho =>
      cases hrow
      have hj : j + 1 < (instanceNode parent o ctm b.graph.size ::
          o.shapes.map (shapeNode (b.graph.size, .identity))).length := by
        have hlt := (List.getElem?_eq_some_iff.mp hst).1
        simpa using hlt
      have hnode := node?_of_row hb hparent h hg ho hes hj
      rw [List.getElem?_cons_succ, List.getElem?_map, hst] at hnode
      rw [Nat.add_assoc, Nat.add_comm 1 j]
      exact hnode

/-- A scene before an event, after it and in the end. -/
theorem steps_of_split {es₁ es₂ : List (Event K)} {scene : Scene K}
    (h : Scene.ofEvents here (es₁ ++ e :: es₂) = .ok scene)
    (hb : es₁.foldlM (step here) .initial = .ok b) :
    ∃ b' b'', b.step here e = .ok b' ∧ es₂.foldlM (step here) b' = .ok b'' ∧
      b''.graph = scene.graph := by
  obtain ⟨b'', hfold, rfl⟩ := Success.of_map h
  rw [List.foldlM_append, hb] at hfold
  change List.foldlM (step here) b (e :: es₂) = .ok b'' at hfold
  rw [List.foldlM_cons] at hfold
  obtain ⟨b', he, h₂⟩ := Success.of_bind hfold
  exact ⟨b', b'', he, h₂, rfl⟩

/-- The node of a shape of a placed object in the scene that all events make. -/
theorem node?_of_split {es₁ es₂ : List (Event K)} {scene : Scene K} {o : ObjectDefinition K}
    {ctm : TransformSet K} (h : Scene.ofEvents here (es₁ ++ .placed o ctm :: es₂) = .ok scene)
    (hb : es₁.foldlM (step here) .initial = .ok b) {j : Nat} {st : ShapeStatement K}
    (hst : o.shapes[j]? = some st) :
    scene.graph.node? (b.graph.size + 1 + j) =
      some (shapeNode (b.graph.size, .identity) st) := by
  obtain ⟨b', b'', hstep, hes, hgraph⟩ := steps_of_split h hb
  rw [← hgraph]
  exact node?_of_placed ((grows_foldlM inRange_initial hb).inRange inRange_initial) hstep hes hst

/-- An element of a part of a row of rows. -/
theorem exists_split_of_flatMap {α β : Type} {f : α → List β} {xs : List α} {i : Nat} {y : β}
    (h : (xs.flatMap f)[i]? = some y) :
    ∃ as x bs k, xs = as ++ x :: bs ∧ i = (as.flatMap f).length + k ∧ (f x)[k]? = some y := by
  induction xs generalizing i with
  | nil => cases h
  | cons x xs ih =>
      rw [List.flatMap_cons] at h
      by_cases hi : i < (f x).length
      · rw [List.getElem?_append_left hi] at h
        exact ⟨[], x, xs, i, rfl, (Nat.zero_add i).symm, h⟩
      · rw [List.getElem?_append_right (Nat.le_of_not_lt hi)] at h
        obtain ⟨as, x', bs, k, rfl, hk, hy⟩ := ih h
        refine ⟨x :: as, x', bs, k, rfl, ?_, hy⟩
        rw [List.flatMap_cons, List.length_append]
        omega

omit [Scalar K] in
/-- A component that refers to something is among the contents of its node. -/
theorem exists_mem_contents {n : Node K} {kind : ComponentKind} (hrefers : kind.refers = true)
    (h : n.has kind = true) : ∃ c ∈ n.contents, c.kind = kind := by
  obtain ⟨c, hc⟩ := Option.isSome_iff_exists.mp h
  have hkind : c.kind = kind := by simpa using List.find?_some hc
  refine ⟨c, List.mem_filter.mpr ⟨List.mem_of_find?_eq_some hc, ?_⟩, hkind⟩
  rw [hkind]
  exact hrefers

/-- A node comes from an event: it is behind the nodes that were there before the event, and
refers to what the event says. -/
theorem exists_event_of_node {scene : Scene K} (h : Scene.ofEvents here es = .ok scene)
    {id : Nat} {n : Node K} (hnode : scene.graph.node? id = some n) :
    ∃ es₁ e es₂ b k, es = es₁ ++ e :: es₂ ∧ es₁.foldlM (step here) .initial = .ok b ∧
      id = b.graph.size + k ∧ e.contents[k]? = some n.contents := by
  have hcontents : scene.graph.contents[id]? = some n.contents := by
    unfold SceneGraph.contents
    rw [List.getElem?_map]
    exact congrArg (Option.map Node.contents) hnode
  rw [(Scene.contents_ofEvents h).1] at hcontents
  obtain ⟨es₁, e, es₂, k, rfl, hid, hk⟩ := exists_split_of_flatMap hcontents
  obtain ⟨b'', hfold, rfl⟩ := Success.of_map h
  rw [List.foldlM_append] at hfold
  obtain ⟨b, hb, -⟩ := Success.of_bind hfold
  rw [← size_of_foldlM hb] at hid
  exact ⟨es₁, e, es₂, b, k, rfl, hb, hid, hk⟩

/-- The node of a shape comes from an event that states the shape, or that places an object
with the shape. -/
theorem exists_event_of_shape {scene : Scene K} (h : Scene.ofEvents here es = .ok scene)
    {id : Nat} {n : Node K} (hnode : scene.graph.node? id = some n)
    (hshape : n.has .shape = true) :
    ∃ es₁ e es₂ b, es = es₁ ++ e :: es₂ ∧ es₁.foldlM (step here) .initial = .ok b ∧
      ((∃ st, e = .shape st ∧ id = b.graph.size) ∨
        ∃ o ctm j st, e = .placed o ctm ∧ o.shapes[j]? = some st ∧ id = b.graph.size + 1 + j) := by
  obtain ⟨es₁, e, es₂, b, k, rfl, hb, hid, hk⟩ := exists_event_of_node h hnode
  obtain ⟨comp, hcomp, hkind⟩ := exists_mem_contents rfl hshape
  refine ⟨es₁, e, es₂, b, rfl, hb, ?_⟩
  -- only two kinds of events add nodes with shapes
  cases contentOf_of_mem hk hcomp with
  | shape st hmem => exact Or.inl ⟨st, rfl, hid⟩
  | light r ctm heq =>
      rw [heq] at hkind
      cases hkind
  | placed o ctm heq =>
      rw [heq] at hkind
      cases hkind
  | below o ctm j st hst hmem => exact Or.inr ⟨o, ctm, j, st, rfl, hst, by omega⟩

end Nodes

/-! ## Which motion is shown -/

section Motion

variable [ExactScalar K] {here : Location} {g : SceneGraph K} {id : NodeId} {es₁ es₂ : List (Event K)}
  {scene : Scene K}

theorem isAnimated_iff (t : TransformSet K) :
    t.isAnimated = true ↔ t.start.matrix ≠ t.stop.matrix := by
  unfold TransformSet.isAnimated
  rw [Bool.not_eq_true', ← Bool.not_eq_true, Matrix4.same_iff]

/-- Which motion the node of a shape shows. -/
theorem showsMotion_iff {parent : NodeId × Transform K} {st : ShapeStatement K}
    (h : g.node? id = some (shapeNode parent st)) {start stop : Matrix4 K} :
    g.ShowsMotion id start stop ↔
      (start ≠ stop → st.transform.start.matrix ≠ st.transform.stop.matrix ∧
        (g.worldMatrix parent.1).mul (parent.2.inverse.mul st.transform.start.matrix) = start ∧
        (g.worldMatrix parent.1).mul (parent.2.inverse.mul st.transform.stop.matrix) = stop) ∧
      (start = stop → st.transform.start.matrix = st.transform.stop.matrix) := by
  have hparent : g.parentOf id = some parent.1 := by
    unfold SceneGraph.parentOf
    rw [h]
    rfl
  have hanimation : (g.node? id).bind (·.component? .animation) =
      if st.transform.isAnimated then
        some (.animation (parent.2.inverse.mul st.transform.start.matrix) st.startTime
          (parent.2.inverse.mul st.transform.stop.matrix) st.stopTime)
      else none := by
    rw [h]
    exact animation_shapeNode parent st
  by_cases hmoves : st.transform.isAnimated = true
  · rw [if_pos hmoves] at hanimation
    have hne := (isAnimated_iff _).mp hmoves
    refine ⟨fun hshow => ⟨fun hdiffer => ?_, fun hsame => ?_⟩, fun hshow => ⟨fun hdiffer => ?_,
      fun hsame => absurd (hshow.2 hsame) hne⟩⟩
    · obtain ⟨p, a, t, b, t', hp, ha, hstart, hstop⟩ := hshow.moving hdiffer
      rw [hparent] at hp
      rw [hanimation] at ha
      cases hp
      cases ha
      exact ⟨hne, hstart, hstop⟩
    · have hnone := hshow.atRest hsame
      rw [hanimation] at hnone
      cases hnone
    · obtain ⟨-, hstart, hstop⟩ := hshow.1 hdiffer
      exact ⟨_, _, _, _, _, hparent, hanimation, hstart, hstop⟩
  · rw [if_neg hmoves] at hanimation
    have heq : st.transform.start.matrix = st.transform.stop.matrix :=
      not_not.mp (mt (isAnimated_iff _).mpr hmoves)
    refine ⟨fun hshow => ⟨fun hdiffer => ?_, fun _ => heq⟩, fun hshow => ⟨fun hdiffer => ?_,
      fun _ => hanimation⟩⟩
    · obtain ⟨p, a, t, b, t', -, ha, -, -⟩ := hshow.moving hdiffer
      rw [hanimation] at ha
      cases ha
    · exact absurd heq (hshow.1 hdiffer).1

theorem spec_of_split {e : Event K} {b b' b'' : SceneBuilder K}
    (hsound : Engine.AreSoundEvents (es₁ ++ e :: es₂))
    (hb : es₁.foldlM (step here) .initial = .ok b) (h : b.step here e = .ok b')
    (hes : es₂.foldlM (step here) b' = .ok b'') :
    AllPlaced b ∧ StepSpec b b' e ∧ Keeps b'.graph b''.graph := by
  obtain ⟨hall, -⟩ := foldlM_spec allPlaced_initial
    (fun e' he' => hsound e' (List.mem_append_left _ he')) hb
  have hspec := step_spec hall (hsound e (by simp)) h
  obtain ⟨-, hk⟩ := foldlM_spec hspec.placed
    (fun e' he' => hsound e' (List.mem_append_right _ (List.mem_cons_of_mem _ he'))) hes
  exact ⟨hall, hspec, hk⟩

/-- The node of a shape that is stated shows the motion of the shape. -/
theorem showsMotion_of_shape {st : ShapeStatement K} {b : SceneBuilder K}
    (hsound : Engine.AreSoundEvents (es₁ ++ .shape st :: es₂))
    (h : Scene.ofEvents here (es₁ ++ .shape st :: es₂) = .ok scene)
    (hb : es₁.foldlM (step here) .initial = .ok b) :
    scene.graph.ShowsMotion b.graph.size st.transform.start.matrix
      st.transform.stop.matrix := by
  obtain ⟨b', b'', hstep, hes, hgraph⟩ := steps_of_split h hb
  obtain ⟨hall, hspec, hkeeps⟩ := spec_of_split hsound hb hstep hes
  have hrange := (grows_foldlM inRange_initial hb).inRange inRange_initial
  obtain ⟨parent, hparent, hnode⟩ := node?_of_shape hrange hstep hes
  rw [hgraph] at hnode hkeeps
  obtain ⟨hlt, hworld, hparentSound⟩ := isPlaced_of_parent? hall hparent
  rw [showsMotion_iff hnode, (hspec.keeps.trans hkeeps).worldMatrix hlt, hworld,
    hparentSound.mul_cancel, hparentSound.mul_cancel]
  exact ⟨fun hne => ⟨hne, rfl, rfl⟩, id⟩

/-- The node of a shape in a placed object shows the motion of the shape in the world if and
only if the object is placed at rest. -/
theorem showsMotion_of_placed_iff {o : ObjectDefinition K} {ctm : TransformSet K}
    {b : SceneBuilder K} (hsound : Engine.AreSoundEvents (es₁ ++ .placed o ctm :: es₂))
    (h : Scene.ofEvents here (es₁ ++ .placed o ctm :: es₂) = .ok scene)
    (hb : es₁.foldlM (step here) .initial = .ok b) {j : Nat} {st : ShapeStatement K}
    (hst : o.shapes[j]? = some st) :
    scene.graph.ShowsMotion (b.graph.size + 1 + j)
        (ctm.start.matrix.mul st.transform.start.matrix)
        (ctm.stop.matrix.mul st.transform.stop.matrix) ↔
      ctm.start.matrix = ctm.stop.matrix := by
  obtain ⟨b', b'', hstep, hes, hgraph⟩ := steps_of_split h hb
  obtain ⟨-, hspec, hkeeps⟩ := spec_of_split hsound hb hstep hes
  have hrange := (grows_foldlM inRange_initial hb).inRange inRange_initial
  have htold := hsound (.placed o ctm) (by simp)
  have hctm : ctm.IsSound := htold ctm List.mem_cons_self
  have hinner : st.transform.IsSound := htold st.transform
    (List.mem_cons_of_mem _ (List.mem_map_of_mem (List.mem_of_getElem? hst)))
  have hnode := node?_of_placed hrange hstep hes hst
  rw [hgraph] at hnode hkeeps
  have hsize : b'.graph.size = b.graph.size + 1 + o.shapes.length := hspec.size _ _ rfl
  have hnew : b.graph.size < b'.graph.size := by omega
  have hidentity : (Transform.identity : Transform K).inverse = .identity := rfl
  rw [showsMotion_iff hnode, hkeeps.worldMatrix hnew, hspec.world _ _ rfl, hidentity,
    Matrix4.identity_mul, Matrix4.identity_mul]
  refine ⟨fun ⟨hmoving, hrest⟩ => ?_, fun hsame => ?_⟩
  · -- what the node shows is moved by one transform only
    by_cases hplaces : ctm.start.matrix.mul st.transform.start.matrix =
        ctm.stop.matrix.mul st.transform.stop.matrix
    · rw [hrest hplaces] at hplaces
      exact hinner.2.mul_right_iff.mp hplaces
    · exact hinner.2.mul_right_iff.mp (hmoving hplaces).2.2
  · rw [← hsame]
    exact ⟨fun hne => ⟨fun hinner => hne (congrArg _ hinner), rfl, rfl⟩,
      hctm.1.mul_left_iff.mp⟩

end Motion

end SceneBuilder

namespace Engine

variable [ExactScalar K] {c : EngineContext} {dirs : DirectoryStack} {ds : List Directive}
  {here : Location} {scene : Scene K}

/-- How the node `id` shows the motion of its shape, if it comes from an event that is reported
in the state `s` of a run, where the scene has `size` nodes. -/
inductive Shown (g : SceneGraph K) (s : EngineState K) (size : Nat) : Event K → NodeId → Prop
  /-- A shape that is stated moves with the current transform. -/
  | stated (st : ShapeStatement K) (hctm : st.transform = s.ctm)
      (hmotion : g.ShowsMotion size s.ctm.start.matrix s.ctm.stop.matrix) :
      Shown g s size (.shape st) size
  /-- A shape of a placed object moves in the object, which moves with the current transform. -/
  | placed (o : ObjectDefinition K) (j : Nat) (st : ShapeStatement K)
      (hst : o.shapes[j]? = some st)
      (hmotion : g.ShowsMotion (size + 1 + j)
          (s.ctm.start.matrix.mul st.transform.start.matrix)
          (s.ctm.stop.matrix.mul st.transform.stop.matrix) ↔
        s.ctm.start.matrix = s.ctm.stop.matrix) :
      Shown g s size (.placed o s.ctm) (size + 1 + j)

/-- Every node with a shape shows the motion of the shape if it was stated as it is, and if it
belongs to an object that is placed at rest; and it does not if the object is placed while the
current transform moves. -/
theorem motion_of_shapeNode {id : NodeId} {n : Node K}
    (hscene : Scene.ofEvents here (run c ds (.initial dirs)).events = .ok scene)
    (hnode : scene.graph.node? id = some n) (hshape : n.has .shape = true) :
    ∃ es e s b, IsReportedIn c dirs ds es e s ∧
      es.foldlM (SceneBuilder.step here) .initial = .ok b ∧
      Shown scene.graph s b.graph.size e id := by
  obtain ⟨-, hsound⟩ := (reachable_run (K := K) c ds dirs).invariant (isSoundState_invariant c)
  obtain ⟨es₁, e, es₂, b, h, hb, hsource⟩ :=
    SceneBuilder.exists_event_of_shape hscene hnode hshape
  rw [h] at hscene hsound
  rcases hsource with ⟨st, rfl, rfl⟩ | ⟨o, ctm, j, st, rfl, hst, rfl⟩
  · obtain ⟨s, hreported, hctm⟩ := isReportedIn_of_split h rfl
    refine ⟨es₁, _, s, b, hreported, hb, .stated st hctm ?_⟩
    rw [← hctm]
    exact SceneBuilder.showsMotion_of_shape hsound hscene hb
  · obtain ⟨s, hreported, rfl⟩ := isReportedIn_of_split h rfl
    exact ⟨es₁, _, s, b, hreported, hb,
      .placed o j st hst (SceneBuilder.showsMotion_of_placed_iff hsound hscene hb hst)⟩

/-! ## An object that is placed on its way -/

/-- An object is placed while the second half of the current transform is one step farther. -/
def movingObject : List Directive :=
  [⟨.worldBegin, [], .empty, none⟩, ⟨.objectBegin, [.text "o"], .empty, none⟩,
   ⟨.shape, [.text "sphere"], .empty, none⟩, ⟨.objectEnd, [], .empty, none⟩,
   ⟨.activeTransform, [.text "EndTime"], .empty, none⟩,
   ⟨.translate, [.number 1.0, .number 0.0, .number 0.0], .empty, none⟩,
   ⟨.objectInstance, [.text "o"], .empty, none⟩]

/-- The run reports the object with its shape, and makes a scene. -/
theorem run_movingObject :
    ∃ scene es₁ es₂ o ctm st b,
      (run (K := ℝ) ⟨.rooted [], [], none⟩ movingObject (.initial .empty)).rejection = none ∧
      Scene.ofEvents [] (run (K := ℝ) ⟨.rooted [], [], none⟩ movingObject
        (.initial .empty)).events = .ok scene ∧
      (run (K := ℝ) ⟨.rooted [], [], none⟩ movingObject (.initial .empty)).events =
        es₁ ++ .placed o ctm :: es₂ ∧
      es₁.foldlM (SceneBuilder.step []) .initial = .ok b ∧ o.shapes = [st] ∧
      st.transform = TransformSet.identity.relativeTo .identity ∧ ctm.start = .identity ∧
      ctm.stop = Transform.identity.compose oneStep :=
  ⟨_, [_, _, _, _, _, _], _, _, _, _, _, rfl, rfl, rfl, rfl, rfl, rfl, rfl, rfl⟩

theorem motion_of_shapeNode_movingObject :
    ∃ scene id n,
      Scene.ofEvents [] (run (K := ℝ) ⟨.rooted [], [], none⟩ movingObject
        (.initial .empty)).events = .ok scene ∧
      scene.graph.node? id = some n ∧ n.has .shape = true ∧
      ∃ es e s b, IsReportedIn ⟨.rooted [], [], none⟩ .empty movingObject es e s ∧
        es.foldlM (SceneBuilder.step []) .initial = .ok b ∧
        Shown scene.graph s b.graph.size e id := by
  obtain ⟨scene, es₁, es₂, o, ctm, st, b, -, hscene, h, hb, hst, -⟩ := run_movingObject
  have hnode := SceneBuilder.node?_of_split (h ▸ hscene) hb (j := 0) (by rw [hst]; rfl)
  exact ⟨scene, _, _, hscene, hnode, rfl, motion_of_shapeNode hscene hnode rfl⟩

/-- The shape moves with the object, and its node holds no motion. -/
theorem motionless_movingObject :
    ∃ scene es₁ es₂ o ctm st b n,
      (run (K := ℝ) ⟨.rooted [], [], none⟩ movingObject (.initial .empty)).rejection = none ∧
      Scene.ofEvents [] (run (K := ℝ) ⟨.rooted [], [], none⟩ movingObject
        (.initial .empty)).events = .ok scene ∧
      (run (K := ℝ) ⟨.rooted [], [], none⟩ movingObject (.initial .empty)).events =
        es₁ ++ .placed o ctm :: es₂ ∧
      es₁.foldlM (SceneBuilder.step []) .initial = .ok b ∧ o.shapes = [st] ∧
      scene.graph.node? (b.graph.size + 1) = some n ∧ n.has .shape = true ∧
      ctm.start.matrix.mul st.transform.start.matrix ≠
        ctm.stop.matrix.mul st.transform.stop.matrix ∧
      n.component? .animation = none := by
  obtain ⟨scene, es₁, es₂, o, ctm, st, b, hnone, hscene, h, hb, hst, hinner, hstart, hstop⟩ :=
    run_movingObject
  have hnode := SceneBuilder.node?_of_split (h ▸ hscene) hb (j := 0) (by rw [hst]; rfl)
  refine ⟨scene, es₁, es₂, o, ctm, st, b, _, hnone, hscene, h, hb, hst, hnode, rfl, ?_, ?_⟩
  · have hone : (0 : ℝ) < Scalar.ofFloat 1.0 :=
      Number.toReal_pos (by decide +kernel) (by decide +kernel) (by decide +kernel)
    rw [hinner, hstart, hstop, Transform.matrix_compose, TransformSet.relativeTo]
    dsimp only [TransformSet.identity, Transform.identity, Transform.invert, Transform.compose]
    simp only [Matrix4.identity_mul, Matrix4.mul_identity]
    intro heq
    have hzero : (0 : ℝ) = Scalar.ofFloat 1.0 := congrArg (fun m : Matrix4 ℝ => m.r0.w) heq
    exact absurd hzero hone.ne
  · rw [SceneBuilder.animation_shapeNode, if_neg]
    rw [SceneBuilder.isAnimated_iff, not_not, hinner]
    rfl

end Engine
end SceneReader
