import SceneReader.Proofs.Scene.Motion
import SceneReader.Proofs.Scene.Walk

/-!
# Scenes in the order of their source

The nodes of a scene are numbered in the order in which they are made, and a node is made while
some directive is executed.  A walk comes to the nodes in the order of their numbers, although
it goes down from the root and knows nothing of the directives.  So what is found in a scene is
listed as the source has it: nodes of earlier directives come first, and the shapes of a placed
object come directly after the node of the object, in the order in which they were added to it.

**Results.**
* `IsMadeBy.mono`, `existsUnique_isMadeBy`: every node but the root is made by one directive, and
  later ones by later directives.
* `inSourceOrder_select`: what is found is listed in the order of the source.
* `shapes_of_placed`: where the shapes of a placed object are.
* `sourceOrder_of_run`: all of this for the scene of a run.
-/

namespace SceneReader

variable {K : Type} [Scalar K]

/-! ## Nodes and the directives that make them -/

namespace Engine

section Source

variable {here : Location} {c : EngineContext} {ds : List Directive} {dirs : DirectoryStack}

/-- What the events of a number of directives make. -/
def sceneAfter (K : Type) [Scalar K] (here : Location) (c : EngineContext) (dirs : DirectoryStack)
    (ds : List Directive) : Except BuildFault (SceneBuilder K) :=
  (started (K := K) c ds dirs).events.foldlM (SceneBuilder.step here) .initial

/-- The directive at a place makes a node: before the directive there are fewer nodes, and after
it the node is there. -/
def IsMadeBy (K : Type) [Scalar K] (here : Location) (c : EngineContext) (dirs : DirectoryStack)
    (ds : List Directive) (i : Nat) (id : NodeId) : Prop :=
  i < ds.length ∧ ∃ b b' : SceneBuilder K, sceneAfter K here c dirs (ds.take i) = .ok b ∧
    sceneAfter K here c dirs (ds.take (i + 1)) = .ok b' ∧ b.graph.size ≤ id ∧
    id < b'.graph.size

/-- How many nodes events tell of. -/
def nodesTold (es : List (Event K)) : Nat := (es.flatMap Event.contents).length

omit [Scalar K] in
theorem nodesTold_append (es es' : List (Event K)) :
    nodesTold (es ++ es') = nodesTold es + nodesTold es' := by
  unfold nodesTold
  rw [List.flatMap_append, List.length_append]

omit [Scalar K] in
/-- Ends tell of no nodes. -/
theorem nodesTold_of_isEnding {es : List (Event K)} (h : ∀ e ∈ es, e.isEnding = true) :
    nodesTold es = 0 := by
  have hnone : es.flatMap Event.contents = [] := by
    refine List.flatMap_eq_nil_iff.mpr fun e he => ?_
    have hend := h e he
    cases e <;> first | rfl | cases hend
  unfold nodesTold
  rw [hnone, List.length_nil]

theorem size_eq_nodesTold {es : List (Event K)} {scene : Scene K}
    (h : Scene.ofEvents here es = .ok scene) : scene.graph.size = nodesTold es := by
  obtain ⟨b, hfold, rfl⟩ := Success.of_map h
  exact SceneBuilder.size_of_foldlM hfold

/-- How many nodes there are after a number of directives. -/
def nodesAfter (K : Type) [Scalar K] (c : EngineContext) (dirs : DirectoryStack)
    (ds : List Directive) : Nat := nodesTold (started (K := K) c ds dirs).events

/-- The events of accepted directives are told before those of later ones. -/
theorem started_events_append {as bs : List Directive}
    (h : (started (K := K) c (as ++ bs) dirs).rejection = none) :
    (started (K := K) c as dirs).rejection = none ∧
      (started (K := K) c as dirs).events <+: (started (K := K) c (as ++ bs) dirs).events := by
  rw [started_append, Progress.andThen] at h ⊢
  cases hr : (started (K := K) c as dirs).rejection with
  | some r =>
      rw [hr] at h
      dsimp only at h
      rw [hr] at h
      cases h
  | none => exact ⟨rfl, List.prefix_append _ _⟩

theorem nodesAfter_mono (h : (started (K := K) c ds dirs).rejection = none) {i j : Nat}
    (hij : i ≤ j) : nodesAfter K c dirs (ds.take i) ≤ nodesAfter K c dirs (ds.take j) := by
  have hj : (started (K := K) c (ds.take j) dirs).rejection = none := by
    rw [← List.take_append_drop j ds] at h
    exact (started_events_append h).1
  have hsplit : ds.take i ++ (ds.take j).drop i = ds.take j := by
    have htake := List.take_append_drop i (ds.take j)
    rwa [List.take_take, Nat.min_eq_left hij] at htake
  rw [← hsplit] at hj
  obtain ⟨rest, hrest⟩ := (started_events_append hj).2
  unfold nodesAfter
  rw [← hsplit, ← hrest, nodesTold_append]
  exact Nat.le_add_right _ _

/-- What a number of directives make, if all of them make a scene. -/
theorem exists_sceneAfter (h : (started (K := K) c ds dirs).rejection = none) {scene : Scene K}
    (hscene : Scene.ofEvents here (run c ds (.initial dirs)).events = .ok scene) (i : Nat) :
    ∃ b : SceneBuilder K, sceneAfter K here c dirs (ds.take i) = .ok b ∧
      b.graph.size = nodesAfter K c dirs (ds.take i) := by
  have hprefix : (started (K := K) c (ds.take i) dirs).events <+:
      (run (K := K) c ds (.initial dirs)).events := by
    have hall := h
    rw [← List.take_append_drop i ds] at hall
    have htake := (started_events_append hall).2
    rw [List.take_append_drop] at htake
    rw [(run_of_started h).2]
    exact htake.trans (List.prefix_append _ _)
  obtain ⟨rest, hrest⟩ := hprefix
  obtain ⟨b, hfold, -⟩ := Success.of_map hscene
  rw [← hrest, List.foldlM_append] at hfold
  obtain ⟨b₁, hb₁, -⟩ := Success.of_bind hfold
  exact ⟨b₁, hb₁, SceneBuilder.size_of_foldlM hb₁⟩

/-- The numbers of the nodes that a directive makes. -/
theorem isMadeBy_iff (h : (started (K := K) c ds dirs).rejection = none) {scene : Scene K}
    (hscene : Scene.ofEvents here (run c ds (.initial dirs)).events = .ok scene) {i : Nat}
    {id : NodeId} :
    IsMadeBy K here c dirs ds i id ↔ i < ds.length ∧
      nodesAfter K c dirs (ds.take i) ≤ id ∧ id < nodesAfter K c dirs (ds.take (i + 1)) := by
  obtain ⟨b, hb, hsize⟩ := exists_sceneAfter h hscene i
  obtain ⟨b', hb', hsize'⟩ := exists_sceneAfter h hscene (i + 1)
  rw [← hsize, ← hsize']
  constructor
  · rintro ⟨hi, b₁, b₁', hb₁, hb₁', hmade⟩
    cases hb.symm.trans hb₁
    cases hb'.symm.trans hb₁'
    exact ⟨hi, hmade⟩
  · rintro ⟨hi, hmade⟩
    exact ⟨hi, b, b', hb, hb', hmade⟩

/-- Later nodes are made by later directives. -/
theorem IsMadeBy.mono (h : (started (K := K) c ds dirs).rejection = none) {scene : Scene K}
    (hscene : Scene.ofEvents here (run c ds (.initial dirs)).events = .ok scene) {i j : Nat}
    {id id' : NodeId} (hid : IsMadeBy K here c dirs ds i id)
    (hid' : IsMadeBy K here c dirs ds j id') (hle : id ≤ id') : i ≤ j := by
  obtain ⟨-, hfrom, -⟩ := (isMadeBy_iff h hscene).mp hid
  obtain ⟨-, -, hto⟩ := (isMadeBy_iff h hscene).mp hid'
  by_contra hlt
  have hbefore := nodesAfter_mono h (Nat.not_le.mp hlt)
  exact absurd (Nat.lt_of_lt_of_le hto hbefore) (Nat.not_lt.mpr (Nat.le_trans hfrom hle))

/-- Where numbers go from one that is not beyond a place to one that is, some step goes past
the place. -/
theorem exists_step_past {f : Nat → Nat} {place n : Nat} (hfrom : f 0 ≤ place)
    (hto : place < f n) : ∃ i < n, f i ≤ place ∧ place < f (i + 1) := by
  induction n with
  | zero => exact absurd hto (Nat.not_lt.mpr hfrom)
  | succ n ih =>
      by_cases hn : place < f n
      · obtain ⟨i, hi, hstep⟩ := ih hn
        exact ⟨i, Nat.lt_succ_of_lt hi, hstep⟩
      · exact ⟨n, Nat.lt_succ_self n, Nat.not_lt.mp hn, hto⟩

/-- Every node but the root is made by exactly one directive. -/
theorem existsUnique_isMadeBy (h : (started (K := K) c ds dirs).rejection = none)
    {scene : Scene K}
    (hscene : Scene.ofEvents here (run c ds (.initial dirs)).events = .ok scene) {id : NodeId}
    (hroot : id ≠ 0) (hid : id < scene.graph.size) : ∃! i, IsMadeBy K here c dirs ds i id := by
  have hsize : scene.graph.size = nodesAfter K c dirs (ds.take ds.length) := by
    have hfinish := nodesTold_of_isEnding fun e he =>
      isEnding_finish (s := (started (K := K) c ds dirs).state) (e := e) he
    rw [List.take_length, size_eq_nodesTold hscene, (run_of_started h).2, nodesTold_append,
      hfinish, Nat.add_zero]
    rfl
  have hfirst : nodesAfter K c dirs (ds.take 0) = 1 := rfl
  have hpos : nodesAfter K c dirs (ds.take 0) ≤ id := by
    rw [hfirst]
    exact Nat.one_le_iff_ne_zero.mpr hroot
  obtain ⟨i, hi, hmade⟩ := exists_step_past (f := fun i => nodesAfter K c dirs (ds.take i)) hpos
    (hsize ▸ hid)
  have hby := (isMadeBy_iff h hscene).mpr ⟨hi, hmade⟩
  refine ⟨i, hby, fun j hj => ?_⟩
  exact Nat.le_antisymm (hj.mono h hscene hby (Nat.le_refl id))
    (hby.mono h hscene hj (Nat.le_refl id))

/-- Nodes are listed in the order of their numbers and of the directives that make them. -/
def InSourceOrder (K : Type) [Scalar K] (here : Location) (c : EngineContext)
    (dirs : DirectoryStack) (ds : List Directive) (ids : List NodeId) : Prop :=
  ids.Pairwise fun id id' => id < id' ∧
    ∀ i j, IsMadeBy K here c dirs ds i id → IsMadeBy K here c dirs ds j id' → i ≤ j

/-- What is found in the scene of a run is in the order of the source. -/
theorem inSourceOrder_select (h : (started (K := K) c ds dirs).rejection = none)
    {scene : Scene K}
    (hscene : Scene.ofEvents here (run c ds (.initial dirs)).events = .ok scene)
    (horder : scene.graph.InOrder) (p : Node K → Bool) :
    InSourceOrder K here c dirs ds (scene.graph.select p) ∧
      ∀ id, id ∈ scene.graph.select p ↔
        ∃ n, scene.graph.node? id = some n ∧ p n = true := by
  rw [SceneGraph.select_eq_filter horder]
  refine ⟨?_, fun id => ?_⟩
  · refine (List.pairwise_lt_range.filter _).imp fun {id id'} hlt => ⟨hlt, ?_⟩
    exact fun i j hi hj => hi.mono h hscene hj (Nat.le_of_lt hlt)
  · rw [List.mem_filter, List.mem_range]
    constructor
    · rintro ⟨-, hp⟩
      cases hnode : scene.graph.node? id with
      | none =>
          rw [hnode] at hp
          cases hp
      | some n =>
          rw [hnode] at hp
          exact ⟨n, rfl, hp⟩
    · rintro ⟨n, hnode, hp⟩
      rw [hnode]
      exact ⟨(List.getElem?_eq_some_iff.mp hnode).1, hp⟩

end Source

end Engine

/-! ## The shapes of placed objects -/

namespace SceneBuilder

variable {here : Location} {b b' b'' : SceneBuilder K} {es : List (Event K)}

/-- The node of a placed object. -/
theorem node?_of_instance {o : ObjectDefinition K} {ctm : TransformSet K} (hb : InRange b)
    (h : b.step here (.placed o ctm) = .ok b') (hes : es.foldlM (step here) b' = .ok b'') :
    ∃ parent, b''.graph.node? b.graph.size = some (instanceNode parent o ctm b.graph.size) := by
  cases graphStep_of_step hb h with
  | same e he hg ho => cases he
  | row e parent ns hparent hrow hg ho =>
      cases hrow
      exact ⟨parent, node?_of_row hb hparent h hg ho hes (Nat.succ_pos _)⟩

/-- The shapes of a placed object come directly after the node of the object and are its
children, in the order in which they were added to the object. -/
theorem shapes_of_placed {scene : Scene K} (h : Scene.ofEvents here es = .ok scene) {id : NodeId}
    {n : Node K} (hnode : scene.graph.node? id = some n) (hplaced : n.has .placed = true) :
    ∃ o ctm, .placed o ctm ∈ es ∧ n.component? .placed = some (.placed o.name) ∧
      n.children = List.range' (id + 1) o.shapes.length ∧
      ∀ j st, o.shapes[j]? = some st →
        scene.graph.node? (id + 1 + j) = some (shapeNode (id, .identity) st) := by
  obtain ⟨es₁, e, es₂, b, k, rfl, hb, rfl, hk⟩ := exists_event_of_node h hnode
  obtain ⟨comp, hcomp, hkind⟩ := exists_mem_contents rfl hplaced
  -- only the event that places an object adds a node with one, which comes first
  cases contentOf_of_mem hk hcomp with
  | shape st hmem => exact absurd hkind (ShapeStatement.kind_ne_placed hmem)
  | below o ctm j st hst hmem => exact absurd hkind (ShapeStatement.kind_ne_placed hmem)
  | light r ctm heq =>
      rw [heq] at hkind
      cases hkind
  | placed o ctm heq =>
      obtain ⟨b', b'', hstep, hes, hgraph⟩ := steps_of_split h hb
      have hrange := (grows_foldlM inRange_initial hb).inRange inRange_initial
      obtain ⟨parent, hinstance⟩ := node?_of_instance hrange hstep hes
      rw [hgraph] at hinstance
      cases hnode.symm.trans hinstance
      exact ⟨o, ctm, by simp, rfl, rfl, fun j st hst => node?_of_split h hb hst⟩

end SceneBuilder

namespace Engine

/-! ## The scene of a run -/

/-- A run that is not refused makes a scene in the order of its source.  A walk comes to every
node once, in the order of their numbers.  Every node but the root is made by one directive.
The nodes with a component of a kind and the nodes of a name are listed with those of earlier
directives first, and the shapes of a placed object come directly after its node. -/
theorem sourceOrder_of_run {c : EngineContext} {ds : List Directive} {dirs : DirectoryStack}
    (h : (run (K := K) c ds (.initial dirs)).rejection = none) (here : Location) :
    ∃ scene : Scene K, Scene.ofEvents here (run c ds (.initial dirs)).events = .ok scene ∧
      (scene.graph.walk 0).map (·.1) = List.range scene.graph.size ∧
      (∀ id, id ≠ 0 → id < scene.graph.size → ∃! i, IsMadeBy K here c dirs ds i id) ∧
      (∀ k, InSourceOrder K here c dirs ds (scene.graph.find k) ∧
        ∀ id, id ∈ scene.graph.find k ↔
          ∃ n, scene.graph.node? id = some n ∧ n.has k = true) ∧
      (∀ name, InSourceOrder K here c dirs ds (scene.graph.named name) ∧
        ∀ id, id ∈ scene.graph.named name ↔
          ∃ n, scene.graph.node? id = some n ∧ n.name = name) ∧
      ∀ id n, scene.graph.node? id = some n → n.has .placed = true →
        ∃ o ctm, .placed o ctm ∈ (run (K := K) c ds (.initial dirs)).events ∧
          n.component? .placed = some (.placed o.name) ∧
          n.children = List.range' (id + 1) o.shapes.length ∧
          ∀ j st, o.shapes[j]? = some st →
            scene.graph.node? (id + 1 + j) = some (SceneBuilder.shapeNode (id, .identity) st) := by
  obtain ⟨scene, hscene⟩ := exists_ofEvents_run h here
  have horder := inOrder_of_run h hscene
  have hstarted : (started (K := K) c ds dirs).rejection = none := by
    rw [run_rejection] at h
    exact h
  have hselect := inSourceOrder_select hstarted hscene horder
  refine ⟨scene, hscene, SceneGraph.walk_eq_range horder, ?_, fun k => hselect (·.has k), ?_, ?_⟩
  · exact fun id hroot hid => existsUnique_isMadeBy hstarted hscene hroot hid
  · intro name
    obtain ⟨hlisted, hmem⟩ := hselect (·.name == name)
    simp only [beq_iff_eq] at hmem
    exact ⟨hlisted, hmem⟩
  · exact fun id n hnode hplaced => SceneBuilder.shapes_of_placed hscene hnode hplaced

/-- An object that is placed in a block, with a shape behind it. -/
def shapeBehindObject : List Directive :=
  [⟨.worldBegin, [], .empty, none⟩, objectStart, sphere, objectStop,
   ⟨.attributeBegin, [], .empty, none⟩, ⟨.objectInstance, [.text "o"], .empty, none⟩,
   ⟨.attributeEnd, [], .empty, none⟩, sphere]

/-- A walk comes to the root, the block, the placed object, its shape and the shape behind it.
The last one is made by one directive. -/
theorem sourceOrder_of_run_shapeBehindObject :
    (run (K := ℝ) ⟨.rooted [], [], none⟩ shapeBehindObject (.initial .empty)).rejection = none ∧
      ∃ scene : Scene ℝ, Scene.ofEvents []
          (run ⟨.rooted [], [], none⟩ shapeBehindObject (.initial .empty)).events = .ok scene ∧
        (scene.graph.walk 0).map (·.1) = [0, 1, 2, 3, 4] ∧
        ∃! i, IsMadeBy ℝ [] ⟨.rooted [], [], none⟩ .empty shapeBehindObject i 4 := by
  have hnone :
      (run (K := ℝ) ⟨.rooted [], [], none⟩ shapeBehindObject (.initial .empty)).rejection = none :=
    rfl
  obtain ⟨scene, hscene, hwalk, hmaker, -⟩ := sourceOrder_of_run hnone []
  have hsize : scene.graph.size = 5 := size_eq_nodesTold hscene
  rw [hsize] at hwalk hmaker
  exact ⟨hnone, scene, hscene, hwalk, hmaker 4 (by decide) (by decide)⟩

end Engine

end SceneReader
