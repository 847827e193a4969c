import SceneReader.Proofs.Engine.DefinitionSite
import SceneReader.Proofs.Engine.LastDefinition
import SceneReader.Proofs.Scene.Growth
import SceneReader.Proofs.Scene.WorldPlacement

/-!
# Instances of objects

Where an object is placed, the scene gets one node below the node of the innermost open
block of which targets know, or below the root.  The children of this node are the shapes
that were stated in the last definition of the object, those in inner blocks as well, in
their order.  Each of them is in the world where it was stated, moved from where the
definition began to where the object is placed.

**Results.**
* `parent_of_told`: the node below which things are placed.
* `instanceAdded_of_placed`: what the placement of an object adds, and what becomes of it.
* `instance_complete`: every instance in the scene of a whole run.
-/

namespace SceneReader

variable {K : Type}

namespace SceneBuilder

section Nodes

variable [Scalar K] {here : Location}

/-- The node of the innermost open block of which targets know, or the root: the block was
told of with the transform that it has saved, and all that began in it has ended. -/
def IsEnclosing (here : Location) (s : EngineState K) (es : List (Event K)) (p : NodeId) : Prop :=
  match s.scopes.find? (·.reported) with
  | none => p = 0
  | some scope => ∃ before inside b, es = before ++ .beginScope scope.kind scope.ctm :: inside ∧
      BlocksBalanced inside ∧ before.foldlM (step here) .initial = .ok b ∧ p = b.graph.size

/-- From `b` to `b'` a scene gets one instance of an object below the node `p`, and this one
and the shapes below it are in the graph `g` as they were added. -/
structure InstanceAdded (b b' : SceneBuilder K) (g : SceneGraph K) (p : NodeId)
    (o : ObjectDefinition K) : Prop where
  size : b'.graph.size = b.graph.size + 1 + o.shapes.length
  others : ∀ id < b.graph.size, id ≠ p → b'.graph.node? id = b.graph.node? id
  children : b'.graph.childrenOf p = b.graph.childrenOf p ++ [b.graph.size]
  stays : b'.graph.childrenOf p <+: g.childrenOf p
  node : ∃ m, g.node? b.graph.size = some ⟨"Instance", some p,
    List.range' (b.graph.size + 1) o.shapes.length, [.transform m, .placed o.name]⟩
  shapes : ∀ (j : Nat) st, o.shapes[j]? = some st →
    g.node? (b.graph.size + 1 + j) = some (shapeNode (b.graph.size, .identity) st)

/-- The node below which things are placed is that of the innermost open block. -/
theorem parent_of_told {source : Option String} {s : EngineState K} {es : List (Event K)}
    {b : SceneBuilder K}
    (h : (Event.begin source :: es).foldlM (step here) .initial = .ok b)
    (hedge : ∀ e ∈ es, e.isEdge = false)
    (htold : Engine.Told s.scopes (Event.begin source :: es)) :
    ∃ parent, b.parent? = .ok parent ∧ IsEnclosing here s (Event.begin source :: es) parent.1 := by
  unfold IsEnclosing
  cases hfind : s.scopes.find? (·.reported) with
  | none =>
      have hbalanced : BlocksBalanced es := htold.balanced_of_find? hfind
      rw [List.foldlM_cons] at h
      obtain ⟨b₀, hbegin, hes⟩ := Success.of_bind h
      cases hbegin
      refine ⟨(0, .identity), ?_, rfl⟩
      unfold parent?
      rw [open?_of_balanced ?_ hes hedge hbalanced]
      · rfl
      · intro top htop
        rw [List.mem_singleton.mp htop]
        exact Nat.zero_lt_one
  | some scope =>
      obtain ⟨before, inside, hrow, hinside⟩ := htold.exists_of_find? hfind
      -- the start comes before the block
      obtain ⟨before', rfl⟩ : ∃ before', before = .begin source :: before' := by
        cases before with
        | nil => cases hrow
        | cons e before' => exact ⟨before', by rw [(List.cons.inj hrow).1]⟩
      have hes : es = before' ++ .beginScope scope.kind scope.ctm :: inside :=
        (List.cons.inj hrow).2
      rw [hrow, List.foldlM_append] at h
      obtain ⟨b₁, hbefore, h⟩ := Success.of_bind h
      rw [List.foldlM_cons] at h
      obtain ⟨b₂, hbegin, h⟩ := Success.of_bind h
      have hb₁ := (grows_foldlM inRange_initial hbefore).inRange inRange_initial
      have hadd := addition_of_step hb₁ hbegin
      have hb₂ := (hadd.grows hb₁).inRange hb₁
      have hopen := open?_of_balanced hb₂ h
        (fun e he => hedge e (by rw [hes]; simp [he])) hinside
      cases hadd with
      | opened kind ctm parent n hparent hg ho =>
          refine ⟨(b₁.graph.size, scope.ctm.start), ?_, _, inside, b₁, hrow, hinside, hbefore, rfl⟩
          unfold parent?
          rw [hopen, ho]
      | placed e he => cases he.1
      | nothing e he => cases he.1

/-- What the placement of an object adds, and what becomes of it. -/
theorem instanceAdded_of_placed {b b' b'' : SceneBuilder K} {parent : NodeId × Transform K}
    (hb : InRange b) (hparent : b.parent? = .ok parent) {o : ObjectDefinition K}
    {ctm : TransformSet K} (h : b.step here (.placed o ctm) = .ok b') {es : List (Event K)}
    (hes : es.foldlM (step here) b' = .ok b'') :
    InstanceAdded b b' b''.graph parent.1 o := by
  have hp : parent.1 < b.graph.size := hb parent (mem_of_parent? hparent)
  have hpos : 0 < b.graph.size := Nat.zero_lt_of_lt hp
  have hgrows := grows_foldlM (((addition_of_step hb h).grows hb).inRange hb) hes
  obtain ⟨hg, ho⟩ : b'.graph = (b.graph.adopt parent.1 [b.graph.size]).extend
      (instanceNode parent o ctm b.graph.size ::
        o.shapes.map (shapeNode (b.graph.size, .identity))) ∧ b'.open? = b.open? := by
    change b.placeObject o ctm = .ok b' at h
    rw [placeObject_eq hparent hp] at h
    cases h
    exact ⟨rfl, rfl⟩
  have hbase : (b.graph.adopt parent.1 [b.graph.size]).size = b.graph.size :=
    SceneGraph.size_adopt _ _ _
  have hsize : b'.graph.size = b.graph.size + 1 + o.shapes.length := by
    rw [hg, SceneGraph.size_extend, hbase, List.length_cons, List.length_map]
    omega
  have hold {id : NodeId} (hid : id < b.graph.size) :
      b'.graph.node? id = (b.graph.adopt parent.1 [b.graph.size]).node? id := by
    rw [hg, SceneGraph.node?_extend_left]
    rwa [hbase]
  -- what is added is neither open nor the root, so it is complete
  have hnew {j : Nat} (hj : b.graph.size + j < b'.graph.size) :
      b''.graph.node? (b.graph.size + j) = (instanceNode parent o ctm b.graph.size ::
        o.shapes.map (shapeNode (b.graph.size, .identity)))[j]? := by
    rw [hgrows.node? _ hj (by omega), hg, ← SceneGraph.node?_extend_right, hbase]
    intro top htop
    rw [ho] at htop
    exact Nat.ne_of_lt (Nat.lt_add_right j (hb top htop))
  refine ⟨hsize, ?_, ?_, hgrows.childrenOf parent.1 ?_,
    ⟨parent.2.inverse.mul ctm.start.matrix, ?_⟩, ?_⟩
  · intro id hid hne
    rw [hold hid, SceneGraph.node?_adopt_of_ne _ hne.symm]
  · rw [← SceneGraph.childrenOf_adopt hp]
    unfold SceneGraph.childrenOf
    rw [hold hp]
  · exact Nat.lt_of_lt_of_eq (Nat.lt_add_right _ (Nat.lt_succ_of_lt hp)) hsize.symm
  · exact hnew (j := 0) (by omega)
  · intro j st hst
    have hj : j < o.shapes.length := (List.getElem?_eq_some_iff.mp hst).1
    rw [Nat.add_assoc, hnew (by omega), Nat.add_comm 1 j, List.getElem?_cons_succ,
      List.getElem?_map, hst]
    rfl

end Nodes

end SceneBuilder

namespace Engine

/-! ## Parts of a run -/

section Parts

variable [Scalar K] {c : EngineContext} {dirs : DirectoryStack} {d : Directive}
  {before after : List Directive}

theorem reachable_started (c : EngineContext) (ds : List Directive) (dirs : DirectoryStack) :
    Reachable c (started (K := K) c ds dirs).state (started c ds dirs).events :=
  reachable_executeAll (Reachable.initial dirs).begun ds

/-- A run that is not rejected, up to one directive, with this one, and to its end. -/
theorem started_of_run
    (h : (run (K := K) c (before ++ d :: after) (.initial dirs)).rejection = none) :
    (executeAll (K := K) c (before ++ [d])
        { EngineState.initial dirs with begun := true }).rejection = none ∧
      (execute c d (started (K := K) c before dirs).state).rejection = none ∧
      (started (K := K) c (before ++ [d]) dirs).events = (started c before dirs).events ++
        (execute c d (started c before dirs).state).events ∧
      ∃ later, (run (K := K) c (before ++ d :: after) (.initial dirs)).events =
        (started c (before ++ [d]) dirs).events ++ later := by
  have hall := h
  rw [run_rejection, List.append_cons] at hall
  obtain ⟨hfirst, -⟩ := accepted_append_iff.mp hall
  obtain ⟨hbefore, hd⟩ := accepted_append_iff.mp hfirst
  rw [executeAll_singleton] at hd
  have hsplit : (started (K := K) c (before ++ d :: after) dirs).events =
      (started c (before ++ [d]) dirs).events ++
        (executeAll c after (started (K := K) c (before ++ [d]) dirs).state).events := by
    rw [List.append_cons]
    exact congrArg (Event.begin c.source :: ·) (events_append after hfirst)
  refine ⟨hfirst, hd, ?_, ?_⟩
  · have hevents := events_append [d] hbefore
    rw [executeAll_singleton] at hevents
    exact congrArg (Event.begin c.source :: ·) hevents
  · have hnone : (started (K := K) c (before ++ d :: after) dirs).rejection = none := by
      rw [List.append_cons]
      exact hall
    refine ⟨(executeAll c after (started (K := K) c (before ++ [d]) dirs).state).events ++
      (finish.run (started (K := K) c (before ++ d :: after) dirs).state).events, ?_⟩
    change ((started c (before ++ d :: after) dirs).andThen (Progress.ofAction finish)).events = _
    rw [Progress.andThen, hnone]
    dsimp only
    rw [hsplit, List.append_assoc]
    rfl

end Parts

/-! ## Instances in the scene of a run -/

section Instances

variable [ExactScalar K] {c : EngineContext} {dirs : DirectoryStack} {here : Location}

/-- A shape of an object, seen from where the object began. -/
theorem matrix_of_captures {base : TransformSet K} {d : Directive} {s : EngineState K}
    {st : ShapeStatement K} (h : Captures base d s st) :
    st.transform.start.matrix = base.start.inverse.mul s.ctm.start.matrix := by
  rw [h.transform]
  rfl

/-- What the directive `i` after the directives `before` has to do with the scene that a run
makes: it places the object of the last definition of its name. -/
structure CompleteInstance (c : EngineContext) (dirs : DirectoryStack) (here : Location)
    (before : List Directive) (i : Directive) (scene : Scene K)
    (earlier : List Directive) (first : Directive) (body : List Directive) (last : Directive)
    (between : List Directive) (sts : List (ShapeStatement K)) (b b' : SceneBuilder K)
    (p : NodeId) : Prop where
  definition : IsLastDefinition i.subject before earlier first body last between
  /-- The shapes of the object are those that are stated in the definition, in order. -/
  captures : List.Forall₂ (fun q st => Captures (started c earlier dirs).state.ctm q.1 q.2 st)
    (statedShapes c body (started c (earlier ++ [first]) dirs).state) sts
  sceneBefore : (started c before dirs).events.foldlM (SceneBuilder.step here) .initial = .ok b
  sceneAfter :
    (started c (before ++ [i]) dirs).events.foldlM (SceneBuilder.step here) .initial = .ok b'
  enclosing : SceneBuilder.IsEnclosing here (started (K := K) c before dirs).state
    (started c before dirs).events p
  added : SceneBuilder.InstanceAdded b b' scene.graph p ⟨i.subject, sts⟩
  world : scene.graph.worldMatrix b.graph.size =
    (started c before dirs).state.ctm.start.matrix
  /-- The inverse of the transform at the begin of the definition is one. -/
  sound : (started (K := K) c earlier dirs).state.ctm.start.IsSound
  shapes : ∀ (j : Nat) q,
    (statedShapes c body (started c (earlier ++ [first]) dirs).state)[j]? = some q →
      scene.graph.worldMatrix (b.graph.size + 1 + j) =
        (started c before dirs).state.ctm.start.matrix.mul
          ((started c earlier dirs).state.ctm.start.inverse.mul q.2.ctm.start.matrix)

/-- Every instance of an object that has been defined is complete and where it was placed. -/
theorem instance_complete {ds before after : List Directive} {i : Directive} {scene : Scene K}
    (hnone : (run (K := K) c ds (.initial dirs)).rejection = none)
    (hscene : Scene.ofEvents here (run c ds (.initial dirs)).events = .ok scene)
    (hds : ds = before ++ i :: after) (hi : i.name = .objectInstance)
    (hbegun : ∃ d ∈ before, beginsObject i.subject d = true) :
    ∃ earlier first body last between sts b b' p,
      CompleteInstance c dirs here before i scene earlier first body last between sts b b' p := by
  subst hds
  obtain ⟨hacc, hexec, hevents, later, hrun⟩ := started_of_run hnone
  obtain ⟨hbefore, -⟩ := accepted_append_iff.mp hacc
  have hstart : IsArranged { EngineState.initial (K := K) dirs with begun := true } := .nil
  have hall := (advances_executeAll rfl hstart (Stage.isSound_start dirs.depth) hbefore).tells
  -- the definition that the placement finds
  obtain ⟨earlier, first, body, last, between, hlast⟩ := exists_lastDefinition hacc hi hbegun
  obtain ⟨sts, hfound, hsts⟩ := object_of_lastDefinition hlast hbefore
  obtain ⟨-, hplaced⟩ := execute_instance hexec hi hall.begun hfound
  -- the scene before and after it
  obtain ⟨-, hsound⟩ := (reachable_run (K := K) c (before ++ i :: after) dirs).invariant
    (isSoundState_invariant c)
  rw [hplaced] at hevents
  rw [hrun, hevents, List.append_assoc, List.singleton_append] at hsound hscene
  obtain ⟨b, b', hb, hstep, hspec, hkeeps⟩ := SceneBuilder.worldMatrix_of_split hsound hscene
  have hb' : (started (K := K) c (before ++ [i]) dirs).events.foldlM (SceneBuilder.step here)
      .initial = .ok b' := by
    rw [hevents, List.foldlM_append, hb]
    change (b.step here _ >>= pure) = _
    rw [bind_pure]
    exact hstep
  obtain ⟨b'', hfold, rfl⟩ := Success.of_map hscene
  rw [List.append_cons, ← hevents, List.foldlM_append, hb'] at hfold
  -- where the node goes, and what becomes of it
  have hrange := (SceneBuilder.grows_foldlM SceneBuilder.inRange_initial hb).inRange
    SceneBuilder.inRange_initial
  have htold := (reachable_started (K := K) c before dirs).invariant (told_invariant c)
  obtain ⟨parent, hparent, henclosing⟩ := SceneBuilder.parent_of_told hb hall.inner htold
  have hadded := SceneBuilder.instanceAdded_of_placed hrange hparent hstep hfold
  obtain ⟨hstate, -⟩ := (reachable_started (K := K) c earlier dirs).invariant
    (isSoundState_invariant c)
  have hsize : b'.graph.size = b.graph.size + 1 + sts.length := hadded.size
  refine ⟨earlier, first, body, last, between, sts, b, b', parent.1,
    ⟨hlast, hsts, hb, hb', henclosing, hadded, ?_, hstate.ctm.1, ?_⟩⟩
  · have hnew : b.graph.size < b'.graph.size := by omega
    rw [hkeeps.worldMatrix hnew, hspec.world _ _ rfl]
  · intro j q hq
    obtain ⟨hj, rfl⟩ := List.getElem?_eq_some_iff.mp hq
    have hjs : j < sts.length := hsts.length_eq ▸ hj
    have hbelow : b.graph.size + 1 + j < b'.graph.size := by omega
    rw [hkeeps.worldMatrix hbelow, hspec.below _ _ rfl j hjs]
    exact congrArg _ (matrix_of_captures (hsts.get hj hjs))

end Instances

/-! ## An object that is defined twice -/

/-- An object with a sphere where it begins. -/
def sphereHere : List Directive :=
  [⟨.worldBegin, [], .empty, none⟩, objectStart, sphere, objectStop]

/-- The object is defined again in a block that is one step away, and in its definition the
sphere is moved by one more step in an inner block. -/
def sphereAside : List Directive :=
  [⟨.attributeBegin, [], .empty, none⟩, stepAside, objectStart,
   ⟨.transformBegin, [], .empty, none⟩, stepAside, sphere, ⟨.transformEnd, [], .empty, none⟩,
   objectStop]

/-- The placement of the object. -/
def objectPlacement : Directive := ⟨.objectInstance, [.text "o"], .empty, none⟩

/-- The object is defined twice and then placed. -/
def definedTwice : List Directive :=
  sphereHere ++ sphereAside ++ objectPlacement :: [⟨.attributeEnd, [], .empty, none⟩]

theorem run_definedTwice :
    (run (K := ℝ) ⟨.rooted [], [], none⟩ definedTwice (.initial .empty)).rejection = none ∧
    ∃ scene, Scene.ofEvents [] (run (K := ℝ) ⟨.rooted [], [], none⟩ definedTwice
      (.initial .empty)).events = .ok scene :=
  ⟨rfl, _, rfl⟩

theorem instance_complete_definedTwice :
    (run (K := ℝ) ⟨.rooted [], [], none⟩ definedTwice (.initial .empty)).rejection = none ∧
    ∃ scene : Scene ℝ,
      Scene.ofEvents [] (run ⟨.rooted [], [], none⟩ definedTwice (.initial .empty)).events =
        .ok scene ∧
      ∃ earlier first body last between sts b b' p,
        CompleteInstance ⟨.rooted [], [], none⟩ .empty [] (sphereHere ++ sphereAside)
          objectPlacement scene earlier first body last between sts b b' p := by
  obtain ⟨hnone, scene, hscene⟩ := run_definedTwice
  refine ⟨hnone, scene, hscene, instance_complete hnone hscene rfl rfl ?_⟩
  exact ⟨objectStart, by simp [sphereHere], by decide⟩

end Engine
end SceneReader
