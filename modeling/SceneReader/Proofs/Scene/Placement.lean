import SceneReader.Proofs.Success
import SceneReader.Proofs.Engine.TrueInverse
import SceneReader.Proofs.Scene.WorldMatrix
import SceneReader.Scene.Builder

/-!
# Where a scene puts its nodes

A node is added with a transform relative to its parent, computed from the inverse that the
parent's transform carries.  When these inverses are true, the product of the transforms
from the root down to the node is the transform that was told.

**Results.**
* `added_addChild`: one node more, where it was told to be.
* `step_spec`: what one event does to open nodes and where it puts new ones.
* `worldMatrix_of_split`: the same in the scene that all events make.
-/

namespace SceneReader

variable {K : Type}

/-- Where an event puts the node that it adds, and the shapes below that node. -/
def Event.placement? : Event K → Option (TransformSet K × List (ShapeStatement K))
  | .beginScope _ ctm => some (ctm, [])
  | .shape statement => some (statement.transform, [])
  | .placed definition ctm => some (ctm, definition.shapes)
  | _ => none

namespace SceneBuilder

variable [ExactScalar K]

open SceneGraph (Keeps)

/-- A node has the transform to the world that goes with it, and that one is sound. -/
def IsPlaced (g : SceneGraph K) (top : NodeId × Transform K) : Prop :=
  top.1 < g.size ∧ g.worldMatrix top.1 = top.2.matrix ∧ top.2.IsSound

/-- All open nodes are where they were told to be. -/
def AllPlaced (b : SceneBuilder K) : Prop := ∀ top ∈ b.open?, IsPlaced b.graph top

theorem IsPlaced.keeps {g h : SceneGraph K} {top : NodeId × Transform K} (ht : IsPlaced g top)
    (hk : Keeps g h) : IsPlaced h top := by
  obtain ⟨hlt, hworld, hsound⟩ := ht
  refine ⟨Nat.lt_of_lt_of_le hlt hk.size, ?_, hsound⟩
  rw [hk.worldMatrix hlt, hworld]

/-- Open nodes stay where they are when the graph grows. -/
theorem AllPlaced.keeps {b b' : SceneBuilder K} (hb : AllPlaced b) (hk : Keeps b.graph b'.graph)
    (hopen : ∀ top ∈ b'.open?, top ∈ b.open?) : AllPlaced b' :=
  fun top htop => (hb top (hopen top htop)).keeps hk

theorem isPlaced_of_parent? {b : SceneBuilder K} (hb : AllPlaced b)
    {top : NodeId × Transform K} (h : b.parent? = .ok top) : IsPlaced b.graph top := by
  unfold parent? at h
  split at h
  · cases h
  · rename_i top' rest hopen
    cases h
    exact hb top (by simp [hopen])

/-! ## One node more -/

/-- The second builder has one node more, and `m` is the transform of this node to the
world. -/
structure Added (b b' : SceneBuilder K) (m : Matrix4 K) : Prop where
  size : b'.graph.size = b.graph.size + 1
  keeps : Keeps b.graph b'.graph
  world : b'.graph.worldMatrix b.graph.size = m
  open? : b'.open? = b.open?

theorem Added.lt {b b' : SceneBuilder K} {m : Matrix4 K} (h : Added b b' m) :
    b.graph.size < b'.graph.size := by
  rw [h.size]
  exact Nat.lt_succ_self _

/-- A node below another one. -/
theorem added_addChild {b b' : SceneBuilder K} {name : String} {ctm : TransformSet K}
    {parent : NodeId × Transform K} {id : NodeId}
    (h : b.addChild name ctm parent = .ok (id, b')) :
    id = b.graph.size ∧ Added b b'
      ((b.graph.worldMatrix parent.1).mul (parent.2.inverse.mul ctm.start.matrix)) := by
  unfold addChild at h
  obtain ⟨⟨id₁, g⟩, hadd, h⟩ := Success.of_bind h
  cases h
  have hadd : b.graph.addNode name ((some parent.1).map Int.ofNat) = .ok (id, g) :=
    Success.of_mapError hadd
  obtain ⟨hid, hsize, hkeeps, hparent, -, hlt⟩ := SceneGraph.keeps_addNode hadd
  subst hid
  have hp := hlt parent.1 rfl
  refine ⟨rfl, ?_, hkeeps.attach (Nat.le_refl _) _, ?_, rfl⟩
  · rw [SceneGraph.size_attach, hsize]
  · dsimp only
    have hparent' : (g.attach b.graph.size
        (.transform (parent.2.inverse.mul ctm.start.matrix))).parentOf b.graph.size =
          some parent.1 := by
      rw [SceneGraph.parentOf_attach, hparent]
    have hnew : b.graph.size < g.size := by
      rw [hsize]
      exact Nat.lt_succ_self _
    rw [SceneGraph.worldMatrix_child hparent' hp,
      SceneGraph.localMatrix_attach_transform _ hnew,
      (hkeeps.attach (Nat.le_refl _) _).worldMatrix hp]

/-- A node below one that is where it was told to be. -/
theorem added_addChild_placed {b b' : SceneBuilder K} {name : String} {ctm : TransformSet K}
    {parent : NodeId × Transform K} {id : NodeId} (hp : IsPlaced b.graph parent)
    (h : b.addChild name ctm parent = .ok (id, b')) :
    id = b.graph.size ∧ Added b b' ctm.start.matrix := by
  obtain ⟨hid, hadded⟩ := added_addChild h
  obtain ⟨-, hworld, hsound⟩ := hp
  rw [hworld, hsound.mul_cancel] at hadded
  exact ⟨hid, hadded⟩

/-- Attaching components that are no transforms. -/
theorem keeps_attachAll (b : SceneBuilder K) (id : NodeId) (cs : List (Component K))
    (h : ∀ c ∈ cs, c.kind ≠ .transform) :
    Keeps b.graph (b.attachAll id cs).graph ∧
      (b.attachAll id cs).graph.size = b.graph.size := by
  unfold attachAll
  dsimp only
  generalize b.graph = g
  induction cs generalizing g with
  | nil => exact ⟨Keeps.refl g, rfl⟩
  | cons c cs ih =>
      obtain ⟨hk, hsize⟩ := ih (fun d hd => h d (List.mem_cons_of_mem _ hd)) (g.attach id c)
      refine ⟨(SceneGraph.keeps_attach g id (h c List.mem_cons_self)).trans hk, ?_⟩
      rw [List.foldl_cons, hsize, SceneGraph.size_attach]

theorem Added.attachAll {b b' : SceneBuilder K} {m : Matrix4 K} (ha : Added b b' m)
    (id : NodeId) {cs : List (Component K)} (h : ∀ c ∈ cs, c.kind ≠ .transform) :
    Added b (b'.attachAll id cs) m := by
  obtain ⟨hk, hsize⟩ := keeps_attachAll b' id cs h
  refine ⟨?_, ha.keeps.trans hk, ?_, ha.open?⟩
  · rw [hsize, ha.size]
  · rw [hk.worldMatrix ha.lt, ha.world]

theorem kind_shapeComponents (st : ShapeStatement K) (parent : Transform K) :
    ∀ c ∈ shapeComponents st parent, c.kind ≠ .transform := by
  intro c hc
  unfold shapeComponents at hc
  simp only [List.mem_append, List.mem_cons, List.not_mem_nil, or_false] at hc
  rcases hc with ((rfl | rfl) | hc) | hc
  · simp [Component.kind]
  · simp [Component.kind]
  · split at hc
    · rw [List.mem_singleton.mp hc]
      simp [Component.kind]
    · cases hc
  · split at hc
    · rw [List.mem_singleton.mp hc]
      simp [Component.kind]
    · cases hc

/-- The node of a shape. -/
theorem added_placeShape {b b' : SceneBuilder K} {parent : NodeId × Transform K}
    {st : ShapeStatement K} (h : placeShape parent b st = .ok b') :
    Added b b'
      ((b.graph.worldMatrix parent.1).mul (parent.2.inverse.mul st.transform.start.matrix)) := by
  unfold placeShape at h
  obtain ⟨⟨id, b₁⟩, hadd, h⟩ := Success.of_bind h
  cases h
  obtain ⟨-, hadded⟩ := added_addChild hadd
  exact hadded.attachAll id (kind_shapeComponents st parent.2)

/-- The nodes of shapes below one node, one after the other. -/
theorem placeShapes_spec {sts : List (ShapeStatement K)} {b b' : SceneBuilder K} {p : NodeId}
    (hp : p < b.graph.size) (h : sts.foldlM (placeShape (p, .identity)) b = .ok b') :
    b'.graph.size = b.graph.size + sts.length ∧ Keeps b.graph b'.graph ∧ b'.open? = b.open? ∧
      ∀ i (hi : i < sts.length), b'.graph.worldMatrix (b.graph.size + i) =
        (b.graph.worldMatrix p).mul sts[i].transform.start.matrix := by
  induction sts generalizing b with
  | nil =>
      cases h
      exact ⟨rfl, Keeps.refl _, rfl, fun i hi => absurd hi (Nat.not_lt_zero i)⟩
  | cons st sts ih =>
      rw [List.foldlM_cons] at h
      obtain ⟨b₁, hst, h⟩ := Success.of_bind h
      have hadded := added_placeShape hst
      have hp₁ : p < b₁.graph.size := Nat.lt_trans hp hadded.lt
      obtain ⟨hsize, hkeeps, hopen, hworld⟩ := ih hp₁ h
      refine ⟨?_, hadded.keeps.trans hkeeps, ?_, ?_⟩
      · rw [hsize, hadded.size, List.length_cons]
        omega
      · rw [hopen, hadded.open?]
      · intro i hi
        cases i with
        | zero =>
            have hid : (Transform.identity : Transform K).inverse = .identity := rfl
            rw [Nat.add_zero, hkeeps.worldMatrix hadded.lt, hadded.world, hid, Matrix4.identity_mul]
            rfl
        | succ j =>
            have hj := hworld j (Nat.lt_of_succ_lt_succ hi)
            rw [hadded.size, hadded.keeps.worldMatrix hp] at hj
            rw [show b.graph.size + (j + 1) = b.graph.size + 1 + j by omega, hj]
            rfl

/-! ## One event -/

/-- What an event does: open nodes stay where they were told to be, and so is what it
adds. -/
structure StepSpec (b b' : SceneBuilder K) (e : Event K) : Prop where
  placed : AllPlaced b'
  keeps : Keeps b.graph b'.graph
  size : ∀ ctm sts, e.placement? = some (ctm, sts) →
    b'.graph.size = b.graph.size + 1 + sts.length
  world : ∀ ctm sts, e.placement? = some (ctm, sts) →
    b'.graph.worldMatrix b.graph.size = ctm.start.matrix
  below : ∀ ctm sts, e.placement? = some (ctm, sts) → ∀ i (hi : i < sts.length),
    b'.graph.worldMatrix (b.graph.size + 1 + i) =
      ctm.start.matrix.mul sts[i].transform.start.matrix

/-- An event that places nothing. -/
theorem StepSpec.nowhere {b b' : SceneBuilder K} {e : Event K} (h : AllPlaced b')
    (hk : Keeps b.graph b'.graph) (he : e.placement? = none) : StepSpec b b' e := by
  refine ⟨h, hk, ?_, ?_, ?_⟩ <;>
    · intro ctm sts hplace
      rw [he] at hplace
      cases hplace

/-- An event that adds one node. -/
theorem StepSpec.one {b b' b'' : SceneBuilder K} {e : Event K} {ctm : TransformSet K}
    (h : AllPlaced b'') (ha : Added b b' ctm.start.matrix) (hg : b''.graph = b'.graph)
    (he : e.placement? = some (ctm, [])) : StepSpec b b'' e := by
  refine ⟨h, ?_, ?_, ?_, ?_⟩
  · rw [hg]
    exact ha.keeps
  · intro ctm' sts hplace
    rw [he] at hplace
    cases hplace
    rw [hg, ha.size]
    rfl
  · intro ctm' sts hplace
    rw [he] at hplace
    cases hplace
    rw [hg, ha.world]
  · intro ctm' sts hplace i hi
    rw [he] at hplace
    cases hplace
    exact absurd hi (Nat.not_lt_zero i)

theorem keeps_placeLight {b b' : SceneBuilder K} {light : Resource K} {ctm : TransformSet K}
    (h : b.placeLight light ctm = .ok b') :
    Keeps b.graph b'.graph ∧ b'.open? = b.open? := by
  unfold placeLight at h
  obtain ⟨parent, -, h⟩ := Success.of_bind h
  obtain ⟨⟨id, b₁⟩, hadd, h⟩ := Success.of_bind h
  cases h
  obtain ⟨hid, hadded⟩ := added_addChild hadd
  have hlight : ∀ c ∈ [Component.light (K := K) light.id], c.kind ≠ .transform := by
    simp [Component.kind]
  split
  · exact ⟨hadded.keeps.trans (keeps_attachAll b₁ id _ hlight).1, hadded.open?⟩
  · refine ⟨Keeps.trans ?_ (keeps_attachAll _ id _ hlight).1, hadded.open?⟩
    exact hadded.keeps.attach (Nat.le_of_eq hid.symm) _

theorem stepSpec_placeObject {b b' : SceneBuilder K} {o : ObjectDefinition K}
    {ctm : TransformSet K} (hb : AllPlaced b) (h : b.placeObject o ctm = .ok b') :
    StepSpec b b' (.placed o ctm) := by
  unfold placeObject at h
  obtain ⟨parent, hparent, h⟩ := Success.of_bind h
  obtain ⟨⟨id, b₁⟩, hadd, h⟩ := Success.of_bind h
  obtain ⟨hid, hadded⟩ := added_addChild_placed (isPlaced_of_parent? hb hparent) hadd
  subst hid
  have hkind : ∀ c ∈ [Component.placed (K := K) o.name], c.kind ≠ .transform := by
    simp [Component.kind]
  have hadded := hadded.attachAll b.graph.size hkind
  obtain ⟨hsize, hkeeps, hopen, hworld⟩ := placeShapes_spec hadded.lt h
  have hk := hadded.keeps.trans hkeeps
  refine ⟨?_, hk, ?_, ?_, ?_⟩
  · apply hb.keeps hk
    rw [hopen, hadded.open?]
    exact fun _ htop => htop
  · intro ctm' sts hplace
    cases hplace
    rw [hsize, hadded.size]
  · intro ctm' sts hplace
    cases hplace
    rw [hkeeps.worldMatrix hadded.lt, hadded.world]
  · intro ctm' sts hplace i hi
    cases hplace
    have hi := hworld i hi
    rw [hadded.size, hadded.world] at hi
    exact hi

theorem kind_rootComponents (here : Location) (b : SceneBuilder K) :
    ∀ c ∈ b.rootComponents here, c.kind ≠ .transform := by
  intro c hc
  unfold rootComponents at hc
  simp only [List.mem_append, List.mem_cons, List.mem_map, List.not_mem_nil, or_false] at hc
  rcases hc with (rfl | rfl | ⟨k, -, rfl⟩) | rfl
  · split <;> simp [Component.kind]
  · simp [Component.kind]
  · simp [Component.kind]
  · simp [Component.kind]

/-- What one event does, when the transforms that it tells are sound. -/
theorem step_spec {here : Location} {b b' : SceneBuilder K} {e : Event K}
    (hb : AllPlaced b) (hsound : ∀ t ∈ e.told, t.IsSound) (h : b.step here e = .ok b') :
    StepSpec b b' e := by
  have same (hk : Keeps b.graph b'.graph) (ho : b'.open? = b.open?) : AllPlaced b' := by
    apply hb.keeps hk
    rw [ho]
    exact fun _ htop => htop
  cases e with
  | begin source =>
      obtain ⟨⟨id, g⟩, hadd, h⟩ := Success.of_bind h
      cases h
      have hadd : b.graph.addNode "Scene" (Option.map Int.ofNat none) = .ok (id, g) :=
        Success.of_mapError hadd
      obtain ⟨hid, hsize, hkeeps, hparent, hlocal, -⟩ := SceneGraph.keeps_addNode hadd
      refine StepSpec.nowhere ?_ hkeeps rfl
      intro top htop
      rw [List.mem_singleton.mp htop]
      refine ⟨?_, ?_, Transform.isSound_identity⟩
      · rw [hsize, hid]
        exact Nat.lt_succ_self _
      · rw [SceneGraph.worldMatrix_alone hparent, hlocal]
        rfl
  | setting kind s =>
      cases h
      exact .nowhere (same (Keeps.refl _) rfl) (Keeps.refl _) rfl
  | camera s t =>
      cases h
      exact .nowhere (same (Keeps.refl _) rfl) (Keeps.refl _) rfl
  | worldBegin o =>
      cases h
      exact .nowhere (same (Keeps.refl _) rfl) (Keeps.refl _) rfl
  | beginScope kind ctm =>
      obtain ⟨parent, hparent, h⟩ := Success.of_bind h
      obtain ⟨⟨id, b₁⟩, hadd, h⟩ := Success.of_bind h
      cases h
      obtain ⟨hid, hadded⟩ := added_addChild_placed (isPlaced_of_parent? hb hparent) hadd
      refine StepSpec.one ?_ hadded rfl rfl
      intro top htop
      rcases List.mem_cons.mp htop with rfl | htop
      · refine ⟨?_, ?_, (hsound ctm (List.mem_singleton.mpr rfl)).1⟩
        · change id < b₁.graph.size
          rw [hadded.size, hid]
          exact Nat.lt_succ_self _
        · change b₁.graph.worldMatrix id = _
          rw [hid, hadded.world]
      · rw [hadded.open?] at htop
        exact (hb top htop).keeps hadded.keeps
  | endScope kind =>
      cases h
      refine .nowhere ?_ (Keeps.refl _) rfl
      intro top htop
      exact hb top (List.mem_of_mem_tail htop)
  | declare r =>
      obtain ⟨resources, -, h⟩ := Success.of_bind h
      cases h
      exact .nowhere (same (Keeps.refl _) rfl) (Keeps.refl _) rfl
  | shape st =>
      obtain ⟨parent, hparent, h⟩ := Success.of_bind h
      obtain ⟨-, hworld, hps⟩ := isPlaced_of_parent? hb hparent
      have hadded := added_placeShape h
      rw [hworld, hps.mul_cancel] at hadded
      exact .one (same hadded.keeps hadded.open?) hadded rfl rfl
  | light r ctm =>
      obtain ⟨hk, hopen⟩ := keeps_placeLight h
      exact .nowhere (same hk hopen) hk rfl
  | objectBegin name =>
      cases h
      exact .nowhere (same (Keeps.refl _) rfl) (Keeps.refl _) rfl
  | objectEnd o =>
      cases h
      exact .nowhere (same (Keeps.refl _) rfl) (Keeps.refl _) rfl
  | placed o ctm => exact stepSpec_placeObject hb h
  | worldEnd =>
      cases h
      exact .nowhere (same (Keeps.refl _) rfl) (Keeps.refl _) rfl
  | finish =>
      cases h
      have hk := (keeps_attachAll b 0 _ (kind_rootComponents here b)).1
      exact .nowhere (same hk rfl) hk rfl

/-! ## All events -/

theorem allPlaced_initial : AllPlaced (initial : SceneBuilder K) :=
  fun _ htop => absurd htop List.not_mem_nil

theorem foldlM_spec {here : Location} {es : List (Event K)} {b b' : SceneBuilder K}
    (hb : AllPlaced b) (hsound : Engine.AreSoundEvents es)
    (h : es.foldlM (step here) b = .ok b') : AllPlaced b' ∧ Keeps b.graph b'.graph := by
  induction es generalizing b with
  | nil =>
      cases h
      exact ⟨hb, Keeps.refl _⟩
  | cons e es ih =>
      rw [List.foldlM_cons] at h
      obtain ⟨b₁, he, h⟩ := Success.of_bind h
      have hspec := step_spec hb (hsound e List.mem_cons_self) he
      obtain ⟨hb', hk⟩ := ih hspec.placed (fun e' he' => hsound e' (List.mem_cons_of_mem _ he')) h
      exact ⟨hb', hspec.keeps.trans hk⟩

/-- Where the nodes of an event are in the scene that all events make. -/
theorem worldMatrix_of_split {here : Location} {es₁ es₂ : List (Event K)} {e : Event K}
    {scene : Scene K} (hsound : Engine.AreSoundEvents (es₁ ++ e :: es₂))
    (h : Scene.ofEvents here (es₁ ++ e :: es₂) = .ok scene) :
    ∃ b b', es₁.foldlM (step here) .initial = .ok b ∧ b.step here e = .ok b' ∧
      StepSpec b b' e ∧ Keeps b'.graph scene.graph := by
  obtain ⟨b'', hfold, rfl⟩ := Success.of_map h
  rw [List.foldlM_append] at hfold
  obtain ⟨b, h₁, hfold⟩ := Success.of_bind hfold
  rw [List.foldlM_cons] at hfold
  obtain ⟨b', he, h₂⟩ := Success.of_bind hfold
  obtain ⟨hb, -⟩ := foldlM_spec allPlaced_initial
    (fun e' he' => hsound e' (List.mem_append_left _ he')) h₁
  have hspec := step_spec hb (hsound e (by simp)) he
  obtain ⟨-, hk⟩ := foldlM_spec hspec.placed
    (fun e' he' => hsound e' (List.mem_append_right _ (List.mem_cons_of_mem _ he'))) h₂
  exact ⟨b, b', h₁, he, hspec, hk⟩

end SceneBuilder
end SceneReader
