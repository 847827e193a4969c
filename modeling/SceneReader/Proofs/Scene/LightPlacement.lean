import SceneReader.Proofs.Param.Names
import SceneReader.Proofs.Scene.Motion
import SceneReader.Proofs.Transform.DirectionFrame

/-!
# Where lights are put

A light may say in its parameters where it stands and what it looks at.  This becomes a part of the
transform of its node, and the parameters are taken from the light.  A light that stands where it
looks has no direction: its node stays at the current transform, and it keeps its parameters.

A place that is not given with three numbers counts as missing.  The parameter that it stands in is
taken from the light all the same, and what it says is lost.

**Results.**
* `folds_lightPlacement?`: what a light folds into the transform of its node.
* `entries_withoutParams`: parameters that are not taken stay as they were.
* `losesNothing_iff`: nothing is lost, if all that is taken is given with three numbers.
* `placeLight_spec`: where the node of a light is, and which parameters are left.
* `light_losesNothing_iff`: a light in the scene that events make.
-/

namespace SceneReader

open SceneBuilder (pointOr lightPlacement? withoutParams)

/-! ## What is folded -/

/-- The point of a name among parameters: what three numbers say, and the other point without
them. -/
inductive IsPoint {K : Type} [Scalar K] (params : ParamMap) (name : String) (fallback : Vec3 K) :
    Vec3 K → Prop
  | given {x y z : Float} (h : params.floats name = [x, y, z]) :
      IsPoint params name fallback ⟨Scalar.ofFloat x, Scalar.ofFloat y, Scalar.ofFloat z⟩
  | missing (h : (params.floats name).length ≠ 3) : IsPoint params name fallback fallback

theorem isPoint_pointOr {K : Type} [Scalar K] (params : ParamMap) (name : String)
    (fallback : Vec3 K) : IsPoint params name fallback (pointOr params name fallback) := by
  unfold pointOr
  split
  · rename_i x y z h
    obtain ⟨a, as, hfloats, rfl, has⟩ := List.map_eq_cons_iff.mp h
    obtain ⟨b, bs, rfl, rfl, hbs⟩ := List.map_eq_cons_iff.mp has
    obtain ⟨c, cs, rfl, rfl, hcs⟩ := List.map_eq_cons_iff.mp hbs
    obtain rfl := List.map_eq_nil_iff.mp hcs
    exact .given hfloats
  · rename_i h
    refine .missing fun hlength => ?_
    obtain ⟨x, y, z, hfloats⟩ := List.length_eq_three.mp hlength
    exact h _ _ _ (by rw [hfloats]; rfl)

/-- Where a light looks that does not say it. -/
def ahead {K : Type} [Scalar K] : Vec3 K := ⟨0, 0, 1⟩

variable {K : Type} [ExactScalar K]

/-- What a light folds into the transform of its node, and the parameters that it takes for this:
a point light is shifted, and a spot light or a distant light is shifted and turned, unless
it has no direction. -/
inductive Folds (light : Resource K) : Matrix4 K → List String → Prop
  | point {origin : Vec3 K} (htype : light.type = "point")
      (horigin : IsPoint light.params "from" .zero origin) :
      Folds light (Frame.shift origin) ["from"]
  | directed {origin goal : Vec3 K} {frame : Matrix4 K}
      (htype : light.type = "spot" ∨ light.type = "distant")
      (horigin : IsPoint light.params "from" .zero origin)
      (hgoal : IsPoint light.params "to" ahead goal)
      (hlong : Frame.isShort (goal.sub origin).length = false)
      (hframe : Frame.IsFrameAlong frame (goal.sub origin)) :
      Folds light ((Frame.shift origin).mul frame) ["from", "to"]
  | undirected {origin goal : Vec3 K} (htype : light.type = "spot" ∨ light.type = "distant")
      (horigin : IsPoint light.params "from" .zero origin)
      (hgoal : IsPoint light.params "to" ahead goal)
      (hshort : Frame.isShort (goal.sub origin).length = true) : Folds light .identity []
  | other (htype : light.type ≠ "point" ∧ light.type ≠ "spot" ∧ light.type ≠ "distant") :
      Folds light .identity []

/-- The transform that a light folds. -/
def folded (light : Resource K) : Matrix4 K :=
  ((lightPlacement? light).map (·.1)).getD .identity

/-- The parameters that a light takes. -/
def taken (light : Resource K) : List String :=
  ((lightPlacement? light).map (·.2)).getD []

/-- What a light folds into the transform of its node. -/
theorem folds_lightPlacement? (light : Resource K) : Folds light (folded light) (taken light) := by
  have horigin := isPoint_pointOr (K := K) light.params "from" .zero
  have hgoal := isPoint_pointOr (K := K) light.params "to" ahead
  unfold folded taken lightPlacement?
  dsimp only
  split
  · rename_i htype
    exact .point htype horigin
  · rename_i hpoint
    split
    · rename_i htype
      split
      · rename_i frame hframe
        exact .directed htype horigin hgoal ((Frame.exists_frame_iff _).mp ⟨frame, hframe⟩)
          (Frame.isFrameAlong_of_direction hframe)
      · rename_i e hframe
        refine .undirected htype horigin hgoal (Bool.eq_true_of_not_eq_false fun hlong => ?_)
        obtain ⟨frame, hok⟩ := (Frame.exists_frame_iff _).mpr hlong
        cases hframe.symm.trans hok
    · rename_i htype
      exact .other ⟨hpoint, not_or.mp htype⟩

/-- A light takes where it stands and what it looks at, and nothing else. -/
theorem taken_subset (light : Resource K) : taken light ⊆ ["from", "to"] := by
  have hfolds := folds_lightPlacement? light
  generalize taken light = names at hfolds ⊢
  generalize folded light = m at hfolds
  cases hfolds <;> simp

/-! ## What is left -/

/-- Parameters that are not taken stay as they were, in order. -/
theorem entries_withoutParams {m : ParamMap} (hm : m.names.Nodup) {names : List String}
    (hnames : ∀ name ∈ names, ParamMap.nameOf? name = some name) :
    (withoutParams m names).entries = m.entries.filter fun p => decide (p.name ∉ names) := by
  induction names generalizing m with
  | nil => simp [withoutParams]
  | cons name names ih =>
      obtain ⟨hname, hrest⟩ := List.forall_mem_cons.mp hnames
      have hremove : (m.remove name).2.entries = m.entries.filter fun p => p.name != name := by
        rw [ParamMap.remove, hname]
        exact ParamMap.eraseP_eq_filter hm name
      have hfirst : (m.remove name).2.names.Nodup := by
        unfold ParamMap.names
        rw [hremove]
        exact hm.sublist (List.filter_sublist.map _)
      rw [withoutParams, List.foldl_cons]
      change (withoutParams (m.remove name).2 names).entries = _
      rw [ih hfirst hrest, hremove, List.filter_filter]
      refine List.filter_congr fun p _ => ?_
      rw [Bool.eq_iff_iff]
      simp [and_comm]

/-- The parameters that are left to a light. -/
def keptParams (light : Resource K) : ParamMap := withoutParams light.params (taken light)

/-- The light takes the parameter, and what it says is folded, since it says three numbers. -/
def Uses (light : Resource K) (name : String) : Prop :=
  name ∈ taken light ∧ (light.params.floats name).length = 3

/-- Exactly those parameters are gone whose values were folded, and all others are there. -/
structure LosesNothing (light : Resource K) : Prop where
  removed : ∀ name, name ∈ light.params.names ∧ name ∉ (keptParams light).names ↔ Uses light name
  kept : ∀ p ∈ light.params.entries, ¬ Uses light p.name → p ∈ (keptParams light).entries

theorem nameOf?_of_mem_taken {light : Resource K} {name : String} (h : name ∈ taken light) :
    ParamMap.nameOf? name = some name := by
  rcases List.mem_pair.mp (taken_subset light h) with rfl | rfl <;> decide +kernel

theorem mem_names_of_uses {light : Resource K} {name : String} (h : Uses light name) :
    name ∈ light.params.names := by
  obtain ⟨htaken, hlength⟩ := h
  have hget : light.params.get? name ≠ none := by
    intro hnone
    rw [ParamMap.floats, hnone] at hlength
    cases hlength
  rw [ParamMap.get?, ParamMap.entry?, nameOf?_of_mem_taken htaken, ne_eq, Option.map_eq_none_iff,
    Option.bind_some] at hget
  obtain ⟨p, hp⟩ := Option.ne_none_iff_exists'.mp hget
  rw [← ParamMap.name_of_lookup? hp]
  exact List.mem_map_of_mem (List.mem_of_find?_eq_some hp)

theorem mem_keptParams_iff {light : Resource K} (hnames : light.params.names.Nodup) {p : Param} :
    p ∈ (keptParams light).entries ↔ p ∈ light.params.entries ∧ p.name ∉ taken light := by
  rw [keptParams, entries_withoutParams hnames fun name => nameOf?_of_mem_taken, List.mem_filter,
    decide_eq_true_eq]

/-- A light loses nothing exactly if all that it takes is given with three numbers. -/
theorem losesNothing_iff {light : Resource K} (hnames : light.params.names.Nodup) :
    LosesNothing light ↔
      ∀ name ∈ taken light, name ∈ light.params.names → (light.params.floats name).length = 3 := by
  have hkept (name : String) : name ∈ (keptParams light).names ↔
      name ∈ light.params.names ∧ name ∉ taken light := by
    simp only [ParamMap.names, List.mem_map, mem_keptParams_iff hnames]
    constructor
    · rintro ⟨p, ⟨hp, htaken⟩, rfl⟩
      exact ⟨⟨p, hp, rfl⟩, htaken⟩
    · rintro ⟨⟨p, hp, rfl⟩, htaken⟩
      exact ⟨p, ⟨hp, htaken⟩, rfl⟩
  constructor
  · rintro ⟨hremoved, -⟩ name htaken hname
    exact ((hremoved name).mp ⟨hname, fun h => ((hkept name).mp h).2 htaken⟩).2
  · intro hgiven
    constructor
    · intro name
      constructor
      · rintro ⟨hname, hgone⟩
        have htaken : name ∈ taken light := by
          by_contra hnot
          exact hgone ((hkept name).mpr ⟨hname, hnot⟩)
        exact ⟨htaken, hgiven name htaken hname⟩
      · intro huses
        exact ⟨mem_names_of_uses huses, fun h => ((hkept name).mp h).2 huses.1⟩
    · intro p hp hunused
      refine (mem_keptParams_iff hnames).mpr ⟨hp, fun htaken => hunused ⟨htaken, ?_⟩⟩
      exact hgiven p.name htaken (List.mem_map_of_mem hp)

/-! ## The node of a light -/

namespace SceneBuilder

open SceneGraph (Keeps)

variable {b b' : SceneBuilder K} {m : Matrix4 K}

/-- The last node is moved inside of its place. -/
theorem Added.moved (ha : Added b b' m) (x : Matrix4 K) :
    let g := b'.graph.attach b.graph.size
      (.transform ((b'.graph.localMatrix b.graph.size).mul x))
    g.size = b.graph.size + 1 ∧ Keeps b.graph g ∧ g.worldMatrix b.graph.size = m.mul x := by
  intro g
  have hkeeps : Keeps b.graph g := ha.keeps.attach (Nat.le_refl _) _
  refine ⟨(SceneGraph.size_attach _ _ _).trans ha.size, hkeeps, ?_⟩
  have hlocal : g.localMatrix b.graph.size = (b'.graph.localMatrix b.graph.size).mul x :=
    SceneGraph.localMatrix_attach_transform _ ha.lt _
  have hparent : g.parentOf b.graph.size = b'.graph.parentOf b.graph.size :=
    SceneGraph.parentOf_attach _ _ _ _
  rw [← ha.world, SceneGraph.worldMatrix, SceneGraph.worldMatrix, SceneGraph.outward_unfold,
    SceneGraph.outward_unfold b'.graph, hparent, hlocal, Matrix4.mul_identity,
    Matrix4.mul_identity]
  cases b'.graph.parentOf b.graph.size with
  | none => rfl
  | some p =>
      dsimp only
      split
      -- Nodes above are as they were, and so the new factor stands last.
      · rename_i hp
        rw [SceneGraph.outward_eq, SceneGraph.outward_eq, hkeeps.worldMatrix hp,
          ha.keeps.worldMatrix hp, Matrix4.mul_assoc]
      · rfl

/-- Where the node of a light is, and which parameters are left. -/
theorem placeLight_spec {light : Resource K} {ctm : TransformSet K} (hb : AllPlaced b)
    (h : b.placeLight light ctm = .ok b') :
    b'.graph.size = b.graph.size + 1 ∧
      b'.graph.worldMatrix b.graph.size = ctm.start.matrix.mul (folded light) ∧
      b'.resources = b.resources.adjustLight light.id (withoutParams · (taken light)) := by
  unfold placeLight at h
  obtain ⟨parent, hparent, h⟩ := Success.of_bind h
  obtain ⟨⟨id, b₁⟩, hadd, h⟩ := Success.of_bind h
  have hresources : b₁.resources = b.resources := by
    obtain ⟨⟨id₁, g⟩, -, hsame⟩ := Success.of_bind hadd
    cases hsame
    rfl
  obtain ⟨rfl, hadded⟩ := added_addChild_placed (isPlaced_of_parent? hb hparent) hadd
  have hlight : ∀ c ∈ [Component.light (K := K) light.id], c.kind ≠ .transform := by
    simp [Component.kind]
  cases h
  unfold folded taken
  cases lightPlacement? light with
  | none =>
      have hdone := hadded.attachAll b.graph.size hlight
      refine ⟨hdone.size, ?_, ?_⟩
      · rw [hdone.world, Option.map_none, Option.getD_none, Matrix4.mul_identity]
      · exact hresources.trans (adjustLight_same b.resources light.id).symm
  | some placement =>
      obtain ⟨hsize, -, hworld⟩ := hadded.moved placement.1
      let b₂ : SceneBuilder K := { b₁ with
        graph := b₁.graph.attach b.graph.size
          (.transform ((b₁.graph.localMatrix b.graph.size).mul placement.1))
        resources := b₁.resources.adjustLight light.id (withoutParams · placement.2) }
      obtain ⟨hkeeps, hsame⟩ := keeps_attachAll b₂ b.graph.size _ hlight
      have hlt : b.graph.size < b₂.graph.size := by
        rw [hsize]
        exact Nat.lt_succ_self _
      refine ⟨hsame.trans hsize, (hkeeps.worldMatrix hlt).trans hworld, ?_⟩
      exact congrArg (ResourceTable.adjustLight · light.id (withoutParams · placement.2)) hresources

end SceneBuilder

/-! ## The resource of a light -/

namespace ResourceTable

omit [ExactScalar K]

variable {t t' : ResourceTable K} {id id' : ResourceId} {f : ParamMap → ParamMap}
  {r light : Resource K}

/-- The light of an identity. -/
def lightOf? (t : ResourceTable K) (id : ResourceId) : Option (Resource K) :=
  t.declared.find? fun r => decide (r.kind = .light ∧ r.id = id)

theorem lightOf?_adjustLight (t : ResourceTable K) (id id' : ResourceId)
    (f : ParamMap → ParamMap) : (t.adjustLight id f).lightOf? id' =
      (t.lightOf? id').map fun r => if id' = id then { r with params := f r.params } else r := by
  unfold lightOf? adjustLight
  dsimp only
  rw [List.find?_map]
  have hsame : ((fun r : Resource K => decide (r.kind = .light ∧ r.id = id')) ∘ fun r =>
      if r.kind = .light ∧ r.id = id then { r with params := f r.params } else r) =
        fun r => decide (r.kind = .light ∧ r.id = id') := by
    funext r
    rw [Function.comp_apply]
    split <;> rfl
  rw [hsame]
  refine Option.map_congr fun r hr => ?_
  have hr : r.kind = .light ∧ r.id = id' := by simpa using List.find?_some hr
  simp only [hr, true_and]

theorem lightOf?_add (h : t.add r = .ok t') (hlight : t.lightOf? id = some light) :
    t'.lightOf? id = some light := by
  unfold lightOf? at hlight ⊢
  rw [SceneBuilder.bare_add h, List.find?_append, hlight]
  rfl

end ResourceTable

namespace SceneBuilder

variable {here : Location} {b b' : SceneBuilder K} {e : Event K} {es es₁ es₂ : List (Event K)}
  {id : ResourceId} {light : Resource K} {ctm : TransformSet K} {scene : Scene K}

/-- A light stays as it is, if no event puts it anywhere. -/
theorem lightOf?_step (hb : InRange b) (h : b.step here e = .ok b')
    (hother : ∀ r ctm, e = .light r ctm → r.id ≠ id)
    (hlight : b.resources.lightOf? id = some light) :
    b'.resources.lightOf? id = some light := by
  have range {parent : NodeId × Transform K} (hparent : b.parent? = .ok parent) :
      parent.1 < b.graph.size := hb parent (mem_of_parent? hparent)
  cases e with
  | beginScope kind ctm =>
      obtain ⟨parent, hparent, h⟩ := Success.of_bind h
      rw [addChild_eq (range hparent)] at h
      cases h
      exact hlight
  | shape st =>
      obtain ⟨parent, hparent, h⟩ := Success.of_bind h
      rw [placeShape_eq (range hparent)] at h
      cases h
      exact hlight
  | light r ctm =>
      obtain ⟨parent, hparent, -⟩ := Success.of_bind h
      obtain ⟨m, f, hplace⟩ := placeLight_eq hparent (range hparent) r ctm
      cases hplace.symm.trans h
      rw [ResourceTable.lightOf?_adjustLight, hlight, Option.map_some,
        if_neg (hother r ctm rfl).symm]
  | placed o ctm =>
      obtain ⟨parent, hparent, -⟩ := Success.of_bind h
      cases (placeObject_eq hparent (range hparent) o ctm).symm.trans h
      exact hlight
  | declare r =>
      obtain ⟨resources, hadd, h⟩ := Success.of_bind h
      cases h
      exact ResourceTable.lightOf?_add (Success.of_mapError hadd) hlight
  | _ =>
      cases h
      exact hlight

theorem lightOf?_foldlM (hb : InRange b) (h : es.foldlM (step here) b = .ok b')
    (hother : ∀ r ctm, .light r ctm ∈ es → r.id ≠ id)
    (hlight : b.resources.lightOf? id = some light) :
    b'.resources.lightOf? id = some light := by
  induction es generalizing b with
  | nil =>
      cases h
      exact hlight
  | cons e es ih =>
      rw [List.foldlM_cons] at h
      obtain ⟨b₁, he, h⟩ := Success.of_bind h
      refine ih (((addition_of_step hb he).grows hb).inRange hb) h ?_ ?_
      · exact fun r ctm hmem => hother r ctm (List.mem_cons_of_mem e hmem)
      · refine lightOf?_step hb he (fun r ctm heq => ?_) hlight
        exact hother r ctm (heq ▸ List.mem_cons_self)

/-- A light in the scene that events make: where its node is, and the parameters that are left to it
until it is put elsewhere. -/
theorem light_of_split (hsound : Engine.AreSoundEvents (es₁ ++ .light light ctm :: es₂))
    (h : Scene.ofEvents here (es₁ ++ .light light ctm :: es₂) = .ok scene) :
    ∃ b, es₁.foldlM (step here) .initial = .ok b ∧
      scene.graph.contents[b.graph.size]? = some [.light light.id] ∧
      scene.graph.worldMatrix b.graph.size = ctm.start.matrix.mul (folded light) ∧
      (b.resources.lightOf? light.id = some light →
        (∀ r ctm, .light r ctm ∈ es₂ → r.id ≠ light.id) →
        scene.resources.lightOf? light.id = some { light with params := keptParams light }) := by
  have hcontents := (Scene.contents_ofEvents h).1
  obtain ⟨b'', hfold, rfl⟩ := Success.of_map h
  rw [List.foldlM_append] at hfold
  obtain ⟨b, hb, hfold⟩ := Success.of_bind hfold
  rw [List.foldlM_cons] at hfold
  obtain ⟨b', hstep, hrest⟩ := Success.of_bind hfold
  obtain ⟨hall, -, hkeeps⟩ := spec_of_split hsound hb hstep hrest
  obtain ⟨hsize, hworld, hresources⟩ := placeLight_spec hall hstep
  have hnew : b.graph.size < b'.graph.size := by omega
  refine ⟨b, hb, ?_, (hkeeps.worldMatrix hnew).trans hworld, fun hlight hlater => ?_⟩
  · rw [hcontents, List.flatMap_append, size_of_foldlM hb,
      List.getElem?_append_right (Nat.le_refl _), Nat.sub_self]
    rfl
  · have hrange := (grows_foldlM inRange_initial hb).inRange inRange_initial
    have hrange' := ((addition_of_step hrange hstep).grows hrange).inRange hrange
    refine lightOf?_foldlM hrange' hrest hlater ?_
    rw [hresources, ResourceTable.lightOf?_adjustLight, hlight, Option.map_some, if_pos rfl]
    rfl

/-- In the scene that events make, the node of a light is at the current transform, moved on by what
the light folds: a shift to where it stands, and a frame along its direction, if it has one.  The
light has the parameters that are left to it.  Nothing of it is lost exactly if all parameters
that it takes are given with three numbers. -/
theorem light_losesNothing_iff (hsound : Engine.AreSoundEvents (es₁ ++ .light light ctm :: es₂))
    (h : Scene.ofEvents here (es₁ ++ .light light ctm :: es₂) = .ok scene)
    (hnames : light.params.names.Nodup) :
    ∃ b placed names, es₁.foldlM (step here) .initial = .ok b ∧ Folds light placed names ∧
      scene.graph.contents[b.graph.size]? = some [.light light.id] ∧
      scene.graph.worldMatrix b.graph.size = ctm.start.matrix.mul placed ∧
      (b.resources.lightOf? light.id = some light →
        (∀ r ctm, .light r ctm ∈ es₂ → r.id ≠ light.id) →
        scene.resources.lightOf? light.id = some { light with params := keptParams light }) ∧
      (keptParams light).entries =
        light.params.entries.filter (fun p => decide (p.name ∉ names)) ∧
      (LosesNothing light ↔
        ∀ name ∈ names, name ∈ light.params.names → (light.params.floats name).length = 3) := by
  obtain ⟨b, hb, hnode, hworld, hlight⟩ := light_of_split hsound h
  exact ⟨b, folded light, taken light, hb, folds_lightPlacement? light, hnode, hworld, hlight,
    entries_withoutParams hnames fun _ => nameOf?_of_mem_taken, losesNothing_iff hnames⟩

/-- A point light with one parameter, which says some numbers about where it stands. -/
def pointLight (values : OneOrMore Float) : Resource ℝ :=
  ⟨.made 0, "PointLight", "point", ⟨[⟨"point", "from", .floats values⟩]⟩, .light⟩

/-- The light is declared and put into an empty world. -/
noncomputable def lightEvents (light : Resource ℝ) : List (Event ℝ) :=
  [.begin none, .declare light] ++ .light light .identity :: []

theorem areSoundEvents_lightEvents (light : Resource ℝ) :
    Engine.AreSoundEvents (lightEvents light) := by
  intro e he t ht
  simp only [lightEvents, List.cons_append, List.nil_append, List.mem_cons, List.not_mem_nil,
    or_false] at he
  rcases he with rfl | rfl | rfl
  · cases ht
  · cases ht
  · rw [List.mem_singleton.mp ht]
    exact TransformSet.isSound_identity

section PointLight

variable (values : OneOrMore Float)

theorem nodup_names_pointLight : (pointLight values).params.names.Nodup :=
  List.nodup_singleton "from"

theorem floats_pointLight : (pointLight values).params.floats "from" = values.toList := by
  have hname : ParamMap.nameOf? "from" = some "from" := by decide +kernel
  rw [ParamMap.floats, ParamMap.get?, ParamMap.entry?, hname]
  rfl

theorem folded_pointLight :
    folded (pointLight values) = Frame.shift (pointOr (pointLight values).params "from" .zero) :=
  rfl

theorem keptParams_pointLight : keptParams (pointLight values) = ⟨[]⟩ := by
  have hentries : (keptParams (pointLight values)).entries = [] :=
    entries_withoutParams (nodup_names_pointLight values) fun _ => nameOf?_of_mem_taken
  exact congrArg ParamMap.mk hentries

end PointLight

/-- A point light that stands at three numbers is shifted there, and has no parameter then. -/
theorem light_losesNothing_threeNumbers :
    ∃ scene b, Scene.ofEvents [] (lightEvents (pointLight ⟨1.0, [2.0, 3.0]⟩)) = .ok scene ∧
      scene.graph.contents[b]? = some [.light (.made 0)] ∧
      scene.graph.worldMatrix b =
        Frame.shift ⟨Scalar.ofFloat 1.0, Scalar.ofFloat 2.0, Scalar.ofFloat 3.0⟩ ∧
      LosesNothing (pointLight ⟨1.0, [2.0, 3.0]⟩) := by
  obtain ⟨scene, hscene⟩ : ∃ scene : Scene ℝ,
      Scene.ofEvents [] (lightEvents (pointLight ⟨1.0, [2.0, 3.0]⟩)) = .ok scene := ⟨_, rfl⟩
  obtain ⟨b, placed, names, hb, hfolds, hnode, hworld, -, -, hiff⟩ :=
    light_losesNothing_iff (areSoundEvents_lightEvents _) hscene (nodup_names_pointLight _)
  cases hfolds with
  | point htype horigin =>
      refine ⟨scene, _, hscene, hnode, ?_, hiff.mpr ?_⟩
      · cases horigin with
        | given hfloats =>
            rw [floats_pointLight] at hfloats
            cases hfloats
            exact hworld.trans (Matrix4.identity_mul _)
        | missing hlength =>
            rw [floats_pointLight] at hlength
            exact absurd rfl hlength
      · intro name hname _
        rw [List.mem_singleton.mp hname, floats_pointLight]
        rfl
  | directed htype => exact absurd htype (by decide)
  | undirected htype => exact absurd htype (by decide)
  | other htype => exact absurd rfl htype.1

/-- A point light that stands at two numbers stays at the current transform, and loses them. -/
theorem not_losesNothing_twoNumbers :
    ∃ scene b, Scene.ofEvents [] (lightEvents (pointLight ⟨1.0, [2.0]⟩)) = .ok scene ∧
      Engine.AreSoundEvents (lightEvents (pointLight ⟨1.0, [2.0]⟩)) ∧
      (pointLight ⟨1.0, [2.0]⟩).params.names.Nodup ∧
      scene.graph.contents[b]? = some [.light (.made 0)] ∧
      scene.graph.worldMatrix b = .identity ∧
      "from" ∈ (pointLight ⟨1.0, [2.0]⟩).params.names ∧
      (∃ r, scene.resources.lightOf? (.made 0) = some r ∧ r.params = ⟨[]⟩) ∧
      ¬ LosesNothing (pointLight ⟨1.0, [2.0]⟩) := by
  obtain ⟨scene, hscene⟩ : ∃ scene : Scene ℝ,
      Scene.ofEvents [] (lightEvents (pointLight ⟨1.0, [2.0]⟩)) = .ok scene := ⟨_, rfl⟩
  have hsound := areSoundEvents_lightEvents (pointLight ⟨1.0, [2.0]⟩)
  have hnames := nodup_names_pointLight ⟨1.0, [2.0]⟩
  obtain ⟨b, hb, hnode, hworld, hlight⟩ := light_of_split hsound hscene
  have hfrom : "from" ∈ (pointLight ⟨1.0, [2.0]⟩).params.names := List.mem_singleton.mpr rfl
  refine ⟨scene, _, hscene, hsound, hnames, hnode, ?_, hfrom, ⟨_, hlight ?_ nofun, ?_⟩, ?_⟩
  · have horigin : pointOr (pointLight ⟨1.0, [2.0]⟩).params "from" .zero = (.zero : Vec3 ℝ) := by
      unfold pointOr
      rw [floats_pointLight]
      rfl
    rw [hworld, folded_pointLight, horigin]
    exact Matrix4.identity_mul _
  · cases hb
    rfl
  · exact keptParams_pointLight _
  · rw [losesNothing_iff hnames]
    intro h
    have hlength := h "from" (List.mem_singleton.mpr rfl) hfrom
    rw [floats_pointLight] at hlength
    cases hlength

end SceneBuilder

end SceneReader
