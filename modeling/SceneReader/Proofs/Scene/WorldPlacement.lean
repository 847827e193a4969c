import SceneReader.Proofs.Engine.Blocks
import SceneReader.Proofs.Scene.Placement

/-!
# Blocks, shapes and objects are where they were read

Every node that a run adds to the scene for a block, a shape or an object has a transform
to the world, the product of the local transforms from the root down.  It is the transform
that was current when the node was reported, whatever blocks and transforms came before.
The shapes of an object that is placed are below the node of the object: each is moved on
by the transform that it had relative to where the object began.

**Results.**
* `ctm_of_mem`: what a directive reports to be placed is placed at the current transform.
* `isReportedIn_of_split`: every such event is reported while some directive is executed.
* `worldMatrix_of_event`: where the nodes of an event are in the scene of a whole run.
* `worldMatrix_of_captured`: a shape of an object is elsewhere than the object.
-/

namespace SceneReader
namespace Engine

variable {K : Type}

section Report

variable [Scalar K]

/-- After the events `es`, the engine reports `e` while it executes a directive of `ds` in
the state `s`. -/
def IsReportedIn (c : EngineContext) (dirs : DirectoryStack) (ds : List Directive)
    (es : List (Event K)) (e : Event K) (s : EngineState K) : Prop :=
  ∃ before d after earlier later, ds = before ++ d :: after ∧
    (started (K := K) c before dirs).rejection = none ∧ s = (started c before dirs).state ∧
    (execute c d s).events = earlier ++ e :: later ∧
    es = (started c before dirs).events ++ earlier

omit [Scalar K] in
/-- An end places nothing. -/
theorem placement?_of_isEnding {e : Event K} (h : e.isEnding = true) : e.placement? = none := by
  cases e <;> first | rfl | cases h

omit [Scalar K] in
/-- Putting resources on record places nothing and moves nothing. -/
theorem Recorded.placement? {s s' : EngineState K} {es : List (Event K)} (h : Recorded s s' es) :
    s'.ctm = s.ctm ∧ ∀ e ∈ es, e.placement? = none := by
  obtain ⟨made, files, meshes, declared, -, -⟩ := h
  refine ⟨rfl, ?_⟩
  intro e he
  obtain ⟨r, -, rfl⟩ := List.mem_map.mp he
  rfl

/-- What a directive reports to be placed is placed at the current transform. -/
theorem ctm_of_mem {d : Directive} {s s' : EngineState K} {es : List (Event K)}
    (h : Effect d s s' es) {e : Event K} (he : e ∈ es) {ctm : TransformSet K}
    {sts : List (ShapeStatement K)} (hp : e.placement? = some (ctm, sts)) : ctm = s.ctm := by
  -- resources are declared first, and one event may follow
  have last {s₁ : EngineState K} {es₁ : List (Event K)} {e₁ : Event K} (hr : Recorded s s₁ es₁)
      (hmem : e ∈ es₁ ++ [e₁]) (h₁ : ∀ t sts, e₁.placement? = some (t, sts) → t = s.ctm) :
      ctm = s.ctm := by
    rcases List.mem_append.mp hmem with hmem | hmem
    · rw [hr.placement?.2 e hmem] at hp
      cases hp
    · rw [List.mem_singleton.mp hmem] at hp
      exact h₁ ctm sts hp
  have nowhere (hnone : e.placement? = none) : ctm = s.ctm := by
    rw [hnone] at hp
    cases hp
  cases h with
  | skipped hd => cases he
  | composed hd t ht => cases he
  | replaced hd t ht => cases he
  | recalled hd t ht => cases he
  | activated hd halves hh => cases he
  | saved hd => cases he
  | timed hd a b => cases he
  | setting hd kind setting s₁ es hr => exact last hr he (by simp [Event.placement?])
  | camera hd setting s₁ es hr => exact last hr he (by simp [Event.placement?])
  | medium hd id s₁ es hr => exact nowhere (hr.placement?.2 e he)
  | painted hd g s₁ es hr hg => exact nowhere (hr.placement?.2 e he)
  | worldBegin hd =>
      rcases List.mem_cons.mp he with rfl | he
      · exact nowhere rfl
      · rw [List.mem_singleton.mp he] at hp
        cases hp
  | worldEnd hd s₁ es hc =>
      rcases List.mem_append.mp he with he | he
      · exact nowhere (placement?_of_isEnding (hc.isEnding he))
      · rw [List.mem_singleton.mp he] at hp
        cases hp
  | opened kind hk hd =>
      unfold openingEvents at he
      split at he
      · rw [List.mem_singleton.mp he] at hp
        cases hp
        rfl
      · cases he
  | closed kind hd s₁ es hc => exact nowhere (placement?_of_isEnding (hc.isEnding he))
  | objectBegin hd =>
      rw [List.mem_singleton.mp he] at hp
      cases hp
  | placed hd o ho =>
      rw [List.mem_singleton.mp he] at hp
      cases hp
      rfl
  | light hd r s₁ es hr hmem => exact last hr he (by simp [Event.placement?])
  | areaLight hd r s₁ es hr hmem => exact nowhere (hr.placement?.2 e he)
  | stated hd r s₁ es hr ho =>
      refine last hr he ?_
      intro t sts ht
      cases ht
      exact hr.placement?.1
  | captured hd r s₁ es hr o ho => exact nowhere (hr.placement?.2 e he)
  | directories hd dirs => cases he

theorem ctm_of_execute {c : EngineContext} {d : Directive} {s : EngineState K} {e : Event K}
    (he : e ∈ (execute c d s).events) {ctm : TransformSet K} {sts : List (ShapeStatement K)}
    (hp : e.placement? = some (ctm, sts)) : ctm = s.ctm := by
  obtain ⟨hstate, hevents⟩ := begin_run c s
  unfold execute Progress.andThen Progress.ofAction at he
  dsimp only at he
  rw [hstate, hevents] at he
  rcases List.mem_append.mp he with he | he
  · split at he
    · cases he
    · rw [List.mem_singleton.mp he] at hp
      cases hp
  · rcases attempt_cases c d { s with begun := true } with ⟨-, -, heffect⟩ | ⟨-, -, hnone⟩
    · exact ctm_of_mem heffect he hp
    · rw [hnone] at he
      cases he

/-- An event among those of directives is reported while one of them is executed. -/
theorem exists_directive_of_event {c : EngineContext} {ds : List Directive} {s : EngineState K}
    {es₁ es₂ : List (Event K)} {e : Event K}
    (h : (executeAll c ds s).events = es₁ ++ e :: es₂) :
    ∃ before d after earlier later, ds = before ++ d :: after ∧
      (executeAll c before s).rejection = none ∧
      (execute c d (executeAll c before s).state).events = earlier ++ e :: later ∧
      es₁ = (executeAll c before s).events ++ earlier := by
  induction ds generalizing s es₁ with
  | nil =>
      have hnil : ([] : List (Event K)) = es₁ ++ e :: es₂ := h
      simp at hnil
  | cons d ds ih =>
      by_cases hfirst : ∃ later, (execute c d s).events = es₁ ++ e :: later
      · obtain ⟨later, hlater⟩ := hfirst
        exact ⟨[], d, ds, es₁, later, rfl, rfl, hlater, rfl⟩
      · -- the event is one of a later directive
        have hrest : (execute c d s).rejection = none ∧ ∃ rest,
            es₁ = (execute c d s).events ++ rest ∧
            (executeAll c ds (execute c d s).state).events = rest ++ e :: es₂ := by
          unfold executeAll Progress.andThen at h
          cases hr : (execute c d s).rejection with
          | some r =>
              rw [hr] at h
              exact absurd ⟨es₂, h⟩ hfirst
          | none =>
              rw [hr] at h
              refine ⟨rfl, ?_⟩
              rcases List.append_eq_append_iff.mp h with ⟨rest, hes₁, hrest⟩ | ⟨rest, hes₁, hrest⟩
              · exact ⟨rest, hes₁, hrest⟩
              · cases rest with
                | nil =>
                    rw [List.append_nil] at hes₁
                    exact ⟨[], by rw [List.append_nil, hes₁], hrest.symm⟩
                | cons e' rest =>
                    cases hrest
                    exact absurd ⟨rest, hes₁⟩ hfirst
        obtain ⟨hr, rest, rfl, hrest⟩ := hrest
        obtain ⟨before, d', after, earlier, later, rfl, hnone, hevents, rfl⟩ := ih hrest
        have hall : executeAll c (d :: before) s =
            (execute c d s).andThen (executeAll c before) := rfl
        refine ⟨d :: before, d', after, earlier, later, rfl, ?_, ?_, ?_⟩
        · rw [hall, Progress.andThen, hr]
          exact hnone
        · rw [hall, Progress.andThen, hr]
          exact hevents
        · rw [hall, Progress.andThen, hr, List.append_assoc]

/-- The part of a list up to an element that is in its first half. -/
theorem exists_split_of_append {α : Type} {as bs xs ys : List α} {x : α}
    (h : as ++ bs = xs ++ x :: ys) (hx : x ∉ bs) : ∃ zs, as = xs ++ x :: zs := by
  rcases List.append_eq_append_iff.mp h with ⟨rest, -, hrest⟩ | ⟨rest, has, hrest⟩
  · rw [hrest] at hx
    exact absurd (by simp) hx
  · cases rest with
    | nil =>
        rw [List.nil_append] at hrest
        rw [← hrest] at hx
        exact absurd List.mem_cons_self hx
    | cons y rest =>
        cases hrest
        exact ⟨rest, has⟩

/-- Everything that a run reports to be placed is reported while some directive is
executed, and is placed at the transform that is current there. -/
theorem isReportedIn_of_split {c : EngineContext} {dirs : DirectoryStack} {ds : List Directive}
    {es₁ es₂ : List (Event K)} {e : Event K} {ctm : TransformSet K}
    {sts : List (ShapeStatement K)} (h : (run c ds (.initial dirs)).events = es₁ ++ e :: es₂)
    (hp : e.placement? = some (ctm, sts)) :
    ∃ s, IsReportedIn c dirs ds es₁ e s ∧ ctm = s.ctm := by
  have hstarted : ∃ later, (started (K := K) c ds dirs).events = es₁ ++ e :: later := by
    have hrun : run (K := K) c ds (.initial dirs) =
        (started c ds dirs).andThen (Progress.ofAction finish) := rfl
    rw [hrun] at h
    unfold Progress.andThen at h
    split at h
    · exact ⟨es₂, h⟩
    · refine exists_split_of_append h ?_
      intro hfinish
      rw [placement?_of_isEnding (isEnding_finish hfinish)] at hp
      cases hp
  obtain ⟨later, hlater⟩ := hstarted
  rw [started_eq] at hlater
  cases es₁ with
  | nil =>
      -- the first event is the start
      rw [List.nil_append] at hlater
      rw [← (List.cons.inj hlater).1] at hp
      cases hp
  | cons e₀ es₁ =>
      obtain ⟨rfl, hall⟩ := List.cons.inj hlater
      obtain ⟨before, d, after, earlier, later, hds, hnone, hevents, rfl⟩ :=
        exists_directive_of_event hall
      have hmem : e ∈ (execute c d (started (K := K) c before dirs).state).events := by
        rw [started_eq, hevents]
        simp
      refine ⟨(started c before dirs).state, ⟨before, d, after, earlier, later, hds, ?_, rfl,
        ?_, ?_⟩, ctm_of_execute hmem hp⟩
      · rw [started_eq]
        exact hnone
      · rw [started_eq]
        exact hevents
      · rw [started_eq]
        rfl

end Report

/-- The node of a block, a shape or a placed object is at the transform that was current
when it was reported, and the shapes of the object are moved on from there. -/
theorem worldMatrix_of_event [ExactScalar K] {c : EngineContext} {dirs : DirectoryStack}
    {ds : List Directive} {here : Location} {scene : Scene K} {es₁ es₂ : List (Event K)}
    {e : Event K} {ctm : TransformSet K} {sts : List (ShapeStatement K)}
    (hscene : Scene.ofEvents here (run c ds (.initial dirs)).events = .ok scene)
    (h : (run c ds (.initial dirs)).events = es₁ ++ e :: es₂)
    (hp : e.placement? = some (ctm, sts)) :
    ∃ s b b', IsReportedIn c dirs ds es₁ e s ∧
      es₁.foldlM (SceneBuilder.step here) .initial = .ok b ∧ b.step here e = .ok b' ∧
      b'.graph.size = b.graph.size + 1 + sts.length ∧
      scene.graph.worldMatrix b.graph.size = s.ctm.start.matrix ∧
      ∀ i (hi : i < sts.length), scene.graph.worldMatrix (b.graph.size + 1 + i) =
        s.ctm.start.matrix.mul sts[i].transform.start.matrix := by
  obtain ⟨s, hreported, rfl⟩ := isReportedIn_of_split h hp
  obtain ⟨-, hsound⟩ := (reachable_run (K := K) c ds dirs).invariant (isSoundState_invariant c)
  rw [h] at hscene hsound
  obtain ⟨b, b', hb, hstep, hspec, hkeeps⟩ := SceneBuilder.worldMatrix_of_split hsound hscene
  have hsize := hspec.size _ _ hp
  have hnew : b.graph.size < b'.graph.size := by omega
  refine ⟨s, b, b', hreported, hb, hstep, hsize, ?_, ?_⟩
  · rw [hkeeps.worldMatrix hnew, hspec.world _ _ hp]
  · intro i hi
    have hbelow : b.graph.size + 1 + i < b'.graph.size := by omega
    rw [hkeeps.worldMatrix hbelow, hspec.below _ _ hp i hi]

/-! ## An object with a shape that is moved inside of it -/

/-- An object is placed where it began, and its shape one step farther. -/
def movedInside : List Directive :=
  [⟨.worldBegin, [], .empty, none⟩, ⟨.objectBegin, [.text "o"], .empty, none⟩,
   ⟨.translate, [.number 1.0, .number 0.0, .number 0.0], .empty, none⟩,
   ⟨.shape, [.text "sphere"], .empty, none⟩, ⟨.objectEnd, [], .empty, none⟩,
   ⟨.objectInstance, [.text "o"], .empty, none⟩]

/-- The step of the shape. -/
noncomputable def oneStep : Transform ℝ :=
  .translate ⟨Scalar.ofFloat 1.0, Scalar.ofFloat 0.0, Scalar.ofFloat 0.0⟩

/-- The run makes a scene, and reports the object with its shape. -/
theorem run_movedInside :
    ∃ scene es₁ es₂ name st,
      Scene.ofEvents [] (run (K := ℝ) ⟨.rooted [], [], none⟩ movedInside
        (.initial .empty)).events = .ok scene ∧
      (run (K := ℝ) ⟨.rooted [], [], none⟩ movedInside (.initial .empty)).events =
        es₁ ++ .placed ⟨name, [st]⟩ .identity :: es₂ ∧
      st.transform.start = Transform.identity.invert.compose (Transform.identity.compose oneStep) :=
  ⟨_, [_, _, _, _, _, _], _, _, _, rfl, rfl, rfl⟩

theorem worldMatrix_of_event_movedInside :
    ∃ scene es₁ es₂ o ctm,
      Scene.ofEvents [] (run (K := ℝ) ⟨.rooted [], [], none⟩ movedInside
        (.initial .empty)).events = .ok scene ∧
      (run (K := ℝ) ⟨.rooted [], [], none⟩ movedInside (.initial .empty)).events =
        es₁ ++ .placed o ctm :: es₂ ∧
      ∃ s b b', IsReportedIn ⟨.rooted [], [], none⟩ .empty movedInside es₁ (.placed o ctm) s ∧
        es₁.foldlM (SceneBuilder.step []) .initial = .ok b ∧
        b.step [] (.placed o ctm) = .ok b' ∧
        b'.graph.size = b.graph.size + 1 + o.shapes.length ∧
        scene.graph.worldMatrix b.graph.size = s.ctm.start.matrix ∧
        ∀ i (hi : i < o.shapes.length), scene.graph.worldMatrix (b.graph.size + 1 + i) =
          s.ctm.start.matrix.mul o.shapes[i].transform.start.matrix := by
  obtain ⟨scene, es₁, es₂, name, st, hscene, h, -⟩ := run_movedInside
  exact ⟨scene, es₁, es₂, ⟨name, [st]⟩, .identity, hscene, h, worldMatrix_of_event hscene h rfl⟩

/-- The shape of a placed object is a node of its own, and not where the object is. -/
theorem worldMatrix_of_captured :
    ∃ scene es₁ es₂ o ctm b b' id,
      Scene.ofEvents [] (run (K := ℝ) ⟨.rooted [], [], none⟩ movedInside
        (.initial .empty)).events = .ok scene ∧
      (run (K := ℝ) ⟨.rooted [], [], none⟩ movedInside (.initial .empty)).events =
        es₁ ++ .placed o ctm :: es₂ ∧
      es₁.foldlM (SceneBuilder.step []) .initial = .ok b ∧
      b.step [] (.placed o ctm) = .ok b' ∧ b.graph.size ≤ id ∧ id < b'.graph.size ∧
      scene.graph.worldMatrix id ≠ ctm.start.matrix := by
  obtain ⟨scene, es₁, es₂, name, st, hscene, h, hst⟩ := run_movedInside
  obtain ⟨-, hsound⟩ := (reachable_run (K := ℝ) ⟨.rooted [], [], none⟩ movedInside
    .empty).invariant (isSoundState_invariant _)
  have hscene' := hscene
  rw [h] at hscene' hsound
  obtain ⟨b, b', hb, hstep, hspec, hkeeps⟩ := SceneBuilder.worldMatrix_of_split hsound hscene'
  have hsize : b'.graph.size = b.graph.size + 1 + 1 := hspec.size _ _ rfl
  have hnew : b.graph.size + 1 < b'.graph.size := by omega
  refine ⟨scene, es₁, es₂, _, _, b, b', b.graph.size + 1, hscene, h, hb, hstep,
    Nat.le_succ _, hnew, ?_⟩
  have hbelow : b'.graph.worldMatrix (b.graph.size + 1) =
      Matrix4.identity.mul st.transform.start.matrix := hspec.below _ _ rfl 0 Nat.zero_lt_one
  have hworld : st.transform.start.matrix = oneStep.matrix := by
    rw [hst]
    change Matrix4.identity.mul (Matrix4.identity.mul oneStep.matrix) = _
    rw [Matrix4.identity_mul, Matrix4.identity_mul]
  rw [hkeeps.worldMatrix hnew, hbelow, Matrix4.identity_mul, hworld]
  intro heq
  have hone : (0 : ℝ) < Scalar.ofFloat 1.0 :=
    Number.toReal_pos (by decide +kernel) (by decide +kernel) (by decide +kernel)
  have hzero : (Scalar.ofFloat 1.0 : ℝ) = 0 := congrArg (fun m : Matrix4 ℝ => m.r0.w) heq
  exact absurd hzero hone.ne'

end Engine
end SceneReader
