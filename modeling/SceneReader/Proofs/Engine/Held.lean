import SceneReader.Proofs.Engine.Reachable

/-!
# Transforms that are held and told

A transform set comes into a state as the current one.  From there it is saved by blocks and
under names, gone back to, undone for the camera, and seen from where an object began; targets
are told of it with blocks, lights, shapes and objects.  What holds of the current set after
every move, and is kept on these ways, holds of all sets that are held or told.

**Results.**
* `AllHeld.effect`: one effect.
* `allHeld_executeAll`, `allHeld_run`: rows of directives and whole runs.
-/

namespace SceneReader

variable {K : Type}

/-- The transforms of the shapes of an object. -/
def ObjectDefinition.transforms (o : ObjectDefinition K) : List (TransformSet K) :=
  o.shapes.map (·.transform)

/-- The transforms that a state holds: the current one, those saved by blocks and under
names, that of the camera, and those of shapes in objects. -/
def EngineState.held (s : EngineState K) : List (TransformSet K) :=
  s.ctm :: (s.scopes.map (·.ctm) ++ s.coordinateSystems.values ++
    s.options.cameraToWorld.toList ++ s.objects.values.flatMap ObjectDefinition.transforms ++
    s.openObject.toList.flatMap ObjectDefinition.transforms)

/-- The transforms that targets are told. -/
def Event.told : Event K → List (TransformSet K)
  | .begin _ => []
  | .setting _ _ => []
  | .camera _ cameraToWorld => [cameraToWorld]
  | .worldBegin options => options.cameraToWorld.toList
  | .beginScope _ ctm => [ctm]
  | .endScope _ => []
  | .declare _ => []
  | .shape statement => [statement.transform]
  | .light _ ctm => [ctm]
  | .objectBegin _ => []
  | .objectEnd definition => definition.transforms
  | .placed definition ctm => ctm :: definition.transforms
  | .worldEnd => []
  | .finish => []

namespace Engine

/-- All transform sets that the state holds have the property. -/
structure AllHeld (P : TransformSet K → Prop) (s : EngineState K) : Prop where
  ctm : P s.ctm
  scopes : ∀ scope ∈ s.scopes, P scope.ctm
  systems : ∀ t ∈ s.coordinateSystems.values, P t
  camera : ∀ t ∈ s.options.cameraToWorld, P t
  objects : ∀ o ∈ s.objects.values, ∀ t ∈ o.transforms, P t
  openObject : ∀ o ∈ s.openObject, ∀ t ∈ o.transforms, P t

/-- All transform sets that are told have the property. -/
def AllTold (P : TransformSet K → Prop) (es : List (Event K)) : Prop :=
  ∀ e ∈ es, ∀ t ∈ e.told, P t

variable {P : TransformSet K → Prop}

theorem AllHeld.of_mem_held {s : EngineState K} (h : AllHeld P s) {t : TransformSet K}
    (ht : t ∈ s.held) : P t := by
  simp only [EngineState.held, List.mem_cons, List.mem_append, List.mem_map, List.mem_flatMap,
    Option.mem_toList] at ht
  rcases ht with rfl | (((⟨scope, hscope, rfl⟩ | hsys) | hcam) | ⟨o, ho, hto⟩) | ⟨o, ho, hto⟩
  · exact h.ctm
  · exact h.scopes scope hscope
  · exact h.systems t hsys
  · exact h.camera t hcam
  · exact h.objects o ho t hto
  · exact h.openObject o ho t hto

namespace AllTold

theorem nil : AllTold P ([] : List (Event K)) := fun _ he => absurd he List.not_mem_nil

theorem append {es es' : List (Event K)} (h : AllTold P es) (h' : AllTold P es') :
    AllTold P (es ++ es') := by
  intro e he
  rcases List.mem_append.mp he with he | he
  · exact h e he
  · exact h' e he

theorem one {e : Event K} (h : ∀ t ∈ e.told, P t) : AllTold P [e] := by
  intro e' he
  rw [List.mem_singleton.mp he]
  exact h

/-- Events that tell no transforms. -/
theorem untold {es : List (Event K)} (h : ∀ e ∈ es, e.told = []) : AllTold P es := by
  intro e he t ht
  rw [h e he] at ht
  exact absurd ht List.not_mem_nil

end AllTold

/-! ## Blocks and resources -/

theorem AllHeld.recorded {s s' : EngineState K} {es : List (Event K)} (h : AllHeld P s)
    (hr : Recorded s s' es) : AllHeld P s' ∧ AllTold P es := by
  obtain ⟨made, files, meshes, declared, -, -⟩ := hr
  refine ⟨⟨h.ctm, h.scopes, h.systems, h.camera, h.objects, h.openObject⟩, ?_⟩
  apply AllTold.untold
  intro e he
  obtain ⟨r, -, rfl⟩ := List.mem_map.mp he
  rfl

theorem allTold_closing (scope : Scope K) : AllTold P (closingEvents scope) := by
  unfold closingEvents
  apply AllTold.untold
  intro e he
  split at he
  · rw [List.mem_singleton.mp he]
    rfl
  · exact absurd he List.not_mem_nil

/-- Closing a block goes back to the transform that it saved. -/
theorem AllHeld.closed {s s' : EngineState K} {es : List (Event K)} (h : AllHeld P s)
    (hc : Closed s s' es) : AllHeld P s' ∧ AllTold P es := by
  have back {scope : Scope K} {rest : List (Scope K)} (hs : s.scopes = scope :: rest) :
      AllHeld P { s with scopes := rest, ctm := scope.ctm } := by
    refine ⟨?_, ?_, h.systems, h.camera, h.objects, h.openObject⟩
    · exact h.scopes scope (by simp [hs])
    · intro other hother
      exact h.scopes other (by simp [hs, hother])
  cases hc with
  | nothing hs => exact ⟨h, AllTold.nil⟩
  | attributes scope rest hs hk =>
      have hb := back hs
      refine ⟨?_, allTold_closing scope⟩
      unfold restoreGraphics
      split
      · exact hb
      · exact ⟨hb.ctm, hb.scopes, hb.systems, hb.camera, hb.objects, hb.openObject⟩
  | object scope rest o hs hk ho =>
      have hb := back hs
      have hobj := h.openObject o ho
      refine ⟨⟨hb.ctm, hb.scopes, hb.systems, hb.camera, ?_, by simp⟩, ?_⟩
      · intro other hother
        rcases Table.mem_values_put hother with rfl | hother
        · exact hobj
        · exact h.objects other hother
      · have htold : ∀ t ∈ (Event.objectEnd o).told, P t := hobj
        exact (AllTold.one htold).append (allTold_closing scope)
  | plain scope rest hs hk ho => exact ⟨back hs, allTold_closing scope⟩

theorem AllHeld.closedAll {s s' : EngineState K} {es : List (Event K)} (h : AllHeld P s)
    (hc : ClosedAll s s' es) : AllHeld P s' ∧ AllTold P es := by
  induction hc with
  | nil s => exact ⟨h, AllTold.nil⟩
  | cons first rest ih =>
      obtain ⟨h₁, he₁⟩ := h.closed first
      obtain ⟨h₂, he₂⟩ := ih h₁
      exact ⟨h₂, he₁.append he₂⟩

theorem AllHeld.ended {s s' : EngineState K} {es : List (Event K)} (h : AllHeld P s)
    (hw : WorldEnded s s' es) : AllHeld P s' ∧ AllTold P es := by
  obtain ⟨s₁, es₁, hc, rfl, rfl⟩ := hw
  obtain ⟨h₁, he₁⟩ := h.closedAll hc
  refine ⟨⟨h₁.ctm, h₁.scopes, h₁.systems, h₁.camera, h₁.objects, h₁.openObject⟩, ?_⟩
  exact he₁.append (AllTold.one (by simp [Event.told]))

theorem AllHeld.opened {s : EngineState K} (h : AllHeld P s) (kind : ScopeKind) :
    AllHeld P (opened kind s) ∧ AllTold P (openingEvents kind s) := by
  refine ⟨⟨h.ctm, ?_, h.systems, h.camera, h.objects, h.openObject⟩, ?_⟩
  · intro scope hscope
    rcases List.mem_cons.mp hscope with rfl | hscope
    · exact h.ctm
    · exact h.scopes scope hscope
  · unfold openingEvents
    split
    · exact AllTold.one (by simp [Event.told, h.ctm])
    · exact AllTold.nil

variable [Scalar K]

/-- A property of transform sets that stays when they are gone back to, undone, and seen from
where an object began. -/
structure IsCarried (P : TransformSet K → Prop) : Prop where
  identity : P .identity
  recalled : ∀ {t u : TransformSet K}, P t → P u → P { t with active := u.active }
  invert : ∀ {t : TransformSet K}, P t → P t.invert
  relativeTo : ∀ {t base : TransformSet K}, P t → P base → P (t.relativeTo base)

/-! ## The world and its objects -/

theorem AllHeld.worldBegun {s : EngineState K} (hP : IsCarried P) (h : AllHeld P s) :
    AllHeld P (worldBegun s) ∧ AllTold P [Event.worldBegin (cameraOptions s)] := by
  have hid := hP.identity
  have hcam : ∀ t ∈ (cameraOptions s).cameraToWorld, P t := by
    unfold cameraOptions
    split
    · intro t ht
      rw [← Option.some.inj ht]
      exact hid
    · exact h.camera
  have hsys : ∀ t ∈ (worldSystems s).values, P t := by
    intro t ht
    rcases Table.mem_values_put ht with rfl | ht
    · exact hid
    · split at ht
      · rcases Table.mem_values_put ht with rfl | ht
        · exact hid
        · exact h.systems t ht
      · exact h.systems t ht
  refine ⟨⟨hid, h.scopes, hsys, hcam, h.objects, h.openObject⟩, AllTold.one ?_⟩
  intro t ht
  exact hcam t (Option.mem_toList.mp ht)

theorem AllHeld.objectBase {s : EngineState K} (hP : IsCarried P) (h : AllHeld P s) :
    P (objectBase s) := by
  unfold Engine.objectBase
  split
  · rename_i scope hscope
    exact h.scopes scope (List.mem_of_find?_eq_some hscope)
  · exact hP.identity

/-- A shape of the open object is placed relative to where the object began. -/
theorem AllHeld.captured {s : EngineState K} (hP : IsCarried P) (h : AllHeld P s)
    {o : ObjectDefinition K} (ho : ∀ t ∈ o.transforms, P t) (st : ShapeStatement K)
    (hst : P st.transform) : AllHeld P (captured o st s) := by
  refine ⟨h.ctm, h.scopes, h.systems, h.camera, h.objects, ?_⟩
  intro o' ho' t ht
  rw [← Option.some.inj ho'] at ht
  simp only [ObjectDefinition.transforms, List.map_append, List.map_cons, List.map_nil,
    List.mem_append, List.mem_singleton] at ht
  rcases ht with ht | rfl
  · exact ho t ht
  · exact hP.relativeTo hst (h.objectBase hP)

/-! ## All effects -/

/-- What a directive moves the current transform to. -/
inductive MovesTo (d : Directive) (t : TransformSet K) : TransformSet K → Prop
  | composed (u : Transform K) (hu : motion? d = some (.ok u)) : MovesTo d t (t.compose u)
  | replaced (u : Transform K) (hu : u = .identity ∨ motion? d = some (.ok u)) :
      MovesTo d t (t.replace u)
  | activated (halves : ActiveHalves) (hd : d.name = .activeTransform)
      (hh : activeHalves? d.subject = some halves) : MovesTo d t { t with active := halves }

/-- What a directive does keeps the property, if the current transform has it after a move. -/
theorem AllHeld.effect {d : Directive} {s s' : EngineState K} {es : List (Event K)}
    (hP : IsCarried P) (h : AllHeld P s) (hmoved : ∀ t, MovesTo d s.ctm t → P t)
    (he : Effect d s s' es) : AllHeld P s' ∧ AllTold P es := by
  have moves {t : TransformSet K} (ht : MovesTo d s.ctm t) : AllHeld P { s with ctm := t } :=
    ⟨hmoved t ht, h.scopes, h.systems, h.camera, h.objects, h.openObject⟩
  cases he with
  | skipped hd => exact ⟨h, AllTold.nil⟩
  | composed hd t ht => exact ⟨moves (.composed t ht.2), AllTold.nil⟩
  | replaced hd t ht => exact ⟨moves (.replaced t (ht.imp And.right And.right)), AllTold.nil⟩
  | recalled hd t ht =>
      have hctm := hP.recalled (h.systems t (Table.mem_values_of_get? ht)) h.ctm
      exact ⟨⟨hctm, h.scopes, h.systems, h.camera, h.objects, h.openObject⟩, AllTold.nil⟩
  | activated hd halves hh => exact ⟨moves (.activated halves hd hh), AllTold.nil⟩
  | saved hd =>
      refine ⟨⟨h.ctm, h.scopes, ?_, h.camera, h.objects, h.openObject⟩, AllTold.nil⟩
      intro t ht
      rcases Table.mem_values_put ht with rfl | ht
      · exact h.ctm
      · exact h.systems t ht
  | timed hd a b =>
      exact ⟨⟨h.ctm, h.scopes, h.systems, h.camera, h.objects, h.openObject⟩, AllTold.nil⟩
  | setting hd kind setting s₁ es hr =>
      obtain ⟨h₁, he₁⟩ := h.recorded hr
      have hcam : (s₁.options.set kind setting).cameraToWorld = s₁.options.cameraToWorld := by
        cases kind <;> rfl
      refine ⟨⟨h₁.ctm, h₁.scopes, h₁.systems, ?_, h₁.objects, h₁.openObject⟩, ?_⟩
      · rw [hcam]
        exact h₁.camera
      · exact he₁.append (AllTold.one (by simp [Event.told]))
  | camera hd setting s₁ es hr =>
      obtain ⟨h₁, he₁⟩ := h.recorded hr
      have hcam := hP.invert h₁.ctm
      refine ⟨⟨h₁.ctm, h₁.scopes, ?_, ?_, h₁.objects, h₁.openObject⟩, ?_⟩
      · intro t ht
        rcases Table.mem_values_put ht with rfl | ht
        · exact hcam
        · exact h₁.systems t ht
      · intro t ht
        rw [← Option.some.inj ht]
        exact hcam
      · exact he₁.append (AllTold.one (by simp [Event.told, hcam]))
  | medium hd id s₁ es hr =>
      obtain ⟨h₁, he₁⟩ := h.recorded hr
      exact ⟨⟨h₁.ctm, h₁.scopes, h₁.systems, h₁.camera, h₁.objects, h₁.openObject⟩, he₁⟩
  | painted hd g s₁ es hr hg =>
      obtain ⟨h₁, he₁⟩ := h.recorded hr
      exact ⟨⟨h₁.ctm, h₁.scopes, h₁.systems, h₁.camera, h₁.objects, h₁.openObject⟩, he₁⟩
  | worldBegin hd =>
      obtain ⟨h₁, he₁⟩ := h.worldBegun hP
      have hdeclare : AllTold P [Event.declare (defaultMaterial s)] :=
        AllTold.one (by simp [Event.told])
      exact ⟨h₁, hdeclare.append he₁⟩
  | worldEnd hd s₁ es hc => exact h.ended ⟨s₁, es, hc, rfl, rfl⟩
  | opened kind hk hd => exact h.opened kind
  | closed kind hd s₁ es hc => exact h.closed hc
  | objectBegin hd =>
      obtain ⟨h₁, -⟩ := h.opened .object
      refine ⟨⟨h₁.ctm, h₁.scopes, h₁.systems, h₁.camera, h₁.objects, ?_⟩, ?_⟩
      · intro o ho t ht
        rw [← Option.some.inj ho] at ht
        exact absurd ht List.not_mem_nil
      · exact AllTold.one (by simp [Event.told])
  | placed hd o ho =>
      have hobj := h.objects o (Table.mem_values_of_get? ho)
      refine ⟨h, AllTold.one ?_⟩
      intro t ht
      rcases List.mem_cons.mp ht with rfl | ht
      · exact h.ctm
      · exact hobj t ht
  | light hd r s₁ es hr hmem =>
      obtain ⟨h₁, he₁⟩ := h.recorded hr
      exact ⟨h₁, he₁.append (AllTold.one (by simp [Event.told, h₁.ctm]))⟩
  | areaLight hd r s₁ es hr hmem =>
      obtain ⟨h₁, he₁⟩ := h.recorded hr
      exact ⟨⟨h₁.ctm, h₁.scopes, h₁.systems, h₁.camera, h₁.objects, h₁.openObject⟩, he₁⟩
  | stated hd r s₁ es hr ho =>
      obtain ⟨h₁, he₁⟩ := h.recorded hr
      have hst : P (statedAs s₁ r d.span).transform := h₁.ctm
      exact ⟨⟨h₁.ctm, h₁.scopes, h₁.systems, h₁.camera, h₁.objects, h₁.openObject⟩,
        he₁.append (AllTold.one (by simp [Event.told, hst]))⟩
  | captured hd r s₁ es hr o ho =>
      obtain ⟨h₁, he₁⟩ := h.recorded hr
      have h₂ : AllHeld P (lightTaken s₁) :=
        ⟨h₁.ctm, h₁.scopes, h₁.systems, h₁.camera, h₁.objects, h₁.openObject⟩
      exact ⟨h₂.captured hP (h.openObject o ho) _ h₁.ctm, he₁⟩
  | directories hd dirs =>
      exact ⟨⟨h.ctm, h.scopes, h.systems, h.camera, h.objects, h.openObject⟩, AllTold.nil⟩

/-! ## Runs -/

theorem allHeld_initial (hP : IsCarried P) (dirs : DirectoryStack) :
    AllHeld P (EngineState.initial (K := K) dirs) := by
  refine ⟨hP.identity, ?_, ?_, ?_, ?_, ?_⟩ <;>
    simp [EngineState.initial, Table.empty, Table.values, RenderOptions.standard]

omit [Scalar K] in
theorem AllHeld.begun {s : EngineState K} (h : AllHeld P s) : AllHeld P { s with begun := true } :=
  ⟨h.ctm, h.scopes, h.systems, h.camera, h.objects, h.openObject⟩

variable {c : EngineContext} {s : EngineState K}

omit [Scalar K] in
theorem AllHeld.begin (h : AllHeld P s) :
    AllHeld P ((Engine.begin c).run s).state ∧ AllTold P ((Engine.begin c).run s).events := by
  obtain ⟨hstate, hevents⟩ := begin_run c s
  rw [hstate, hevents]
  refine ⟨h.begun, ?_⟩
  split
  · exact AllTold.nil
  · exact AllTold.one (by simp [Event.told])

/-- One directive, admitted or not. -/
theorem AllHeld.execute (hP : IsCarried P) (h : AllHeld P s) {d : Directive}
    (hmoved : ∀ t u : TransformSet K, P t → MovesTo d t u → P u) :
    AllHeld P (Engine.execute c d s).state ∧ AllTold P (Engine.execute c d s).events := by
  obtain ⟨hb, hbe⟩ := h.begin (c := c)
  have ha : AllHeld P (attempt c d ((Engine.begin c).run s).state).state ∧
      AllTold P (attempt c d ((Engine.begin c).run s).state).events := by
    rcases attempt_cases c d ((Engine.begin c).run s).state with ⟨-, -, he⟩ | ⟨-, hstate, hevents⟩
    · exact hb.effect hP (fun u => hmoved _ u hb.ctm) he
    · rw [hstate, hevents]
      exact ⟨hb, AllTold.nil⟩
  exact ⟨ha.1, hbe.append ha.2⟩

theorem allHeld_executeAll (hP : IsCarried P) {ds : List Directive} (h : AllHeld P s)
    (hmoved : ∀ d ∈ ds, ∀ t u : TransformSet K, P t → MovesTo d t u → P u) :
    AllHeld P (executeAll c ds s).state ∧ AllTold P (executeAll c ds s).events := by
  induction ds generalizing s with
  | nil => exact ⟨h, AllTold.nil⟩
  | cons d ds ih =>
      obtain ⟨hd, hds⟩ := List.forall_mem_cons.mp hmoved
      obtain ⟨hs, hes⟩ := h.execute (c := c) hP hd
      unfold executeAll Progress.andThen
      cases (Engine.execute c d s).rejection with
      | some r => exact ⟨hs, hes⟩
      | none =>
          obtain ⟨hs', hes'⟩ := ih hs hds
          exact ⟨hs', hes.append hes'⟩

omit [Scalar K] in
theorem AllHeld.finish (h : AllHeld P s) :
    AllHeld P (Engine.finish.run s).state ∧ AllTold P (Engine.finish.run s).events := by
  have hfinish : AllTold P [Event.finish (K := K)] := AllTold.one (by simp [Event.told])
  rcases finish_run s with ⟨hstate, hevents⟩ | ⟨es', hw, hevents⟩
  · rw [hstate, hevents]
    exact ⟨h, hfinish⟩
  · obtain ⟨hs, hes⟩ := h.ended hw
    rw [hevents]
    exact ⟨hs, hes.append hfinish⟩

variable {ds : List Directive}

theorem allHeld_started (hP : IsCarried P)
    (hmoved : ∀ d ∈ ds, ∀ t u : TransformSet K, P t → MovesTo d t u → P u)
    (dirs : DirectoryStack) :
    AllHeld P (started (K := K) c ds dirs).state ∧
      AllTold P (started (K := K) c ds dirs).events := by
  obtain ⟨hs, hes⟩ := allHeld_executeAll (c := c) hP (allHeld_initial hP dirs).begun hmoved
  rw [started_eq]
  exact ⟨hs, (AllTold.one (by simp [Event.told])).append hes⟩

/-- A whole run, whether it is refused or not. -/
theorem allHeld_run (hP : IsCarried P)
    (hmoved : ∀ d ∈ ds, ∀ t u : TransformSet K, P t → MovesTo d t u → P u)
    (dirs : DirectoryStack) :
    AllHeld P (run (K := K) c ds (.initial dirs)).state ∧
      AllTold P (run (K := K) c ds (.initial dirs)).events := by
  obtain ⟨hs, hes⟩ := allHeld_started (c := c) hP hmoved dirs
  have hrun : run (K := K) c ds (.initial dirs) =
      (started c ds dirs).andThen (Progress.ofAction finish) := rfl
  rw [hrun]
  unfold Progress.andThen
  cases (started (K := K) c ds dirs).rejection with
  | some r => exact ⟨hs, hes⟩
  | none =>
      obtain ⟨hf, hfe⟩ := hs.finish
      exact ⟨hf, hes.append hfe⟩

end Engine
end SceneReader
