import SceneReader.Proofs.Engine.Recording

/-!
# What directives do

Every directive has one of a few effects on the state and on what is reported.  The
effects are listed here once: the state after a directive as an update of the state before
it, and the events in their order.  Later proofs go through this list and open no action.

**Results.**
* `closed_closeScope`, `closedAll_closeScopes`: closing blocks, one and many.
* `perform_effect`: what is performed for a directive is an effect of the list.
-/

namespace SceneReader
namespace Engine

variable {K : Type}

/-! ## Opening and closing blocks -/

/-- Targets are told of a block: it is no object, and no object is open. -/
def isReported (kind : ScopeKind) (s : EngineState K) : Bool :=
  decide (kind ≠ .object) && s.openObject.isNone

/-- The state after a block is opened. -/
def opened (kind : ScopeKind) (s : EngineState K) : EngineState K :=
  { s with
    scopes := ⟨kind, s.ctm, isReported kind s⟩ :: s.scopes
    savedGraphics :=
      if kind = .attributes then s.graphics :: s.savedGraphics else s.savedGraphics }

/-- What targets are told of a block that is opened. -/
def openingEvents (kind : ScopeKind) (s : EngineState K) : List (Event K) :=
  if isReported kind s then [.beginScope kind s.ctm] else []

/-- What targets are told of a block that is closed. -/
def closingEvents (scope : Scope K) : List (Event K) :=
  if scope.reported then [.endScope scope.kind] else []

theorem openScope_run (kind : ScopeKind) (s : EngineState K) :
    ((openScope kind).run s).state = opened kind s ∧
      ((openScope kind).run s).events = openingEvents kind s := by
  obtain ⟨begun, phase, ctm, scopes, graphics, savedGraphics, systems, options, objects,
    openObject, media, dirs, meshes, files, made⟩ := s
  cases kind <;> cases openObject <;> exact ⟨rfl, rfl⟩

/-- Closing the innermost block, if there is one. -/
inductive Closed (s : EngineState K) : EngineState K → List (Event K) → Prop
  | nothing (hs : s.scopes = []) : Closed s s []
  | attributes (scope : Scope K) (rest : List (Scope K)) (hs : s.scopes = scope :: rest)
      (hk : scope.kind = .attributes) :
      Closed s (restoreGraphics { s with scopes := rest, ctm := scope.ctm })
        (closingEvents scope)
  | object (scope : Scope K) (rest : List (Scope K)) (o : ObjectDefinition K)
      (hs : s.scopes = scope :: rest) (hk : scope.kind = .object) (ho : s.openObject = some o) :
      Closed s
        { s with
          scopes := rest, ctm := scope.ctm, openObject := none
          objects := s.objects.put o.name o }
        (.objectEnd o :: closingEvents scope)
  | plain (scope : Scope K) (rest : List (Scope K)) (hs : s.scopes = scope :: rest)
      (hk : scope.kind ≠ .attributes) (ho : scope.kind = .object → s.openObject = none) :
      Closed s { s with scopes := rest, ctm := scope.ctm } (closingEvents scope)

theorem closed_closeScope (s : EngineState K) :
    Closed s (closeScope.run s).state (closeScope.run s).events := by
  unfold closeScope
  rw [Action.run_state_bind]
  cases hs : s.scopes with
  | nil => exact .nothing hs
  | cons scope rest =>
      dsimp only
      rw [Action.run_change_bind]
      cases hk : scope.kind with
      | attributes =>
          simpa [closingEvents, hk] using Closed.attributes scope rest hs hk
      | transform =>
          have hne : scope.kind ≠ .attributes := by simp [hk]
          have hno : scope.kind = .object → s.openObject = none := by simp [hk]
          simpa [closingEvents, hk] using Closed.plain scope rest hs hne hno
      | object =>
          cases ho : s.openObject with
          | none =>
              have hne : scope.kind ≠ .attributes := by simp [hk]
              simpa [closingEvents, hk, endObject, ho] using
                Closed.plain scope rest hs hne (fun _ => ho)
          | some o =>
              simpa [closingEvents, hk, endObject, ho] using Closed.object scope rest o hs hk ho

/-- Closing blocks one after the other. -/
inductive ClosedAll : EngineState K → EngineState K → List (Event K) → Prop
  | nil (s : EngineState K) : ClosedAll s s []
  | cons {s s₁ s₂ : EngineState K} {es₁ es₂ : List (Event K)} (first : Closed s s₁ es₁)
      (rest : ClosedAll s₁ s₂ es₂) : ClosedAll s s₂ (es₁ ++ es₂)

theorem closedAll_closeScopes (n : Nat) (s : EngineState K) :
    ClosedAll s ((closeScopes n).run s).state ((closeScopes n).run s).events := by
  induction n generalizing s with
  | zero => exact .nil s
  | succ n ih => exact .cons (closed_closeScope s) (ih _)

/-- Ending the world: all blocks are closed. -/
theorem endWorld_run (span : Span) (s : EngineState K) :
    ∃ s₁ es, ClosedAll s s₁ es ∧ ((endWorld span).run s).state = { s₁ with phase := .ended } ∧
      ((endWorld span).run s).events = es ++ [.worldEnd] := by
  unfold endWorld
  rw [Action.run_state_bind]
  by_cases h : s.scopes.length ≠ 0
  · refine ⟨_, _, closedAll_closeScopes s.scopes.length s, ?_, ?_⟩ <;>
      simp [h, Action.run_bind]
  · refine ⟨s, [], .nil s, ?_, ?_⟩ <;> simp [h]

/-! ## The effects of directives -/

section Effects

variable [Scalar K]

/-- The options with a camera placed, if there is none. -/
def cameraOptions (s : EngineState K) : RenderOptions K :=
  if s.options.cameraToWorld.isNone then { s.options with cameraToWorld := some .identity }
  else s.options

/-- The coordinate systems that every world has. -/
def worldSystems (s : EngineState K) : Table (TransformSet K) :=
  (if s.options.cameraToWorld.isNone then s.coordinateSystems.put "camera" .identity
    else s.coordinateSystems).put "world" .identity

/-- The state after the world begins. -/
def worldBegun (s : EngineState K) : EngineState K :=
  { s with
    phase := .world
    options := cameraOptions s
    coordinateSystems := worldSystems s
    ctm := .identity
    made := s.made + 1
    graphics := { s.graphics with material := some (.made (s.made + 1)) } }

/-- The material that a world starts with. -/
def defaultMaterial (s : EngineState K) : Resource K :=
  ⟨.made (s.made + 1), typedName Known.defaultMaterial (.made (s.made + 1)),
    Known.defaultMaterial, .empty, .material⟩

/-- The statement of a shape: an animated shape drops the pending area light. -/
def statedAs (s : EngineState K) (r : Resource K) (span : Option Span) : ShapeStatement K :=
  { statementOf s r span with
    areaLight := if s.ctm.isAnimated then none else s.graphics.areaLight }

/-- The state after a pending area light is taken. -/
def lightTaken {K : Type} (s : EngineState K) : EngineState K :=
  { s with graphics := { s.graphics with areaLight := none } }

/-- The state after a statement is added to the open object. -/
def captured (o : ObjectDefinition K) (st : ShapeStatement K) (s : EngineState K) :
    EngineState K :=
  { s with openObject := some { o with
      shapes := o.shapes ++ [{ st with transform := st.transform.relativeTo (objectBase s) }] } }

/-- Directives that open or close blocks, the world or directories. -/
def isStructural : DirectiveName → Bool
  | .worldBegin => true
  | .worldEnd => true
  | .attributeBegin => true
  | .attributeEnd => true
  | .transformBegin => true
  | .transformEnd => true
  | .objectBegin => true
  | .objectEnd => true
  | .workDirBegin => true
  | .workDirEnd => true
  | _ => false

/-- What a directive does to the state, and what it reports. -/
inductive Effect (d : Directive) (s : EngineState K) : EngineState K → List (Event K) → Prop
  /-- It is skipped. -/
  | skipped (hd : isStructural d.name = false) : Effect d s s []
  /-- A transform is composed into the current one. -/
  | composed (hd : isStructural d.name = false) (t : Transform K)
      (ht : d.name ≠ .transform ∧ motion? d = some (.ok t)) :
      Effect d s { s with ctm := s.ctm.compose t } []
  /-- A transform is put in the place of the current one. -/
  | replaced (hd : isStructural d.name = false) (t : Transform K)
      (ht : (d.name = .identity ∧ t = .identity) ∨
        (d.name = .transform ∧ motion? d = some (.ok t))) :
      Effect d s { s with ctm := s.ctm.replace t } []
  /-- A coordinate system is gone back to. -/
  | recalled (hd : d.name = .coordSysTransform) (t : TransformSet K)
      (ht : s.coordinateSystems.get? d.subject = some t) :
      Effect d s { s with ctm := { t with active := s.ctm.active } } []
  | activated (hd : d.name = .activeTransform) (h : ActiveHalves)
      (hh : activeHalves? d.subject = some h) :
      Effect d s { s with ctm := { s.ctm with active := h } } []
  /-- The current transform gets a name. -/
  | saved (hd : d.name = .coordinateSystem) :
      Effect d s { s with coordinateSystems := s.coordinateSystems.put d.subject s.ctm } []
  | timed (hd : d.name = .transformTimes) (a b : Float) :
      Effect d s { s with options := { s.options with startTime := a, stopTime := b } } []
  | setting (hd : isStructural d.name = false) (kind : SettingKind) (setting : RenderSetting)
      (s₁ : EngineState K) (es : List (Event K)) (hr : Recorded s s₁ es) :
      Effect d s { s₁ with options := s₁.options.set kind setting } (es ++ [.setting kind setting])
  | camera (hd : d.name = .camera) (setting : RenderSetting) (s₁ : EngineState K)
      (es : List (Event K)) (hr : Recorded s s₁ es) :
      Effect d s
        { s₁ with
          coordinateSystems := s₁.coordinateSystems.put "camera" s₁.ctm.invert
          options := s₁.options.setCamera setting s₁.ctm.invert }
        (es ++ [.camera setting s₁.ctm.invert])
  | medium (hd : d.name = .makeNamedMedium) (id : ResourceId) (s₁ : EngineState K)
      (es : List (Event K)) (hr : Recorded s s₁ es) :
      Effect d s { s₁ with media := s₁.media.put d.subject id } es
  /-- Materials, textures, media or the orientation of shapes change. -/
  | painted (hd : isStructural d.name = false) (g : GraphicsState K) (s₁ : EngineState K)
      (es : List (Event K)) (hr : Recorded s s₁ es) (hg : g.areaLight = s.graphics.areaLight) :
      Effect d s { s₁ with graphics := g } es
  | worldBegin (hd : d.name = .worldBegin) :
      Effect d s (worldBegun s) [.declare (defaultMaterial s), .worldBegin (cameraOptions s)]
  | worldEnd (hd : d.name = .worldEnd) (s₁ : EngineState K) (es : List (Event K))
      (hc : ClosedAll s s₁ es) : Effect d s { s₁ with phase := .ended } (es ++ [.worldEnd])
  | opened (kind : ScopeKind) (hk : kind ≠ .object) (hd : d.name = kind.opener) :
      Effect d s (opened kind s) (openingEvents kind s)
  | closed (kind : ScopeKind) (hd : d.name = kind.closer) (s₁ : EngineState K)
      (es : List (Event K)) (hc : Closed s s₁ es) : Effect d s s₁ es
  | objectBegin (hd : d.name = .objectBegin) :
      Effect d s { Engine.opened .object s with openObject := some ⟨d.subject, []⟩ }
        [.objectBegin d.subject]
  | placed (hd : d.name = .objectInstance) (o : ObjectDefinition K)
      (ho : s.objects.get? d.subject = some o) : Effect d s s [.placed o s.ctm]
  | light (hd : d.name = .lightSource) (r : Resource K) (s₁ : EngineState K)
      (es : List (Event K)) (hr : Recorded s s₁ es) (hmem : .declare r ∈ es) :
      Effect d s s₁ (es ++ [.light r s₁.ctm])
  /-- A light is declared and waits for a shape. -/
  | areaLight (hd : d.name = .areaLightSource) (r : Resource K) (s₁ : EngineState K)
      (es : List (Event K)) (hr : Recorded s s₁ es) (hmem : .declare r ∈ es) :
      Effect d s { s₁ with graphics := { s₁.graphics with areaLight := some r } } es
  /-- A shape is stated in the world. -/
  | stated (hd : d.name = .shape) (r : Resource K) (s₁ : EngineState K) (es : List (Event K))
      (hr : Recorded s s₁ es) (ho : s.openObject = none) :
      Effect d s (lightTaken s₁) (es ++ [.shape (statedAs s₁ r d.span)])
  /-- A shape is added to the open object. -/
  | captured (hd : d.name = .shape) (r : Resource K) (s₁ : EngineState K)
      (es : List (Event K)) (hr : Recorded s s₁ es) (o : ObjectDefinition K)
      (ho : s.openObject = some o) :
      Effect d s (captured o (statedAs s₁ r d.span) (lightTaken s₁)) es
  | directories (hd : d.name = .workDirBegin ∨ d.name = .workDirEnd) (dirs : DirectoryStack) :
      Effect d s { s with dirs := dirs } []

variable {c : EngineContext} {d : Directive} (s : EngineState K)

/-- The action has an effect of the list on every state. -/
def HasEffect (d : Directive) (a : Action K Unit) : Prop :=
  ∀ s, Effect d s (a.run s).state (a.run s).events

theorem hasEffect_warn (w : Caution) (hd : isStructural d.name = false) :
    HasEffect d (warn (K := K) c d w) := fun _ => .skipped hd

theorem hasEffect_move (replaces : Bool) (hd : isStructural d.name = false)
    (hn : replaces = true ↔ d.name = .transform) : HasEffect d (move (K := K) c d replaces) := by
  intro s
  unfold move
  split
  · rename_i t ht
    cases replaces
    · exact .composed hd t ⟨fun h => Bool.false_ne_true (hn.mpr h), ht⟩
    · exact .replaced hd t (Or.inr ⟨hn.mp rfl, ht⟩)
  · exact .skipped hd
  · exact .skipped hd

theorem hasEffect_useCoordinateSystem (hd : d.name = .coordSysTransform) :
    HasEffect d (useCoordinateSystem (K := K) c d) := by
  intro s
  unfold useCoordinateSystem
  rw [Action.run_state_bind]
  split
  · exact .skipped (by rw [hd]; rfl)
  · rename_i t ht
    exact .recalled hd t ht

theorem hasEffect_activate (hd : d.name = .activeTransform) :
    HasEffect d (activate (K := K) d) := by
  intro s
  unfold activate
  split
  · rename_i h hh
    exact .activated hd h hh
  · exact .skipped (by rw [hd]; rfl)

theorem hasEffect_setTimes (hd : d.name = .transformTimes) :
    HasEffect d (setTimes (K := K) d) := by
  intro s
  unfold setTimes
  split
  · exact .timed hd _ _
  · exact .skipped (by rw [hd]; rfl)

theorem hasEffect_makeSetting (kind : SettingKind) (hd : isStructural d.name = false) :
    HasEffect d (makeSetting (K := K) c d kind) := fun s =>
  .setting hd kind _ _ _ (records_registerFiles c d [] s)

theorem hasEffect_placeCamera (hd : d.name = .camera) :
    HasEffect d (placeCamera (K := K) c d) := fun s =>
  .camera hd _ _ _ (records_registerFiles c d [] s)

theorem hasEffect_makeMedium (hd : d.name = .makeNamedMedium) :
    HasEffect d (makeMedium (K := K) c d) := by
  intro s
  have hr := records_registerFiles c d [] s
  unfold makeMedium
  rw [Action.run_bind]
  exact .medium hd _ _ _ (hr.trans (Recorded.one _ _ _ _ rfl))

theorem hasEffect_setMedia (hd : isStructural d.name = false) :
    HasEffect d (setMedia (K := K) d) := fun s =>
  .painted hd _ s [] (Recorded.refl s) rfl

theorem beginWorld_run (s : EngineState K) :
    (beginWorld.run s).state = worldBegun s ∧
      (beginWorld.run s).events =
        [.declare (defaultMaterial s), .worldBegin (cameraOptions s)] := by
  unfold beginWorld worldBegun worldSystems cameraOptions
  rw [Action.run_change_bind, Action.run_state_bind]
  split
  · exact ⟨rfl, rfl⟩
  · exact ⟨rfl, rfl⟩

theorem hasEffect_beginWorld (hd : d.name = .worldBegin) :
    HasEffect d (beginWorld (K := K)) := by
  intro s
  obtain ⟨hs, he⟩ := beginWorld_run s
  rw [hs, he]
  exact .worldBegin hd

theorem hasEffect_openScope (kind : ScopeKind) (hk : kind ≠ .object) (hd : d.name = kind.opener) :
    HasEffect d (openScope (K := K) kind) := by
  intro s
  obtain ⟨hs, he⟩ := openScope_run kind s
  rw [hs, he]
  exact .opened kind hk hd

theorem hasEffect_closeScope (kind : ScopeKind) (hd : d.name = kind.closer) :
    HasEffect d (closeScope (K := K)) := fun s => .closed kind hd _ _ (closed_closeScope s)

theorem hasEffect_endWorld (span : Span) (hd : d.name = .worldEnd) :
    HasEffect d (endWorld (K := K) span) := by
  intro s
  obtain ⟨s₁, es, hc, hs, he⟩ := endWorld_run span s
  rw [hs, he]
  exact .worldEnd hd s₁ es hc

omit [Scalar K] in
theorem beginObject_run (c : EngineContext) (d : Directive) (s : EngineState K) :
    ((beginObject c d).run s).state =
        { Engine.opened .object s with openObject := some ⟨d.subject, []⟩ } ∧
      ((beginObject c d).run s).events = [.objectBegin d.subject] := by
  obtain ⟨hs, he⟩ := openScope_run .object s
  have hn : openingEvents .object s = [] := rfl
  unfold beginObject
  rw [Action.run_state_bind]
  split
  · rw [run_warn_bind, Action.run_bind, hs, he, hn]
    exact ⟨rfl, rfl⟩
  · rw [Action.run_bind, Action.run_bind, hs, he, hn]
    exact ⟨rfl, rfl⟩

theorem hasEffect_beginObject (hd : d.name = .objectBegin) :
    HasEffect d (beginObject (K := K) c d) := by
  intro s
  obtain ⟨hs, he⟩ := beginObject_run c d s
  rw [hs, he]
  exact .objectBegin hd

theorem hasEffect_placeObject (hd : d.name = .objectInstance) :
    HasEffect d (placeObject (K := K) c d) := by
  intro s
  unfold placeObject
  rw [Action.run_state_bind]
  split
  · exact .skipped (by rw [hd]; rfl)
  · rename_i o ho
    exact .placed hd o ho

theorem hasEffect_setMaterial (id : Option ResourceId) (hd : isStructural d.name = false) :
    HasEffect d (setMaterial (K := K) id) := fun s =>
  .painted hd _ s [] (Recorded.refl s) rfl

/-- A resource is declared and the graphics state changed, after resources are put on
record. -/
theorem effect_painted_declare (hd : isStructural d.name = false) {s s₁ : EngineState K}
    {es : List (Event K)} (hr : Recorded s s₁ es) (r : Resource K)
    (hid : r.id = .made (s₁.made + 1)) (g : GraphicsState K)
    (hg : g.areaLight = s₁.graphics.areaLight) :
    Effect d s { s₁ with made := s₁.made + 1, graphics := g } (es ++ [.declare r]) := by
  have hs : s₁.graphics = s.graphics := by
    cases hr
    rfl
  rw [hs] at hg
  exact .painted hd g _ _ (hr.trans (Recorded.one s₁ r s₁.declaredFiles s₁.meshes hid)) hg

theorem hasEffect_makeMaterial (hd : isStructural d.name = false) :
    HasEffect d (makeMaterial (K := K) c d) := by
  intro s
  have hr := records_registerFiles c d [] s
  unfold makeMaterial
  dsimp only
  split
  · exact hasEffect_setMaterial none hd s
  · split
    · rw [Action.run_bind]
      exact effect_painted_declare hd hr _ rfl _ rfl
    · exact .skipped hd

theorem hasEffect_makeNamedMaterial (hd : isStructural d.name = false) :
    HasEffect d (makeNamedMaterial (K := K) c d) := by
  intro s
  have hr := records_registerFiles c d [] s
  unfold makeNamedMaterial
  dsimp only
  split
  · exact .skipped hd
  · split
    · rw [Action.run_state_bind]
      split
      · rw [run_warn_bind, Action.run_bind]
        exact effect_painted_declare hd hr _ rfl _ rfl
      · rw [Action.run_bind, Action.run_bind]
        exact effect_painted_declare hd hr _ rfl _ rfl
    · exact .skipped hd

theorem hasEffect_useNamedMaterial (hd : isStructural d.name = false) :
    HasEffect d (useNamedMaterial (K := K) c d) := by
  intro s
  unfold useNamedMaterial
  dsimp only
  split
  · exact hasEffect_setMaterial none hd s
  · rw [Action.run_state_bind]
    split
    · exact .skipped hd
    · exact hasEffect_setMaterial _ hd s

theorem hasEffect_makeTexture (hd : isStructural d.name = false) :
    HasEffect d (makeTexture (K := K) c d) := by
  intro s
  have hr := records_registerFiles c d ["filename"] s
  unfold makeTexture
  split
  · rename_i name valueType type _
    rw [Action.run_bind]
    generalize ((registerFiles c d ["filename"]).run s).state = s₁ at hr ⊢
    rw [run_fresh_bind, Action.run_bind]
    obtain ⟨hs, he⟩ := textureImage_run c d type ((registerFiles c d ["filename"]).run s).value
      { s₁ with made := s₁.made + 1 }
    rw [hs, he, Action.run_state_bind]
    split
    · rw [run_warn_bind, run_declare_bind]
      exact effect_painted_declare hd hr _ rfl _ rfl
    · rw [run_declare_bind]
      exact effect_painted_declare hd hr _ rfl _ rfl
  · exact .skipped hd

/-- A light is declared and placed. -/
theorem effect_light_declare (hd : d.name = .lightSource) {s s₁ : EngineState K}
    {es : List (Event K)} (hr : Recorded s s₁ es) (r : Resource K)
    (hid : r.id = .made (s₁.made + 1)) :
    Effect d s { s₁ with made := s₁.made + 1 } (es ++ [.declare r, .light r s₁.ctm]) := by
  have hone := hr.trans (Recorded.one s₁ r s₁.declaredFiles s₁.meshes hid)
  have h := Effect.light hd r _ _ hone (by simp)
  rw [List.append_assoc] at h
  exact h

theorem hasEffect_placeLight (hd : d.name = .lightSource) :
    HasEffect d (placeLight (K := K) c d) := by
  intro s
  have hr := records_registerFiles c d [] s
  unfold placeLight
  dsimp only
  split
  · rw [Action.run_bind, run_fresh_bind]
    exact effect_light_declare hd hr _ rfl
  · exact .skipped (by rw [hd]; rfl)

/-- A light is declared and waits for a shape. -/
theorem effect_areaLight_declare (hd : d.name = .areaLightSource) {s s₁ : EngineState K}
    {es : List (Event K)} (hr : Recorded s s₁ es) (r : Resource K)
    (hid : r.id = .made (s₁.made + 1)) :
    Effect d s
      { s₁ with made := s₁.made + 1, graphics := { s₁.graphics with areaLight := some r } }
      (es ++ [.declare r]) := by
  have hone := hr.trans (Recorded.one s₁ r s₁.declaredFiles s₁.meshes hid)
  exact .areaLight hd r _ _ hone (by simp)

theorem hasEffect_makeAreaLight (hd : d.name = .areaLightSource) :
    HasEffect d (makeAreaLight (K := K) c d) := by
  intro s
  have hr := records_registerFiles c d [] s
  unfold makeAreaLight
  dsimp only
  split
  · rw [Action.run_bind, run_fresh_bind]
    exact effect_areaLight_declare hd hr _ rfl
  · exact .skipped (by rw [hd]; rfl)

/-! ## Shapes -/

theorem statedAs_eq (s : EngineState K) (r : Resource K) (span : Option Span) :
    statedAs s r span =
      if (statementOf s r span).areaLight.isSome && (statementOf s r span).transform.isAnimated
        then { statementOf s r span with areaLight := none } else statementOf s r span := by
  unfold statedAs statementOf
  by_cases hm : s.ctm.isAnimated = true
  · cases hl : s.graphics.areaLight <;> simp [hm]
  · simp [hm]

theorem effect_addStatement (hd : d.name = .shape) {s s₁ : EngineState K}
    {es : List (Event K)} (hr : Recorded s s₁ es) (r : Resource K) :
    Effect d s ((addStatement (statedAs s₁ r d.span)).run (lightTaken s₁)).state
      (es ++ ((addStatement (statedAs s₁ r d.span)).run (lightTaken s₁)).events) := by
  have hopen : (lightTaken s₁).openObject = s.openObject := by
    cases hr
    rfl
  unfold addStatement
  rw [Action.run_state_bind]
  split
  · rename_i o ho
    have h := Effect.captured hd r s₁ es hr o (hopen.symm.trans ho)
    simpa [captured] using h
  · rename_i ho
    exact .stated hd r s₁ es hr (hopen.symm.trans ho)

theorem effect_stateShape (hd : d.name = .shape) {s s₁ : EngineState K}
    {es : List (Event K)} (hr : Recorded s s₁ es) (r : Resource K) :
    Effect d s ((stateShape c d r).run s₁).state (es ++ ((stateShape c d r).run s₁).events) := by
  have h := effect_addStatement hd hr r
  rw [statedAs_eq] at h
  unfold stateShape
  rw [Action.run_state_bind]
  dsimp only
  rw [Action.run_change_bind]
  split
  · rename_i hc
    rw [if_pos hc] at h
    exact h
  · rename_i hc
    rw [if_neg hc] at h
    exact h

/-- Nothing is done but putting resources on record. -/
theorem effect_recorded (hd : isStructural d.name = false) {s s₁ : EngineState K}
    {es : List (Event K)} (hr : Recorded s s₁ es) : Effect d s s₁ es := by
  have h := Effect.painted hd s.graphics s₁ es hr rfl
  cases hr
  exact h

theorem hasEffect_bind_stateShape (hd : d.name = .shape) {a : Action K (Option (Resource K))}
    (ha : Records a) :
    HasEffect d (do
      let made ← a
      match made with
      | none => return
      | some r => stateShape c d r) := by
  intro s
  rw [Action.run_bind]
  dsimp only
  split
  · have h := effect_recorded (d := d) (by rw [hd]; rfl) (ha s)
    rw [Action.run_pure, List.append_nil]
    exact h
  · exact effect_stateShape hd (ha s) _

theorem hasEffect_makeShape (hd : d.name = .shape) :
    HasEffect d (makeShape (K := K) c d) := by
  unfold makeShape
  dsimp only
  split
  · exact hasEffect_warn _ (by rw [hd]; rfl)
  · split
    · exact hasEffect_bind_stateShape hd (records_meshShape c d)
    · exact hasEffect_bind_stateShape hd (records_plainShape _ _ _)

/-- What a directive does is one of the effects. -/
theorem perform_effect (c : EngineContext) (d : Directive) :
    HasEffect d (perform (K := K) c d) := by
  unfold perform
  have plain {n : DirectiveName} (hd : d.name = n) (hn : isStructural n = false) :
      isStructural d.name = false := by rw [hd, hn]
  cases hd : d.name with
  | identity => exact fun _ => .replaced (plain hd rfl) .identity (Or.inl ⟨hd, rfl⟩)
  | translate => exact hasEffect_move false (plain hd rfl) (by simp [hd])
  | scale => exact hasEffect_move false (plain hd rfl) (by simp [hd])
  | rotate => exact hasEffect_move false (plain hd rfl) (by simp [hd])
  | lookAt => exact hasEffect_move false (plain hd rfl) (by simp [hd])
  | concatTransform => exact hasEffect_move false (plain hd rfl) (by simp [hd])
  | transform => exact hasEffect_move true (plain hd rfl) (by simp [hd])
  | coordinateSystem => exact fun _ => .saved hd
  | coordSysTransform => exact hasEffect_useCoordinateSystem hd
  | transformTimes => exact hasEffect_setTimes hd
  | activeTransform => exact hasEffect_activate hd
  | camera => exact hasEffect_placeCamera hd
  | film => exact hasEffect_makeSetting .film (plain hd rfl)
  | sampler => exact hasEffect_makeSetting .sampler (plain hd rfl)
  | accelerator => exact hasEffect_makeSetting .accelerator (plain hd rfl)
  | integrator => exact hasEffect_makeSetting .integrator (plain hd rfl)
  | pixelFilter => exact hasEffect_makeSetting .pixelFilter (plain hd rfl)
  | makeNamedMedium => exact hasEffect_makeMedium hd
  | mediumInterface => exact hasEffect_setMedia (plain hd rfl)
  | worldBegin => exact hasEffect_beginWorld hd
  | worldEnd => exact hasEffect_endWorld _ hd
  | attributeBegin => exact hasEffect_openScope .attributes (by decide) hd
  | attributeEnd => exact hasEffect_closeScope .attributes hd
  | transformBegin => exact hasEffect_openScope .transform (by decide) hd
  | transformEnd => exact hasEffect_closeScope .transform hd
  | texture => exact hasEffect_makeTexture (plain hd rfl)
  | material => exact hasEffect_makeMaterial (plain hd rfl)
  | makeNamedMaterial => exact hasEffect_makeNamedMaterial (plain hd rfl)
  | namedMaterial => exact hasEffect_useNamedMaterial (plain hd rfl)
  | lightSource => exact hasEffect_placeLight hd
  | areaLightSource => exact hasEffect_makeAreaLight hd
  | shape => exact hasEffect_makeShape hd
  | reverseOrientation => exact fun s => .painted (plain hd rfl) _ s [] (Recorded.refl s) rfl
  | objectBegin => exact hasEffect_beginObject hd
  | objectEnd => exact hasEffect_closeScope .object hd
  | objectInstance => exact hasEffect_placeObject hd
  | includeFile => exact hasEffect_warn _ (plain hd rfl)
  | workDirBegin => exact fun _ => .directories (Or.inl hd) _
  | workDirEnd => exact fun _ => .directories (Or.inr hd) _

end Effects

end Engine
end SceneReader
