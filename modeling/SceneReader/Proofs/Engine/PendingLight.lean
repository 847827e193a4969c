import SceneReader.Proofs.Engine.Blocks

/-!
# The pending area light

An area light waits in the graphics state for the next shape, which takes it.  Attribute
blocks save the graphics state when they begin and restore it when they end, and with it
the light that was pending.  Seen from its lights, every directive does one of a few
things to a run: the light that is pending, the lights that are saved, and the lights that
statements of shapes have.

**Results.**
* `statements_closedAll`: closing blocks makes no statements and loses none.
* `lightStep_of_effect`: what a directive does to lights.
* `ended_of_effect`: after the end of the world it stays ended.
* `execute_lights`: what executing a directive does to lights.
-/

namespace SceneReader

variable {K : Type}

/-- The area light of a shape. -/
def ShapeStatement.light? (st : ShapeStatement K) : Option ResourceId :=
  st.areaLight.map (·.id)

/-- The statements of shapes that an event tells. -/
def Event.statements : Event K → List (ShapeStatement K)
  | .shape statement => [statement]
  | .objectEnd definition => definition.shapes
  | _ => []

namespace EngineState

/-- The area light that waits for a shape. -/
def pending? (s : EngineState K) : Option ResourceId := s.graphics.areaLight.map (·.id)

/-- The area lights that were pending where the open attribute blocks began, the innermost
first. -/
def savedLights (s : EngineState K) : List (Option ResourceId) :=
  s.savedGraphics.map fun g => g.areaLight.map (·.id)

/-- The statements of the object that is being defined. -/
def openStatements (s : EngineState K) : List (ShapeStatement K) :=
  match s.openObject with
  | some o => o.shapes
  | none => []

end EngineState

namespace Engine

/-- The statements that events tell and those of the object that is being defined. -/
def statementsOf (es : List (Event K)) (s : EngineState K) : List (ShapeStatement K) :=
  es.flatMap Event.statements ++ s.openStatements

theorem statementsOf_append (es es' : List (Event K)) (s : EngineState K) :
    statementsOf (es ++ es') s = es.flatMap Event.statements ++ statementsOf es' s := by
  unfold statementsOf
  rw [List.flatMap_append, List.append_assoc]

/-! ## Resources and blocks -/

/-- Putting resources on record leaves lights and statements alone. -/
theorem Recorded.lights {s s' : EngineState K} {es : List (Event K)} (h : Recorded s s' es) :
    s'.graphics = s.graphics ∧ s'.savedGraphics = s.savedGraphics ∧ s.made ≤ s'.made ∧
      s'.openObject = s.openObject ∧ es.flatMap Event.statements = [] := by
  obtain ⟨made, files, meshes, declared, hmade, -⟩ := h
  refine ⟨rfl, rfl, hmade, rfl, ?_⟩
  rw [List.flatMap_map]
  exact List.flatMap_eq_nil_iff.mpr fun r _ => rfl

theorem statements_closingEvents (scope : Scope K) :
    (closingEvents scope).flatMap Event.statements = [] := by
  unfold closingEvents
  split <;> rfl

/-- Closing a block tells the statements of the object that it completes, and no others. -/
theorem statements_closed {s s' : EngineState K} {es : List (Event K)} (h : Closed s s' es) :
    statementsOf es s' = s.openStatements := by
  unfold statementsOf
  cases h with
  | nothing hs => rfl
  | attributes scope rest hs hk =>
      rw [statements_closingEvents]
      unfold restoreGraphics
      split <;> rfl
  | object scope rest o hs hk ho =>
      rw [List.flatMap_cons, statements_closingEvents]
      simp [Event.statements, EngineState.openStatements, ho]
  | plain scope rest hs hk ho =>
      rw [statements_closingEvents]
      rfl

theorem statements_closedAll {s s' : EngineState K} {es : List (Event K)}
    (h : ClosedAll s s' es) : statementsOf es s' = s.openStatements := by
  induction h with
  | nil s => rfl
  | @cons s s₁ s₂ es₁ es₂ first rest ih =>
      rw [statementsOf_append, ih]
      exact statements_closed first

theorem statements_ended {s s' : EngineState K} {es : List (Event K)} (h : WorldEnded s s' es) :
    statementsOf es s' = s.openStatements := by
  obtain ⟨s₁, es₁, hc, rfl, rfl⟩ := h
  rw [← statements_closedAll hc, statementsOf_append]
  rfl

/-! ## Directives -/

/-- What a directive does to lights, and the statements that it makes. -/
inductive LightStep (d : Directive) (s s' : EngineState K) : List (ShapeStatement K) → Prop
  | kept (hbegin : d.name ≠ .attributeBegin) (hend : d.name ≠ .attributeEnd)
      (hpending : s'.pending? = s.pending?) (hsaved : s'.savedLights = s.savedLights) :
      LightStep d s s' []
  /-- A new area light is pending. -/
  | lit (hd : d.name = .areaLightSource) (n : Nat) (hlt : s.made < n) (hle : n ≤ s'.made)
      (hpending : s'.pending? = some (.made n)) (hsaved : s'.savedLights = s.savedLights) :
      LightStep d s s' []
  /-- A shape takes the pending light, or drops it. -/
  | shaped (hd : d.name = .shape) (st : ShapeStatement K)
      (htaken : ∀ id ∈ st.light?, s.pending? = some id) (hpending : s'.pending? = none)
      (hsaved : s'.savedLights = s.savedLights) : LightStep d s s' [st]
  | opened (hd : d.name = .attributeBegin) (hpending : s'.pending? = s.pending?)
      (hsaved : s'.savedLights = s.pending? :: s.savedLights) : LightStep d s s' []
  | closed (hd : d.name = .attributeEnd)
      (hsaved : s.savedLights = s'.pending? :: s'.savedLights) : LightStep d s s' []
  /-- No graphics state was saved. -/
  | bottom (hd : d.name = .attributeEnd) (hsaved : s.savedLights = [])
      (hpending : s'.pending? = s.pending?) (hempty : s'.savedLights = []) :
      LightStep d s s' []
  /-- The world ends. -/
  | ended (hd : d.name = .worldEnd) (hphase : s'.phase = .ended) : LightStep d s s' []

/-- A directive that neither opens nor closes blocks and leaves the graphics state alone. -/
theorem LightStep.plain {d : Directive} (hd : isStructural d.name = false) {s s' : EngineState K}
    (hpending : s'.pending? = s.pending?) (hsaved : s'.savedLights = s.savedLights) :
    LightStep d s s' [] := by
  refine .kept ?_ ?_ hpending hsaved
  · intro h
    rw [h] at hd
    cases hd
  · intro h
    rw [h] at hd
    cases hd

theorem made_closed {s s' : EngineState K} {es : List (Event K)} (h : Closed s s' es) :
    s'.made = s.made := by
  cases h with
  | nothing hs => rfl
  | attributes scope rest hs hk =>
      unfold restoreGraphics
      split <;> rfl
  | object scope rest o hs hk ho => rfl
  | plain scope rest hs hk ho => rfl

theorem made_closedAll {s s' : EngineState K} {es : List (Event K)} (h : ClosedAll s s' es) :
    s'.made = s.made := by
  induction h with
  | nil s => rfl
  | cons first rest ih => rw [ih, made_closed first]

/-- A block is closed by the directive for its kind. -/
theorem lightStep_closed {d : Directive} {s s' : EngineState K} {es : List (Event K)}
    {kind : ScopeKind} (hd : d.name = kind.closer)
    (htop : ∃ scope rest, s.scopes = scope :: rest ∧ scope.kind = kind) (hc : Closed s s' es) :
    LightStep d s s' [] := by
  obtain ⟨scope, rest, hscopes, hkind⟩ := htop
  cases hc with
  | nothing hs =>
      rw [hs] at hscopes
      cases hscopes
  | attributes scope rest hs hk =>
      rw [hs] at hscopes
      cases hscopes
      rw [← hkind, hk] at hd
      unfold restoreGraphics
      split
      · rename_i hnone
        have hnone : s.savedGraphics = [] := hnone
        refine .bottom hd ?_ rfl ?_ <;> simp [EngineState.savedLights, hnone]
      · rename_i g gs hsome
        have hsome : s.savedGraphics = g :: gs := hsome
        refine .closed hd ?_
        simp [EngineState.savedLights, hsome, EngineState.pending?]
  | object scope rest o hs hk ho =>
      rw [hs] at hscopes
      cases hscopes
      rw [← hkind, hk] at hd
      exact .kept (by rw [hd]; decide) (by rw [hd]; decide) rfl rfl
  | plain scope rest hs hk ho =>
      rw [hs] at hscopes
      cases hscopes
      rw [hkind] at hk
      refine .kept ?_ ?_ rfl rfl
      · rw [hd]
        cases kind <;> decide
      · rw [hd]
        cases kind with
        | attributes => exact absurd rfl hk
        | transform => decide
        | object => decide

section Admitted

variable [Scalar K] {c : EngineContext} {d : Directive} {s : EngineState K}

omit [Scalar K] in
theorem openStatements_of_recorded {s₁ : EngineState K} {es : List (Event K)}
    (hr : Recorded s s₁ es) : s₁.openStatements = s.openStatements := by
  unfold EngineState.openStatements
  rw [hr.lights.2.2.2.1]

omit [Scalar K] in
/-- Putting resources on record makes no statements. -/
theorem statementsOf_recorded {s₁ s' : EngineState K} {es : List (Event K)}
    (hr : Recorded s s₁ es) (es' : List (Event K)) :
    statementsOf (es ++ es') s' = statementsOf es' s' := by
  rw [statementsOf_append, hr.lights.2.2.2.2, List.nil_append]

omit [Scalar K] in
/-- A resource that is declared is a new one. -/
theorem fresh_of_recorded {s₁ : EngineState K} {es : List (Event K)} (hr : Recorded s s₁ es)
    {r : Resource K} (hmem : .declare r ∈ es) :
    ∃ n, r.id = .made n ∧ s.made < n ∧ n ≤ s₁.made := by
  obtain ⟨made, files, meshes, declared, -, hids⟩ := hr
  obtain ⟨r', hr', heq⟩ := List.mem_map.mp hmem
  cases heq
  exact hids r hr'

/-- A shape has the pending light, unless it is animated. -/
theorem light?_statedAs (s₁ : EngineState K) (r : Resource K) (span : Option Span) :
    ∀ id ∈ (statedAs s₁ r span).light?, s₁.pending? = some id := by
  intro id hid
  unfold statedAs ShapeStatement.light? at hid
  dsimp only at hid
  split at hid
  · cases hid
  · exact hid

/-- What a directive does to lights. -/
theorem lightStep_of_effect {s' : EngineState K} {es : List (Event K)}
    (hp : permit c s d = .ok ()) (he : Effect d s s' es) :
    ∃ new, LightStep d s s' new ∧ s.made ≤ s'.made ∧
      statementsOf es s' = s.openStatements ++ new := by
  have still {s₁ : EngineState K} {es₁ : List (Event K)} (hr : Recorded s s₁ es₁) :
      s₁.pending? = s.pending? ∧ s₁.savedLights = s.savedLights := by
    obtain ⟨hg, hsaved, -⟩ := hr.lights
    unfold EngineState.pending? EngineState.savedLights
    rw [hg, hsaved]
    exact ⟨rfl, rfl⟩
  have same : s.openStatements = s.openStatements ++ [] := (List.append_nil _).symm
  have recorded {s₁ s₂ : EngineState K} {es₁ : List (Event K)} (hr : Recorded s s₁ es₁)
      (hopen : s₂.openStatements = s₁.openStatements) :
      statementsOf es₁ s₂ = s.openStatements ++ [] := by
    rw [← List.append_nil es₁, statementsOf_recorded hr, List.append_nil]
    exact hopen.trans (openStatements_of_recorded hr)
  cases he with
  | skipped hd => exact ⟨[], .plain hd rfl rfl, Nat.le_refl _, same⟩
  | composed hd t ht => exact ⟨[], .plain hd rfl rfl, Nat.le_refl _, same⟩
  | replaced hd t ht => exact ⟨[], .plain hd rfl rfl, Nat.le_refl _, same⟩
  | recalled hd t ht =>
      exact ⟨[], .plain (by rw [hd]; rfl) rfl rfl, Nat.le_refl _, same⟩
  | activated hd halves hh =>
      exact ⟨[], .plain (by rw [hd]; rfl) rfl rfl, Nat.le_refl _, same⟩
  | saved hd => exact ⟨[], .plain (by rw [hd]; rfl) rfl rfl, Nat.le_refl _, same⟩
  | timed hd a b => exact ⟨[], .plain (by rw [hd]; rfl) rfl rfl, Nat.le_refl _, same⟩
  | setting hd kind setting s₁ es hr =>
      obtain ⟨hpending, hsaved⟩ := still hr
      refine ⟨[], .plain hd hpending hsaved, hr.lights.2.2.1, ?_⟩
      rw [statementsOf_recorded hr]
      exact (openStatements_of_recorded hr).trans same
  | camera hd setting s₁ es hr =>
      obtain ⟨hpending, hsaved⟩ := still hr
      refine ⟨[], .plain (by rw [hd]; rfl) hpending hsaved, hr.lights.2.2.1, ?_⟩
      rw [statementsOf_recorded hr]
      exact (openStatements_of_recorded hr).trans same
  | medium hd id s₁ es hr =>
      obtain ⟨hpending, hsaved⟩ := still hr
      exact ⟨[], .plain (by rw [hd]; rfl) hpending hsaved, hr.lights.2.2.1, recorded hr rfl⟩
  | painted hd g s₁ es hr hg =>
      obtain ⟨hpending, hsaved⟩ := still hr
      refine ⟨[], .plain hd ?_ hsaved, hr.lights.2.2.1, recorded hr rfl⟩
      unfold EngineState.pending?
      rw [hg]
  | worldBegin hd =>
      exact ⟨[], .kept (by rw [hd]; decide) (by rw [hd]; decide) rfl rfl, Nat.le_succ _, same⟩
  | worldEnd hd s₁ es hc =>
      have hst := statements_ended ⟨s₁, es, hc, rfl, rfl⟩
      refine ⟨[], .ended hd rfl, Nat.le_of_eq (made_closedAll hc).symm, ?_⟩
      rw [hst, List.append_nil]
  | opened kind hk hd =>
      have hst : statementsOf (openingEvents kind s) (opened kind s) = s.openStatements := by
        unfold statementsOf openingEvents
        split <;> rfl
      rw [hst]
      refine ⟨[], ?_, Nat.le_refl _, same⟩
      cases kind with
      | attributes => exact .opened hd rfl rfl
      | transform => exact .kept (by rw [hd]; decide) (by rw [hd]; decide) rfl rfl
      | object => exact absurd rfl hk
  | closed kind hd s₁ es hc =>
      refine ⟨[], lightStep_closed hd (top_of_permit_closer hp hd) hc,
        Nat.le_of_eq (made_closed hc).symm, ?_⟩
      rw [statements_closed hc, List.append_nil]
  | objectBegin hd =>
      refine ⟨[], .kept (by rw [hd]; decide) (by rw [hd]; decide) rfl rfl, Nat.le_refl _, ?_⟩
      have hopen := openObject_of_permit_objectBegin hp hd
      unfold statementsOf EngineState.openStatements
      rw [hopen]
      rfl
  | placed hd o ho => exact ⟨[], .plain (by rw [hd]; rfl) rfl rfl, Nat.le_refl _, same⟩
  | light hd r s₁ es hr hmem =>
      obtain ⟨hpending, hsaved⟩ := still hr
      refine ⟨[], .plain (by rw [hd]; rfl) hpending hsaved, hr.lights.2.2.1, ?_⟩
      rw [statementsOf_recorded hr]
      exact (openStatements_of_recorded hr).trans same
  | areaLight hd r s₁ es hr hmem =>
      obtain ⟨-, hsaved⟩ := still hr
      obtain ⟨n, hid, hlt, hle⟩ := fresh_of_recorded hr hmem
      refine ⟨[], .lit hd n hlt hle ?_ hsaved, hr.lights.2.2.1, recorded hr rfl⟩
      unfold EngineState.pending?
      rw [← hid]
      rfl
  | stated hd r s₁ es hr ho =>
      obtain ⟨hpending, hsaved⟩ := still hr
      refine ⟨[statedAs s₁ r d.span], .shaped hd _ ?_ rfl hsaved, hr.lights.2.2.1, ?_⟩
      · rw [← hpending]
        exact light?_statedAs s₁ r d.span
      · have hnone : s₁.openObject = none := hr.lights.2.2.2.1.trans ho
        rw [statementsOf_recorded hr]
        unfold statementsOf EngineState.openStatements lightTaken
        rw [ho, hnone]
        rfl
  | captured hd r s₁ es hr o ho =>
      obtain ⟨hpending, hsaved⟩ := still hr
      refine ⟨[{ statedAs s₁ r d.span with transform :=
        (statedAs s₁ r d.span).transform.relativeTo (objectBase (lightTaken s₁)) }],
        .shaped hd _ ?_ rfl hsaved, hr.lights.2.2.1, ?_⟩
      · rw [← hpending]
        exact light?_statedAs s₁ r d.span
      · rw [← List.append_nil es, statementsOf_recorded hr]
        unfold statementsOf EngineState.openStatements captured
        rw [ho]
        rfl
  | directories hd dirs =>
      refine ⟨[], .kept ?_ ?_ rfl rfl, Nat.le_refl _, same⟩ <;>
        rcases hd with hd | hd <;> rw [hd] <;> decide

/-- Only the begin and the end of the world change the phase. -/
theorem phase_of_effect {s' : EngineState K} {es : List (Event K)} (he : Effect d s s' es) :
    s'.phase = s.phase ∨ d.name = .worldBegin ∨ d.name = .worldEnd := by
  have recorded {s₁ s₂ : EngineState K} {es₁ : List (Event K)} (hr : Recorded s s₁ es₁)
      (h : s₂.phase = s₁.phase) : s₂.phase = s.phase := by
    rw [h]
    cases hr
    rfl
  cases he with
  | skipped hd => exact Or.inl rfl
  | composed hd t ht => exact Or.inl rfl
  | replaced hd t ht => exact Or.inl rfl
  | recalled hd t ht => exact Or.inl rfl
  | activated hd halves hh => exact Or.inl rfl
  | saved hd => exact Or.inl rfl
  | timed hd a b => exact Or.inl rfl
  | setting hd kind setting s₁ es hr => exact Or.inl (recorded hr rfl)
  | camera hd setting s₁ es hr => exact Or.inl (recorded hr rfl)
  | medium hd id s₁ es hr => exact Or.inl (recorded hr rfl)
  | painted hd g s₁ es hr hg => exact Or.inl (recorded hr rfl)
  | worldBegin hd => exact Or.inr (Or.inl hd)
  | worldEnd hd s₁ es hc => exact Or.inr (Or.inr hd)
  | opened kind hk hd => exact Or.inl rfl
  | closed kind hd s₁ es hc => exact Or.inl hc.phase_eq
  | objectBegin hd => exact Or.inl rfl
  | placed hd o ho => exact Or.inl rfl
  | light hd r s₁ es hr hmem => exact Or.inl (recorded hr rfl)
  | areaLight hd r s₁ es hr hmem => exact Or.inl (recorded hr rfl)
  | stated hd r s₁ es hr ho => exact Or.inl (recorded hr rfl)
  | captured hd r s₁ es hr o ho => exact Or.inl (recorded hr rfl)
  | directories hd dirs => exact Or.inl rfl

/-- After the end of the world it stays ended. -/
theorem ended_of_effect {s' : EngineState K} {es : List (Event K)} (hp : permit c s d = .ok ())
    (he : Effect d s s' es) (hs : s.phase = .ended) : s'.phase = .ended := by
  have hplace := placement_of_permit_ended hp hs
  rcases phase_of_effect he with h | hd | hd
  · rw [h, hs]
  · rw [hd] at hplace
    cases hplace
  · rw [hd] at hplace
    cases hplace

omit [Scalar K] in
/-- The report of the start is no matter for lights. -/
theorem LightStep.of_begun {s' : EngineState K} {new : List (ShapeStatement K)}
    (h : LightStep d { s with begun := true } s' new) : LightStep d s s' new := by
  cases h with
  | kept hbegin hend hpending hsaved => exact .kept hbegin hend hpending hsaved
  | lit hd n hlt hle hpending hsaved => exact .lit hd n hlt hle hpending hsaved
  | shaped hd st htaken hpending hsaved => exact .shaped hd st htaken hpending hsaved
  | opened hd hpending hsaved => exact .opened hd hpending hsaved
  | closed hd hsaved => exact .closed hd hsaved
  | bottom hd hsaved hpending hempty => exact .bottom hd hsaved hpending hempty
  | ended hd hphase => exact .ended hd hphase

/-- What executing a directive does to lights, whether it is admitted or not. -/
theorem execute_lights (c : EngineContext) (d : Directive) (s : EngineState K) :
    ((execute c d s).rejection ≠ none ∧
      statementsOf (execute c d s).events (execute c d s).state = s.openStatements) ∨
    ((execute c d s).rejection = none ∧
      (s.phase = .ended → (execute c d s).state.phase = .ended ∧ d.name ≠ .shape) ∧
      s.made ≤ (execute c d s).state.made ∧
      ∃ new, LightStep d s (execute c d s).state new ∧
        statementsOf (execute c d s).events (execute c d s).state = s.openStatements ++ new) := by
  obtain ⟨hstate, hevents⟩ := begin_run c s
  have hstart : ((begin c).run s).events.flatMap Event.statements = [] := by
    rw [hevents]
    split <;> rfl
  unfold execute Progress.andThen Progress.ofAction
  dsimp only
  rw [hstate, statementsOf_append, hstart, List.nil_append]
  rcases attempt_cases c d { s with begun := true } with ⟨hp, hnone, he⟩ | ⟨hsome, hs, hes⟩
  · refine Or.inr ⟨hnone, ?_, ?_⟩
    · intro hphase
      refine ⟨ended_of_effect hp he hphase, ?_⟩
      intro hd
      have hplace := placement_of_permit_ended hp hphase
      rw [hd] at hplace
      cases hplace
    · obtain ⟨new, hstep, hmade, hst⟩ := lightStep_of_effect hp he
      exact ⟨hmade, new, hstep.of_begun, hst⟩
  · refine Or.inl ⟨?_, ?_⟩
    · intro hnone
      rw [hnone] at hsome
      cases hsome
    · rw [hs, hes]
      rfl

end Admitted

end Engine
end SceneReader
