import SceneReader.Proofs.Engine.Reachable

/-!
# Open blocks

How the open blocks lie over each other, and what changes them.  Inside of an object
targets are told of no block; outside of one they are told of every block.  Only the
directives that open or close blocks, the world or directories change the phase, the
blocks and the directories; the end of the world closes whatever is open.

**Results.**
* `endWorld_scopes`: no block outlives the world.
* `isEnding_finish`: a run finishes with ends only.
* `framed_of_effect`: what a directive that opens and closes nothing leaves alone.
* `Arranged`, `Closed.arranged`: how blocks lie over each other.
-/

namespace SceneReader
namespace Engine

variable {K : Type}

/-! ## Closing blocks -/

namespace Closed

variable {s s' : EngineState K} {es : List (Event K)}

theorem scopes_eq (h : Closed s s' es) : s'.scopes = s.scopes.tail := by
  cases h with
  | nothing hs => rw [hs, List.tail_nil]
  | attributes scope rest hs hk =>
      unfold restoreGraphics
      split <;> rw [hs, List.tail_cons]
  | object scope rest o hs hk ho => rw [hs, List.tail_cons]
  | plain scope rest hs hk ho => rw [hs, List.tail_cons]

theorem unchanged (h : Closed s s' es) :
    s'.begun = s.begun ∧ s'.phase = s.phase ∧ s'.dirs = s.dirs := by
  cases h with
  | nothing hs => exact ⟨rfl, rfl, rfl⟩
  | attributes scope rest hs hk =>
      unfold restoreGraphics
      split <;> exact ⟨rfl, rfl, rfl⟩
  | object scope rest o hs hk ho => exact ⟨rfl, rfl, rfl⟩
  | plain scope rest hs hk ho => exact ⟨rfl, rfl, rfl⟩

theorem begun_eq (h : Closed s s' es) : s'.begun = s.begun := h.unchanged.1

theorem phase_eq (h : Closed s s' es) : s'.phase = s.phase := h.unchanged.2.1

theorem dirs_eq (h : Closed s s' es) : s'.dirs = s.dirs := h.unchanged.2.2

end Closed

theorem ClosedAll.unchanged {s s' : EngineState K} {es : List (Event K)}
    (h : ClosedAll s s' es) : s'.begun = s.begun ∧ s'.phase = s.phase ∧ s'.dirs = s.dirs := by
  induction h with
  | nil s => exact ⟨rfl, rfl, rfl⟩
  | cons first rest ih =>
      obtain ⟨hbegun, hphase, hdirs⟩ := ih
      exact ⟨hbegun.trans first.begun_eq, hphase.trans first.phase_eq, hdirs.trans first.dirs_eq⟩

theorem closeScopes_scopes (n : Nat) (s : EngineState K) :
    ((closeScopes n).run s).state.scopes = s.scopes.drop n := by
  induction n generalizing s with
  | zero => rfl
  | succ n ih =>
      change ((closeScopes n).run (closeScope.run s).state).state.scopes = _
      rw [ih, (closed_closeScope s).scopes_eq, List.drop_tail]

/-- No block outlives the world. -/
theorem endWorld_scopes (span : Span) (s : EngineState K) :
    ((endWorld span).run s).state.scopes = [] := by
  unfold endWorld
  rw [Action.run_state_bind]
  by_cases h : s.scopes.length ≠ 0
  · simp [h, Action.run_bind, closeScopes_scopes]
  · rw [if_neg h]
    simpa using h

/-! ## What is told of an end -/

end Engine

/-- The event ends something. -/
def Event.isEnding {K : Type} : Event K → Bool
  | endScope _ => true
  | objectEnd _ => true
  | worldEnd => true
  | finish => true
  | _ => false

namespace Engine

theorem isEnding_of_mem_closingEvents {scope : Scope K} {e : Event K}
    (he : e ∈ closingEvents scope) : e.isEnding = true := by
  unfold closingEvents at he
  split at he
  · rw [List.mem_singleton.mp he]
    rfl
  · cases he

/-- Closing a block tells of ends only. -/
theorem Closed.isEnding {s s' : EngineState K} {es : List (Event K)} (h : Closed s s' es)
    {e : Event K} (he : e ∈ es) : e.isEnding = true := by
  cases h with
  | nothing hs => cases he
  | attributes scope rest hs hk => exact isEnding_of_mem_closingEvents he
  | object scope rest o hs hk ho =>
      rcases List.mem_cons.mp he with rfl | he
      · rfl
      · exact isEnding_of_mem_closingEvents he
  | plain scope rest hs hk ho => exact isEnding_of_mem_closingEvents he

theorem ClosedAll.isEnding {s s' : EngineState K} {es : List (Event K)}
    (h : ClosedAll s s' es) {e : Event K} (he : e ∈ es) : e.isEnding = true := by
  induction h with
  | nil s => cases he
  | cons first rest ih =>
      rcases List.mem_append.mp he with he | he
      · exact first.isEnding he
      · exact ih he

theorem WorldEnded.isEnding {s s' : EngineState K} {es : List (Event K)}
    (h : WorldEnded s s' es) {e : Event K} (he : e ∈ es) : e.isEnding = true := by
  obtain ⟨s₁, es₁, hc, -, rfl⟩ := h
  rcases List.mem_append.mp he with he | he
  · exact hc.isEnding he
  · rw [List.mem_singleton.mp he]
    rfl

/-- Finishing tells of ends only. -/
theorem isEnding_finish {s : EngineState K} {e : Event K} (he : e ∈ (finish.run s).events) :
    e.isEnding = true := by
  rcases finish_run s with ⟨-, hevents⟩ | ⟨es, hw, hevents⟩
  · rw [hevents] at he
    rw [List.mem_singleton.mp he]
    rfl
  · rw [hevents] at he
    rcases List.mem_append.mp he with he | he
    · exact hw.isEnding he
    · rw [List.mem_singleton.mp he]
      rfl

/-! ## How blocks lie over each other -/

/-- Outside of an object targets are told of every block; the block of an object and those
inside of it they are not told of.  The flag says that an object is open. -/
inductive Arranged : Bool → List (Scope K) → Prop
  | nil : Arranged false []
  | told {scope : Scope K} {rest : List (Scope K)} (hk : scope.kind ≠ .object)
      (hr : scope.reported = true) (h : Arranged false rest) : Arranged false (scope :: rest)
  | object {scope : Scope K} {rest : List (Scope K)} (hk : scope.kind = .object)
      (hr : scope.reported = false) (h : Arranged false rest) : Arranged true (scope :: rest)
  | inside {scope : Scope K} {rest : List (Scope K)} (hk : scope.kind ≠ .object)
      (hr : scope.reported = false) (h : Arranged true rest) : Arranged true (scope :: rest)

/-- The blocks of the state are arranged. -/
def IsArranged (s : EngineState K) : Prop :=
  Arranged s.openObject.isSome s.scopes

/-- Where no block is open, no object is. -/
theorem openObject_of_scopes_eq_nil {s : EngineState K} (h : IsArranged s) (hs : s.scopes = []) :
    s.openObject = none := by
  unfold IsArranged at h
  rw [hs] at h
  cases ho : s.openObject with
  | none => rfl
  | some o =>
      rw [ho] at h
      cases h

/-- An object is open after a block is closed if it was open before and the block was not
its own. -/
theorem Closed.openObject_isSome {s s' : EngineState K} {es : List (Event K)}
    (h : Closed s s' es) {scope : Scope K} {rest : List (Scope K)}
    (hs : s.scopes = scope :: rest) :
    s'.openObject.isSome = (s.openObject.isSome && decide (scope.kind ≠ .object)) := by
  cases h with
  | nothing hnil =>
      rw [hnil] at hs
      cases hs
  | attributes scope' rest' hs' hk =>
      rw [hs'] at hs
      cases hs
      unfold restoreGraphics
      split <;> simp [hk]
  | object scope' rest' o hs' hk ho =>
      rw [hs'] at hs
      cases hs
      simp [hk]
  | plain scope' rest' hs' hk ho =>
      rw [hs'] at hs
      cases hs
      by_cases hobject : scope.kind = .object
      · simp [ho hobject]
      · simp [hobject]

theorem Closed.arranged {s s' : EngineState K} {es : List (Event K)} (h : Closed s s' es)
    (ha : IsArranged s) : IsArranged s' := by
  cases hs : s.scopes with
  | nil =>
      cases h with
      | nothing hnil => exact ha
      | attributes scope rest hcons hk => simp [hs] at hcons
      | object scope rest o hcons hk ho => simp [hs] at hcons
      | plain scope rest hcons hk ho => simp [hs] at hcons
  | cons scope rest =>
      have hopen := h.openObject_isSome hs
      have hrest : s'.scopes = rest := by rw [h.scopes_eq, hs, List.tail_cons]
      unfold IsArranged at ha ⊢
      rw [hs] at ha
      rw [hopen, hrest]
      generalize s.openObject.isSome = inObject at ha
      cases ha with
      | told hk hr ha => simpa [hk] using ha
      | object hk hr ha => simpa [hk] using ha
      | inside hk hr ha => simpa [hk] using ha

theorem ClosedAll.arranged {s s' : EngineState K} {es : List (Event K)} (h : ClosedAll s s' es)
    (ha : IsArranged s) : IsArranged s' := by
  induction h with
  | nil s => exact ha
  | cons first rest ih => exact ih (first.arranged ha)

theorem isArranged_opened {s : EngineState K} {kind : ScopeKind} (ha : IsArranged s)
    (hk : kind ≠ .object) : IsArranged (opened kind s) := by
  unfold IsArranged at ha ⊢
  change Arranged s.openObject.isSome (⟨kind, s.ctm, isReported kind s⟩ :: s.scopes)
  cases ho : s.openObject with
  | none =>
      rw [ho] at ha
      exact .told hk (by simp [isReported, hk, ho]) ha
  | some o =>
      rw [ho] at ha
      exact .inside hk (by simp [isReported, ho]) ha

/-! ## Directives that open and close nothing -/

/-- The phase, the blocks and the directories are the same, and an object is open in both
states or in none. -/
structure Framed (s s' : EngineState K) : Prop where
  begun : s'.begun = s.begun
  phase : s'.phase = s.phase
  scopes : s'.scopes = s.scopes
  openObject : s'.openObject.isSome = s.openObject.isSome
  dirs : s'.dirs = s.dirs

theorem Framed.of_recorded {s s₁ s' : EngineState K} {es : List (Event K)} (hr : Recorded s s₁ es)
    (h : Framed s₁ s') : Framed s s' := by
  obtain ⟨hbegun, hphase, hscopes, hopen, hdirs⟩ := h
  cases hr
  exact ⟨hbegun, hphase, hscopes, hopen, hdirs⟩

variable [Scalar K] {d : Directive} {s s' : EngineState K} {es : List (Event K)}

theorem framed_of_effect (he : Effect d s s' es) (hd : isStructural d.name = false) :
    Framed s s' := by
  have structural {n : DirectiveName} (hn : d.name = n) (h : isStructural n = true) : False := by
    rw [hn, h] at hd
    cases hd
  cases he with
  | skipped hd => exact ⟨rfl, rfl, rfl, rfl, rfl⟩
  | composed hd t ht => exact ⟨rfl, rfl, rfl, rfl, rfl⟩
  | replaced hd t ht => exact ⟨rfl, rfl, rfl, rfl, rfl⟩
  | recalled hd t ht => exact ⟨rfl, rfl, rfl, rfl, rfl⟩
  | activated hd halves hh => exact ⟨rfl, rfl, rfl, rfl, rfl⟩
  | saved hd => exact ⟨rfl, rfl, rfl, rfl, rfl⟩
  | timed hd a b => exact ⟨rfl, rfl, rfl, rfl, rfl⟩
  | setting hd kind setting s₁ es hr => exact .of_recorded hr ⟨rfl, rfl, rfl, rfl, rfl⟩
  | camera hd setting s₁ es hr => exact .of_recorded hr ⟨rfl, rfl, rfl, rfl, rfl⟩
  | medium hd id s₁ es hr => exact .of_recorded hr ⟨rfl, rfl, rfl, rfl, rfl⟩
  | painted hd g s₁ es hr hg => exact .of_recorded hr ⟨rfl, rfl, rfl, rfl, rfl⟩
  | worldBegin hn => exact (structural hn rfl).elim
  | worldEnd hn s₁ es hc => exact (structural hn rfl).elim
  | opened kind hk hn => exact (structural hn (by cases kind <;> rfl)).elim
  | closed kind hn s₁ es hc => exact (structural hn (by cases kind <;> rfl)).elim
  | objectBegin hn => exact (structural hn rfl).elim
  | placed hd o ho => exact ⟨rfl, rfl, rfl, rfl, rfl⟩
  | light hd r s₁ es hr hmem => exact .of_recorded hr ⟨rfl, rfl, rfl, rfl, rfl⟩
  | areaLight hd r s₁ es hr hmem => exact .of_recorded hr ⟨rfl, rfl, rfl, rfl, rfl⟩
  | stated hd r s₁ es hr ho => exact .of_recorded hr ⟨rfl, rfl, rfl, rfl, rfl⟩
  | captured hd r s₁ es hr o ho =>
      have hopen : s₁.openObject = s.openObject := by
        cases hr
        rfl
      refine .of_recorded hr ⟨rfl, rfl, rfl, ?_, rfl⟩
      rw [hopen, ho]
      rfl
  | directories hn dirs =>
      rcases hn with hn | hn
      · exact (structural hn rfl).elim
      · exact (structural hn rfl).elim

omit [Scalar K] in
theorem Framed.arranged (h : Framed s s') (ha : IsArranged s) : IsArranged s' := by
  unfold IsArranged at ha ⊢
  rw [h.openObject, h.scopes]
  exact ha

/-! ## Admitted directives -/

variable {c : EngineContext}

theorem faults_of_permit (h : permit c s d = .ok ()) :
    phaseFault? s.phase d.name = none ∧ nestingFault? s d = none := by
  unfold permit at h
  split at h
  · cases h
  · rename_i hfault
    exact Option.or_eq_none_iff.mp hfault

/-- A block is closed only if the innermost one is of its kind. -/
theorem top_of_permit_closer {kind : ScopeKind} (h : permit c s d = .ok ())
    (hd : d.name = kind.closer) : ∃ scope rest, s.scopes = scope :: rest ∧ scope.kind = kind := by
  have hnest := (faults_of_permit h).2
  have hclose : closeFault? s kind = none := by
    unfold nestingFault? at hnest
    rw [hd] at hnest
    cases kind <;> exact hnest
  unfold closeFault? at hclose
  split at hclose
  · cases hclose
  · rename_i scope rest hs
    split at hclose
    · rename_i hk
      exact ⟨scope, rest, hs, hk⟩
    · cases hclose

/-- Objects are not nested. -/
theorem openObject_of_permit_objectBegin (h : permit c s d = .ok ())
    (hd : d.name = .objectBegin) : s.openObject = none := by
  have hnest := (faults_of_permit h).2
  unfold nestingFault? at hnest
  rw [hd] at hnest
  exact Option.map_eq_none_iff.mp hnest

/-- Objects are not placed inside of objects. -/
theorem openObject_of_permit_objectInstance (h : permit c s d = .ok ())
    (hd : d.name = .objectInstance) : s.openObject = none := by
  have hnest := (faults_of_permit h).2
  unfold nestingFault? at hnest
  rw [hd] at hnest
  exact Option.map_eq_none_iff.mp hnest

theorem placement_of_permit_ended (h : permit c s d = .ok ()) (hs : s.phase = .ended) :
    d.name.placement = .anywhere := by
  have hphase := (faults_of_permit h).1
  rw [hs] at hphase
  exact (phaseFault?_ended d.name).mp hphase

/-- What belongs into the world is admitted in the world only. -/
theorem phase_of_permit_worldOnly (h : permit c s d = .ok ())
    (hd : d.name.placement = .worldOnly) : s.phase = .world := by
  have hphase := (faults_of_permit h).1
  unfold phaseFault? at hphase
  rw [hd] at hphase
  cases hs : s.phase with
  | options => simp [hs] at hphase
  | world => rfl
  | ended => simp [hs] at hphase

end Engine
end SceneReader
