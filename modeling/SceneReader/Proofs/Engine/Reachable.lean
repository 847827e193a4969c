import SceneReader.Proofs.Engine.Effect
import SceneReader.Proofs.Engine.Handling

/-!
# Runs and their invariants

A state is reachable when some sequence of starting, executing directives and finishing
leads to it, whatever the directives are and whatever they come to.  What holds at the
start and is kept by every effect holds in all reachable states and of all that was
reported on the way.

**Results.**
* `executeAll_append`: a run in two parts.
* `started_append`, `started_concat`: a run with more directives.
* `reachable_executeAll`, `reachable_run`: runs over lists of directives are reachable.
* `Reachable.invariant`: the rule of invariants.
-/

namespace SceneReader
namespace Engine

variable {K : Type} [Scalar K]

/-! ## Parts of a run -/

omit [Scalar K] in
theorem Progress.andThen_assoc (p : Progress K) (f g : EngineState K → Progress K) :
    (p.andThen f).andThen g = p.andThen fun s => (f s).andThen g := by
  obtain ⟨s, es, notes, rejection⟩ := p
  cases rejection with
  | some r => rfl
  | none =>
      simp only [andThen]
      obtain ⟨s₁, es₁, notes₁, rejection₁⟩ := f s
      cases rejection₁ with
      | some r => rfl
      | none => simp only [List.append_assoc]

omit [Scalar K] in
theorem Progress.andThen_done (p : Progress K) :
    (p.andThen fun s => ⟨s, [], [], none⟩) = p := by
  obtain ⟨s, es, notes, rejection⟩ := p
  cases rejection with
  | some r => rfl
  | none => simp only [andThen, List.append_nil]

/-- A run in two parts: the second part starts where the first one ends. -/
theorem executeAll_append (c : EngineContext) (as bs : List Directive) (s : EngineState K) :
    executeAll c (as ++ bs) s = (executeAll c as s).andThen (executeAll c bs) := by
  induction as generalizing s with
  | nil => rfl
  | cons d as ih =>
      simp only [List.cons_append, executeAll, Progress.andThen_assoc]
      congr 1
      funext s₁
      exact ih s₁

/-- A directive that is admitted is performed; any other one changes nothing. -/
theorem attempt_cases (c : EngineContext) (d : Directive) (s : EngineState K) :
    (permit c s d = .ok () ∧ (attempt c d s).rejection = none ∧
      Effect d s (attempt c d s).state (attempt c d s).events) ∨
    ((attempt c d s).rejection.isSome ∧ (attempt c d s).state = s ∧
      (attempt c d s).events = []) := by
  rw [attempt_eq]
  cases h : permit c s d with
  | error r => exact Or.inr ⟨rfl, rfl, rfl⟩
  | ok u => exact Or.inl ⟨rfl, rfl, perform_effect c d s⟩

/-- What starting and executing directives comes to. -/
def started (c : EngineContext) (ds : List Directive) (dirs : DirectoryStack) : Progress K :=
  (Progress.ofAction (begin c) (.initial dirs)).andThen (executeAll c ds)

theorem started_eq (c : EngineContext) (ds : List Directive) (dirs : DirectoryStack) :
    started (K := K) c ds dirs =
      let p := executeAll c ds { EngineState.initial dirs with begun := true }
      ⟨p.state, .begin c.source :: p.events, p.notes, p.rejection⟩ := rfl

/-- Further directives are executed after those before, unless one of these was rejected. -/
theorem started_append (c : EngineContext) (as bs : List Directive) (dirs : DirectoryStack) :
    started (K := K) c (as ++ bs) dirs = (started c as dirs).andThen (executeAll c bs) := by
  unfold started
  rw [Progress.andThen_assoc]
  congr 1
  funext s
  exact executeAll_append c as bs s

/-- One more directive. -/
theorem started_concat (c : EngineContext) (ds : List Directive) (d : Directive)
    (dirs : DirectoryStack) :
    started (K := K) c (ds ++ [d]) dirs = (started c ds dirs).andThen (execute c d) := by
  have hone : executeAll (K := K) c [d] = execute c d := by
    funext s
    exact Progress.andThen_done (execute c d s)
  rw [started_append, hone]

/-- A run that is not refused finishes where its directives lead. -/
theorem run_of_started {c : EngineContext} {ds : List Directive} {dirs : DirectoryStack}
    (h : (started (K := K) c ds dirs).rejection = none) :
    (run (K := K) c ds (.initial dirs)).state =
        (finish.run (started (K := K) c ds dirs).state).state ∧
      (run (K := K) c ds (.initial dirs)).events = (started (K := K) c ds dirs).events ++
        (finish.run (started (K := K) c ds dirs).state).events := by
  have hrun : run (K := K) c ds (.initial dirs) =
      (started c ds dirs).andThen (Progress.ofAction finish) := rfl
  rw [hrun]
  unfold Progress.andThen
  rw [h]
  exact ⟨rfl, rfl⟩

/-- The end of the world. -/
def WorldEnded {K : Type} (s s' : EngineState K) (es : List (Event K)) : Prop :=
  ∃ s₁ es₁, ClosedAll s s₁ es₁ ∧ s' = { s₁ with phase := .ended } ∧ es = es₁ ++ [.worldEnd]

omit [Scalar K] in
/-- Finishing ends a world that is still open. -/
theorem finish_run (s : EngineState K) :
    ((finish.run s).state = s ∧ (finish.run s).events = [.finish]) ∨
      ∃ es, WorldEnded s (finish.run s).state es ∧ (finish.run s).events = es ++ [.finish] := by
  unfold finish
  rw [Action.run_state_bind]
  cases s.phase with
  | options => exact Or.inl ⟨rfl, rfl⟩
  | ended => exact Or.inl ⟨rfl, rfl⟩
  | world =>
      obtain ⟨s₁, es₁, hc, hs, he⟩ := endWorld_run .unknown s
      refine Or.inr ⟨es₁ ++ [.worldEnd], ⟨s₁, es₁, hc, ?_, rfl⟩, ?_⟩
      · exact hs
      · change ((endWorld .unknown).run s).events ++ [.finish] = _
        rw [he]

/-! ## Reachable states -/

/-- The states that directives lead to, in any order and whatever they come to, with all
that was reported on the way. -/
inductive Reachable (c : EngineContext) : EngineState K → List (Event K) → Prop
  | initial (dirs : DirectoryStack) : Reachable c (.initial dirs) []
  | begun {s : EngineState K} {es : List (Event K)} (h : Reachable c s es) :
      Reachable c ((begin c).run s).state (es ++ ((begin c).run s).events)
  | executed {s : EngineState K} {es : List (Event K)} (h : Reachable c s es) (d : Directive) :
      Reachable c (execute c d s).state (es ++ (execute c d s).events)
  | finished {s : EngineState K} {es : List (Event K)} (h : Reachable c s es) :
      Reachable c (finish.run s).state (es ++ (finish.run s).events)

theorem reachable_executeAll {c : EngineContext} {s : EngineState K} {es : List (Event K)}
    (h : Reachable c s es) (ds : List Directive) :
    Reachable c (executeAll c ds s).state (es ++ (executeAll c ds s).events) := by
  induction ds generalizing s es with
  | nil =>
      rw [executeAll, List.append_nil]
      exact h
  | cons d ds ih =>
      have hd := h.executed d
      unfold executeAll Progress.andThen
      cases (execute c d s).rejection with
      | some r => exact hd
      | none =>
          dsimp only
          rw [← List.append_assoc]
          exact ih hd

theorem reachable_run (c : EngineContext) (ds : List Directive) (dirs : DirectoryStack) :
    Reachable c (run (K := K) c ds (.initial dirs)).state (run c ds (.initial dirs)).events := by
  have hb := reachable_executeAll (Reachable.initial (K := K) (c := c) dirs).begun ds
  rw [List.nil_append] at hb
  unfold run Progress.andThen Progress.ofAction
  dsimp only
  cases (executeAll c ds ((begin c).run (EngineState.initial (K := K) dirs)).state).rejection with
  | some r => exact hb
  | none => exact hb.finished

/-- What holds at the start and is kept by all that can happen. -/
structure IsInvariant (c : EngineContext) (I : EngineState K → List (Event K) → Prop) :
    Prop where
  initial : ∀ dirs, I (.initial dirs) []
  begun : ∀ {s es}, I s es → I { s with begun := true } es ∧
    I { s with begun := true } (es ++ [.begin c.source])
  performed : ∀ {d s s' es es'}, permit c s d = .ok () → Effect d s s' es' → I s es →
    I s' (es ++ es')
  ended : ∀ {s s' es es'}, WorldEnded s s' es' → I s es → I s' (es ++ es')
  finished : ∀ {s es}, I s es → I s (es ++ [.finish])

namespace IsInvariant

variable {c : EngineContext} {I : EngineState K → List (Event K) → Prop}

theorem begin (h : IsInvariant c I) {s : EngineState K} {es : List (Event K)} (hs : I s es) :
    I ((Engine.begin c).run s).state (es ++ ((Engine.begin c).run s).events) := by
  obtain ⟨hstate, hevents⟩ := begin_run c s
  rw [hstate, hevents]
  split
  · rw [List.append_nil]
    exact (h.begun hs).1
  · exact (h.begun hs).2

theorem attempt (h : IsInvariant c I) {s : EngineState K} {es : List (Event K)} (hs : I s es)
    (d : Directive) :
    I (Engine.attempt c d s).state (es ++ (Engine.attempt c d s).events) := by
  rcases attempt_cases c d s with ⟨hp, -, he⟩ | ⟨-, hstate, hevents⟩
  · exact h.performed hp he hs
  · rw [hstate, hevents, List.append_nil]
    exact hs

theorem execute (h : IsInvariant c I) {s : EngineState K} {es : List (Event K)} (hs : I s es)
    (d : Directive) :
    I (Engine.execute c d s).state (es ++ (Engine.execute c d s).events) := by
  have hd := h.attempt (h.begin hs) d
  rw [List.append_assoc] at hd
  exact hd

theorem finish (h : IsInvariant c I) {s : EngineState K} {es : List (Event K)} (hs : I s es) :
    I (Engine.finish.run s).state (es ++ (Engine.finish.run s).events) := by
  rcases finish_run s with ⟨hstate, hevents⟩ | ⟨es', hw, hevents⟩
  · rw [hstate, hevents]
    exact h.finished hs
  · rw [hevents, ← List.append_assoc]
    exact h.finished (h.ended hw hs)

end IsInvariant

/-- An invariant holds in all reachable states. -/
theorem Reachable.invariant {c : EngineContext} {I : EngineState K → List (Event K) → Prop}
    (hI : IsInvariant c I) {s : EngineState K} {es : List (Event K)} (h : Reachable c s es) :
    I s es := by
  induction h with
  | initial dirs => exact hI.initial dirs
  | begun _ ih => exact hI.begin ih
  | executed _ d ih => exact hI.execute ih d
  | finished _ ih => exact hI.finish ih

end Engine
end SceneReader
