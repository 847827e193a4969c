import SceneReader.Proofs.Engine.Recording

/-!
# Refusals

A directive is refused in several places: for the phase before its handler is called, and by
the handler for a block, an object, a directory or a transform.  Each of these places comes
before the first change, so a refused directive leaves no trace.  This is kept up by the
handlers one at a time: a check changes nothing, an action refuses nothing, and a handler
checks before it acts.

**Results.**
* `IsCheck.andThen`, `RefusesFirst.andThen`: checks before whatever refuses before it acts.
* `refusesFirst_handle`, `refusesFirst_attempt`: every handler refuses before it acts.
* `handle_eq`, `attempt_eq`: what is refused is what is not admitted.
* `execute_after_refused`: what follows a refused directive goes on as without it.
* `execute_refused`: a refused directive leaves no trace, but that the start is told.
-/

namespace SceneReader
namespace Engine

variable {K : Type} {c : EngineContext} {d : Directive} {f g : EngineState K → Progress K}

/-! ## The start -/

/-- The start is reported once. -/
theorem begin_run (c : EngineContext) (s : EngineState K) :
    ((begin c).run s).state = { s with begun := true } ∧
      ((begin c).run s).events = if s.begun then [] else [.begin c.source] := by
  unfold begin
  rw [Action.run_state_bind]
  by_cases h : s.begun = true
  · rw [if_pos h, if_pos h]
    refine ⟨?_, rfl⟩
    change s = _
    rw [← h]
  · rw [if_neg h, if_neg h]
    exact ⟨rfl, rfl⟩

/-! ## Checks and what refuses before it acts -/

/-- Looks at the state and changes nothing, whether it refuses or not. -/
def IsCheck (f : EngineState K → Progress K) : Prop :=
  ∀ s, f s = ⟨s, [], [], (f s).rejection⟩

/-- Where it refuses, it has changed and reported nothing before. -/
def RefusesFirst (f : EngineState K → Progress K) : Prop :=
  ∀ s r, (f s).rejection = some r → f s = ⟨s, [], [], some r⟩

theorem IsCheck.refusesFirst (h : IsCheck f) : RefusesFirst f := by
  intro s r hr
  rw [h s, hr]

/-- What comes after a check that lets it pass. -/
theorem IsCheck.andThen (h : IsCheck f) {s : EngineState K} (hs : (f s).rejection = none) :
    (f s).andThen g = g s := by
  rw [h s, hs]
  rfl

/-- A check may stand before whatever refuses before it acts. -/
theorem RefusesFirst.andThen (hf : IsCheck f) (hg : RefusesFirst g) :
    RefusesFirst fun s => (f s).andThen g := by
  intro s r hr
  dsimp only at hr ⊢
  cases hs : (f s).rejection with
  | none =>
      rw [hf.andThen hs] at hr ⊢
      exact hg s r hr
  | some r' =>
      rw [hf s, hs] at hr ⊢
      cases hr
      rfl

theorem isCheck_orRefuse (fault? : EngineState K → Option Fault) :
    IsCheck fun s => orRefuse c d (fault? s) s := fun _ => rfl

/-- An action refuses nothing. -/
theorem refusesFirst_ofAction (a : Action K Unit) : RefusesFirst (Progress.ofAction a) :=
  fun _ _ hr => by cases hr

/-- What is checked before an action. -/
theorem refusesFirst_guarded (fault? : EngineState K → Option Fault) (a : Action K Unit) :
    RefusesFirst fun s => (orRefuse c d (fault? s) s).andThen (.ofAction a) :=
  .andThen (isCheck_orRefuse fault?) (refusesFirst_ofAction a)

/-! ## Handlers -/

theorem refusesFirst_leave (kind : ScopeKind) : RefusesFirst (K := K) (leave c d kind) :=
  refusesFirst_guarded (closeFault? · kind) closeScope

theorem refusesFirst_enterObject : RefusesFirst (K := K) (enterObject c d) :=
  refusesFirst_guarded (·.openObject.map fun o => .nestedObject d.subject o.name)
    (beginObject c d)

theorem refusesFirst_instantiate : RefusesFirst (K := K) (instantiate c d) :=
  refusesFirst_guarded (·.openObject.map fun _ => .instanceInObject d.subject) (placeObject c d)

theorem refusesFirst_leaveDirectory : RefusesFirst (K := K) (leaveDirectory c d) := by
  intro s r hr
  unfold leaveDirectory at hr ⊢
  cases hpop : s.dirs.pop? with
  | none =>
      rw [hpop] at hr
      exact (isCheck_orRefuse fun _ => some (.unmatchedEnd d.name.text)).refusesFirst s r hr
  | some p =>
      rw [hpop] at hr
      cases hr

theorem isCheck_checkPhase : IsCheck (K := K) (checkPhase c d) :=
  isCheck_orRefuse (phaseFault? ·.phase d.name)

variable [Scalar K]

theorem refusesFirst_transformBy (replaces : Bool) :
    RefusesFirst (K := K) (transformBy c d replaces) := by
  intro s r hr
  unfold transformBy at hr ⊢
  cases hm : motionFault? (K := K) d with
  | none =>
      rw [hm] at hr
      cases hr
  | some f =>
      rw [hm] at hr
      cases hr
      rfl

/-- Every handler refuses before it acts. -/
theorem refusesFirst_handle (c : EngineContext) (d : Directive) :
    RefusesFirst (K := K) (handle c d) := by
  intro s r
  unfold handle
  cases d.name with
  | translate => exact refusesFirst_transformBy false s r
  | scale => exact refusesFirst_transformBy false s r
  | rotate => exact refusesFirst_transformBy false s r
  | lookAt => exact refusesFirst_transformBy false s r
  | concatTransform => exact refusesFirst_transformBy false s r
  | transform => exact refusesFirst_transformBy true s r
  | attributeEnd => exact refusesFirst_leave .attributes s r
  | transformEnd => exact refusesFirst_leave .transform s r
  | objectBegin => exact refusesFirst_enterObject s r
  | objectEnd => exact refusesFirst_leave .object s r
  | objectInstance => exact refusesFirst_instantiate s r
  | workDirEnd => exact refusesFirst_leaveDirectory s r
  | _ => exact refusesFirst_ofAction _ s r

/-- The check of the phase and the handler refuse before anything is done. -/
theorem refusesFirst_attempt (c : EngineContext) (d : Directive) :
    RefusesFirst (K := K) (attempt c d) :=
  .andThen isCheck_checkPhase (refusesFirst_handle c d)

/-! ## What is refused -/

/-- Performs a directive that fits the open blocks and whose transform, if it has one, has a
matrix or is known to be degenerate. -/
def screened (c : EngineContext) (d : Directive) (s : EngineState K) : Progress K :=
  (orRefuse c d (nestingFault? s d) s).andThen fun s =>
    match motionFault? d with
    | some f => ⟨s, [], [], some (.transform f)⟩
    | none => .ofAction (perform c d) s

theorem transformBy_eq {s : EngineState K} {replaces : Bool} (hn : nestingFault? s d = none)
    (hp : perform (K := K) c d = move c d replaces) :
    transformBy c d replaces s = screened c d s := by
  unfold screened transformBy
  rw [hn, hp]
  rfl

/-- Directives of most names have no transform. -/
theorem motionFault?_eq_none {n : DirectiveName} (hd : d.name = n)
    (hn : n ∉ [.translate, .scale, .rotate, .lookAt, .concatTransform, .transform]) :
    motionFault? (K := K) d = none := by
  unfold motionFault? motion?
  rw [hd]
  cases n <;> first | rfl | exact absurd hn (by decide)

/-- A handler that checks its fault and has no transform. -/
theorem guarded_eq {s : EngineState K} {fault? : Option Fault} {a : Action K Unit}
    (hn : nestingFault? s d = fault?) (hm : motionFault? (K := K) d = none)
    (hp : perform c d = a) :
    (orRefuse c d fault? s).andThen (.ofAction a) = screened c d s := by
  unfold screened
  rw [hn, hm, hp]

theorem leaveDirectory_eq (hd : d.name = .workDirEnd) (s : EngineState K) :
    leaveDirectory c d s = screened c d s := by
  have hp : perform (K := K) c d = .change fun s =>
      { s with dirs := ((s.dirs.pop?).map (·.2)).getD s.dirs } := by rw [perform, hd]
  have hm : motionFault? (K := K) d = none := motionFault?_eq_none hd (by decide)
  cases hpop : s.dirs.pop? with
  | none =>
      have hn : nestingFault? s d = some (.unmatchedEnd d.name.text) := by
        simp [nestingFault?, hd, hpop]
      unfold leaveDirectory screened
      rw [hpop, hn]
      rfl
  | some p =>
      have hn : nestingFault? s d = none := by simp [nestingFault?, hd, hpop]
      unfold leaveDirectory screened
      rw [hpop, hn, hm, hp]
      change _ = Progress.mk { s with dirs := ((s.dirs.pop?).map (·.2)).getD s.dirs } [] [] none
      rw [hpop]
      rfl

/-- A handler that checks nothing. -/
theorem unguarded_eq {s : EngineState K} (hn : nestingFault? s d = none)
    (hm : motionFault? (K := K) d = none) :
    Progress.ofAction (perform c d) s = screened c d s := by
  unfold screened
  rw [hn, hm]
  rfl

/-- What the handlers refuse is what does not fit the open blocks, and transforms that have
no matrix. -/
theorem handle_eq (c : EngineContext) (d : Directive) (s : EngineState K) :
    handle c d s = screened c d s := by
  unfold handle
  cases hd : d.name with
  | translate => exact transformBy_eq (by rw [nestingFault?, hd]) (by rw [perform, hd])
  | scale => exact transformBy_eq (by rw [nestingFault?, hd]) (by rw [perform, hd])
  | rotate => exact transformBy_eq (by rw [nestingFault?, hd]) (by rw [perform, hd])
  | lookAt => exact transformBy_eq (by rw [nestingFault?, hd]) (by rw [perform, hd])
  | concatTransform => exact transformBy_eq (by rw [nestingFault?, hd]) (by rw [perform, hd])
  | transform => exact transformBy_eq (by rw [nestingFault?, hd]) (by rw [perform, hd])
  | attributeEnd =>
      exact guarded_eq (by rw [nestingFault?, hd]) (motionFault?_eq_none hd (by decide))
        (by rw [perform, hd])
  | transformEnd =>
      exact guarded_eq (by rw [nestingFault?, hd]) (motionFault?_eq_none hd (by decide))
        (by rw [perform, hd])
  | objectBegin =>
      exact guarded_eq (by rw [nestingFault?, hd]) (motionFault?_eq_none hd (by decide))
        (by rw [perform, hd])
  | objectEnd =>
      exact guarded_eq (by rw [nestingFault?, hd]) (motionFault?_eq_none hd (by decide))
        (by rw [perform, hd])
  | objectInstance =>
      exact guarded_eq (by rw [nestingFault?, hd]) (motionFault?_eq_none hd (by decide))
        (by rw [perform, hd])
  | workDirEnd => exact leaveDirectory_eq hd s
  | _ =>
      exact unguarded_eq (by rw [nestingFault?, hd]) (motionFault?_eq_none hd (by decide))

/-- What is refused is what is not admitted. -/
theorem attempt_eq (c : EngineContext) (d : Directive) (s : EngineState K) :
    attempt c d s =
      match permit c s d with
      | .error r => ⟨s, [], [], some r⟩
      | .ok () => .ofAction (perform c d) s := by
  unfold attempt checkPhase permit
  cases phaseFault? s.phase d.name with
  | some f => rfl
  | none =>
      change Progress.andThen ⟨s, [], [], none⟩ (handle c d) = _
      unfold Progress.andThen
      dsimp only [List.nil_append, Option.none_or]
      rw [handle_eq, screened]
      cases nestingFault? s d with
      | some f => rfl
      | none => cases motionFault? (K := K) d <;> rfl

/-! ## No trace -/

/-- The start is reported before a directive is handled. -/
theorem execute_eq (c : EngineContext) (d : Directive) (s : EngineState K) :
    execute c d s =
      let p := attempt c d { s with begun := true }
      ⟨p.state, (if s.begun then [] else [.begin c.source]) ++ p.events, p.notes,
        p.rejection⟩ := by
  obtain ⟨hstate, hevents⟩ := begin_run c s
  have hnotes : ((begin c).run s).notes = [] := by
    unfold begin
    rw [Action.run_state_bind]
    split <;> rfl
  unfold execute Progress.ofAction Progress.andThen
  rw [hstate, hevents, hnotes]
  rfl

theorem execute_of_rejection {s : EngineState K} {r : Rejection K}
    (h : (execute c d s).rejection = some r) :
    execute c d s =
      ⟨{ s with begun := true }, if s.begun then [] else [.begin c.source], [], some r⟩ := by
  rw [execute_eq] at h ⊢
  rw [refusesFirst_attempt c d _ _ h]
  simp only [List.append_nil]

/-- Whoever goes on after a refused directive comes to the same as without it. -/
theorem execute_after_refused {s : EngineState K} {r : Rejection K}
    (h : (execute c d s).rejection = some r) (next : Directive) :
    ⟨(execute c next (execute c d s).state).state,
      (execute c d s).events ++ (execute c next (execute c d s).state).events,
      (execute c d s).notes ++ (execute c next (execute c d s).state).notes,
      (execute c next (execute c d s).state).rejection⟩ = execute c next s := by
  rw [execute_of_rejection h, execute_eq c next, execute_eq c next]
  rfl

/-- A refused directive leaves the state as it was and reports nothing, except that the start
is told before it if it was not told yet. -/
theorem execute_refused {s : EngineState K} {e : SceneError}
    (h : (execute c d s).rejection = some (.scene e)) :
    (execute c d s).state = { s with begun := true } ∧
      (execute c d s).notes = [] ∧
      (execute c d s).events = (if s.begun then [] else [.begin c.source]) ∧
      ∀ next : Directive,
        (execute c next (execute c d s).state).state = (execute c next s).state ∧
        (execute c next (execute c d s).state).notes = (execute c next s).notes ∧
        (execute c d s).events ++ (execute c next (execute c d s).state).events =
          (execute c next s).events := by
  have hnotes : (execute c d s).notes = [] := by rw [execute_of_rejection h]
  refine ⟨by rw [execute_of_rejection h], hnotes, by rw [execute_of_rejection h], ?_⟩
  intro next
  have hnext := execute_after_refused h next
  rw [hnotes, List.nil_append] at hnext
  rw [← hnext]
  exact ⟨rfl, rfl, rfl⟩

/-- The state inside of the definition of an object. -/
def insideObject : EngineState Float :=
  (executeAll ⟨.rooted [], [], none⟩
    [⟨.worldBegin, [], .empty, none⟩, ⟨.objectBegin, [.text "a"], .empty, none⟩]
    (.initial .empty)).state

/-- An object that would be nested is refused, and the one around it stays open. -/
theorem execute_refused_insideObject :
    (execute ⟨.rooted [], [], none⟩ ⟨.objectBegin, [.text "b"], .empty, none⟩
        insideObject).rejection = some (.scene ⟨.nestedObject "b" "a", .unknown, none⟩) ∧
      (execute ⟨.rooted [], [], none⟩ ⟨.objectBegin, [.text "b"], .empty, none⟩
        insideObject).state.openObject.map (·.name) = some "a" ∧
      (execute ⟨.rooted [], [], none⟩ ⟨.objectBegin, [.text "b"], .empty, none⟩
        insideObject).events.length = 0 := by
  have h : (execute ⟨.rooted [], [], none⟩ ⟨.objectBegin, [.text "b"], .empty, none⟩
      insideObject).rejection = some (.scene ⟨.nestedObject "b" "a", .unknown, none⟩) := rfl
  obtain ⟨hstate, -, hevents, -⟩ := execute_refused h
  refine ⟨h, ?_, ?_⟩
  · rw [hstate]
    rfl
  · rw [hevents]
    rfl

end Engine
end SceneReader
