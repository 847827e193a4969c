import SceneReader.Proofs.Engine.Protocol

/-!
# Transforms that end a run

A directive is refused for its name, which is an error of the scene, or for its transform,
which is none.  The latter happens to endless turns only, and the run has to come to them:
the names of the directives before are accepted, and so is its own.  Any other degenerate
transform is skipped with a caution.

**Results.**
* `executeAll_transform_iff`, `run_transform_iff`: rows and runs that a transform ends.
* `execute_eq_skipped_iff`: degenerate transforms are skipped unless they are endless turns.
-/

namespace SceneReader
namespace Engine

variable {K : Type} [Scalar K] {c : EngineContext} {d : Directive} {ds : List Directive}
  {s : EngineState K}

/-! ## Rows that meet an endless turn -/

/-- From a stage on, the row comes to an endless turn before a name is refused. -/
def MeetsEndlessTurn (K : Type) [Scalar K] : Stage → List Directive → Prop
  | _, [] => False
  | q, d :: ds => q.code? d.name = none ∧
      (IsEndlessTurn K d ∨ MeetsEndlessTurn K (q.next d.name) ds)

/-- A row is ended by a transform where it meets an endless turn. -/
theorem executeAll_transform_iff (hfits : ∀ d ∈ ds, d.name.signature.Fits d.args)
    (ha : IsArranged s) {f : TransformFault K} :
    (executeAll c ds s).rejection = some (.transform f) ↔
      f = .unboundedAngle ∧ MeetsEndlessTurn K s.stage ds := by
  induction ds generalizing s with
  | nil => exact ⟨fun h => (by cases h), fun h => h.2.elim⟩
  | cons d ds ih =>
      obtain ⟨hd, hds⟩ := List.forall_mem_cons.mp hfits
      unfold executeAll Progress.andThen MeetsEndlessTurn
      rcases execute_stage c d ha with ⟨e, hsome, hcode⟩ | ⟨hcode, hnone, hexecuted⟩
      · -- A name that is refused ends the row before any transform is looked at.
        rw [hsome, hcode]
        dsimp only
        rw [hsome]
        exact ⟨fun h => (by cases h), fun h => (by cases h.2.1)⟩
      · by_cases hturn : IsEndlessTurn K d
        · rw [(motionFault?_eq_some_iff hd).mpr ⟨rfl, hturn⟩] at hnone
          rw [hnone]
          dsimp only [Option.map_some]
          rw [hnone]
          refine ⟨fun h => ?_, fun h => congrArg (some ∘ Rejection.transform) h.1.symm⟩
          cases h
          exact ⟨rfl, hcode, Or.inl hturn⟩
        · have hmotion := (motionFault?_eq_none_iff hd).mpr hturn
          obtain ⟨hstage, harranged⟩ := hexecuted hmotion
          rw [hmotion] at hnone
          rw [hnone]
          dsimp only [Option.map_none]
          rw [ih hds harranged, hstage]
          simp [hcode, hturn]

/-- A run is ended by a transform where its directives meet an endless turn. -/
theorem run_transform_iff (hfits : ∀ d ∈ ds, d.name.signature.Fits d.args)
    {f : TransformFault K} :
    (run c ds (.initial .empty)).rejection = some (.transform f) ↔
      f = .unboundedAngle ∧ MeetsEndlessTurn K .start ds := by
  have hstart : IsArranged { EngineState.initial (K := K) .empty with begun := true } := .nil
  rw [run_rejection]
  exact executeAll_transform_iff hfits hstart

/-! ## Degenerate transforms -/

/-- The directive asks for a transform that there is not. -/
def IsDegenerate (K : Type) [Scalar K] (d : Directive) : Prop :=
  ∃ f : TransformFault K, motion? d = some (.error f)

/-- The directive is skipped with a caution. -/
def skipped (c : EngineContext) (d : Directive) (s : EngineState K) : Progress K :=
  ⟨s, [], [(Caution.degenerateTransform d.name.text).diagnostic (c.whereIs d).1 (c.whereIs d).2],
    none⟩

theorem perform_of_isDegenerate (h : IsDegenerate K d) :
    Progress.ofAction (perform c d) s = skipped c d s := by
  obtain ⟨f, hf⟩ := h
  have hmove (replaces : Bool) :
      Progress.ofAction (move c d replaces) s = skipped c d s := by
    unfold move
    rw [hf]
    rfl
  unfold perform
  cases hname : d.name with
  | translate => exact hmove false
  | scale => exact hmove false
  | rotate => exact hmove false
  | lookAt => exact hmove false
  | concatTransform => exact hmove false
  | transform => exact hmove true
  | _ => simp [motion?, hname] at hf

/-- A degenerate transform that is not out of place is skipped exactly if it is no endless
turn. -/
theorem execute_eq_skipped_iff (hfits : d.name.signature.Fits d.args)
    (hbegun : s.begun = true) (hcode : s.stage.code? d.name = none) (h : IsDegenerate K d) :
    execute c d s = skipped c d s ↔ ¬ IsEndlessTurn K d := by
  rw [execute_of_begun hbegun, attempt_eq]
  rcases permit_stage c d s with ⟨e, -, hcode'⟩ | ⟨-, hp⟩
  · rw [hcode'] at hcode
    cases hcode
  · by_cases hturn : IsEndlessTurn K d
    · rw [(motionFault?_eq_some_iff hfits).mpr ⟨rfl, hturn⟩] at hp
      rw [hp]
      refine iff_of_false (fun h => ?_) fun h => h hturn
      cases congrArg Progress.rejection h
    · rw [(motionFault?_eq_none_iff hfits).mpr hturn] at hp
      rw [hp]
      exact iff_of_true (perform_of_isDegenerate h) hturn

end Engine
end SceneReader
