import SceneReader.Proofs.Engine.Cautions
import SceneReader.Proofs.Engine.Objects

/-!
# Objects that are defined again

An object that is defined under a name that is taken already is noted at its begin, and takes
the place of the old one at its end.  Nothing changes the objects in between, since definitions
are not nested.  So the definitions that ended are as many as the objects that there are, and
the notes.

**Invariant.**  `definitions_isNoted`: definitions that ended, and one more if the open object
will take the place of another, are as many as the objects and the notes of redefinitions.

**Results.**
* `isSilent_perform`: only the begin of an object notes a redefinition.
* `definitions_of_run`: the definitions, objects and notes of a whole run.
-/

namespace SceneReader
namespace Engine

variable {K : Type}

/-! ## Notes of redefinitions -/

/-- The code of an object that is defined again. -/
def redefined : String := "W312"

/-- How many notes there are of objects that are defined again. -/
def redefinitions (ns : Diagnostics) : Nat := ns.codes.count redefined

theorem redefinitions_append (ns ns' : Diagnostics) :
    redefinitions (ns ++ ns') = redefinitions ns + redefinitions ns' := by
  simp [redefinitions, Diagnostics.codes]

/-- The action notes no redefinition. -/
def IsSilent {α : Type} (a : Action K α) : Prop := Notes (fun n => n.code ≠ redefined) a

theorem IsSilent.redefinitions {α : Type} {a : Action K α} (h : IsSilent a)
    (s : EngineState K) : redefinitions (a.run s).notes = 0 := by
  refine List.count_eq_zero.mpr fun hmem => ?_
  obtain ⟨n, hn, hcode⟩ := List.mem_map.mp hmem
  exact h s n hn hcode

theorem code_ne_redefined {w : Caution} (h : ∀ name, w ≠ .objectRedefined name) :
    w.code ≠ redefined := by
  cases w with
  | objectRedefined name => exact absurd rfl (h name)
  | _ => simp [Caution.code, redefined]

section Actions

variable (c : EngineContext) (d : Directive)

/-- Only the begin of an object notes a redefinition. -/
theorem isSilent_perform [Scalar K] (hd : d.name ≠ .objectBegin) :
    IsSilent (perform (K := K) c d) :=
  notes_perform (fun _ hw => code_ne_redefined hw)
    (fun count => code_ne_redefined (w := .unclosedScopes count) nofun) hd

theorem isSilent_endWorld (span : Span) : IsSilent (endWorld (K := K) span) :=
  notes_endWorld fun count => code_ne_redefined (w := .unclosedScopes count) nofun

/-- The begin of an object notes a redefinition if the name is taken. -/
theorem redefinitions_beginObject (s : EngineState K) :
    redefinitions ((beginObject c d).run s).notes =
      if s.objects.contains d.subject then 1 else 0 := by
  have hrest : IsSilent (K := K) (do
      openScope .object
      .change fun s => { s with openObject := some ⟨d.subject, []⟩ }
      .emit (.objectBegin d.subject)) := notes_openObject d.subject
  unfold beginObject
  rw [Action.run_state_bind]
  by_cases hc : s.objects.contains d.subject = true
  · rw [if_pos hc, if_pos hc, run_warn_bind]
    exact (redefinitions_append [_] _).trans (congrArg (1 + ·) (hrest.redefinitions s))
  · rw [if_neg hc, if_neg hc]
    exact hrest.redefinitions s

end Actions

/-! ## Definitions, objects and notes -/

section Runs

variable [Scalar K] {c : EngineContext} {d : Directive} {s : EngineState K}

/-- Definitions that ended, and one more if the open object will take the place of another, are
as many as the objects and the notes of redefinitions. -/
theorem definitions_isNoted (c : EngineContext) : IsNoted (K := K) c fun s es ns =>
    Orderly s ∧ es.countP Event.endsObject + replaced s = s.objects.size + redefinitions ns where
  initial dirs := ⟨(orderly_kept c).initial dirs, rfl⟩
  begun {s es ns} hbegun h := by
    refine ⟨h.1.begun, ?_⟩
    rw [List.countP_append]
    exact h.2
  performed {d s es ns} hbegun hp h := by
    obtain ⟨horderly, hcount⟩ := h
    refine ⟨horderly.performed hbegun hp, ?_⟩
    rw [List.countP_append, redefinitions_append]
    by_cases hd : d.name = .objectBegin
    · have hopen := openObject_of_permit_objectBegin hp hd
      have hnone : replaced s = 0 := replaced_of_closed hopen
      obtain ⟨hs, he⟩ := beginObject_run c d s
      rw [run_perform_objectBegin c hd, redefinitions_beginObject, hs, he]
      rw [hnone] at hcount
      change es.countP Event.endsObject + 0 + (if s.objects.contains d.subject then 1 else 0) =
        s.objects.size + _
      omega
    · have heffect := (defines_of_effect (perform_effect c d s) hd).count
      rw [(isSilent_perform c d hd).redefinitions s]
      omega
  ended {s es ns} hphase h := by
    obtain ⟨horderly, hcount⟩ := h
    refine ⟨horderly.ended hphase .unknown, ?_⟩
    obtain ⟨s₁, es₁, hc, hs, he⟩ := endWorld_run .unknown s
    have hended := (Defines.of_ended ⟨s₁, es₁, hc, hs, he⟩).count
    rw [List.countP_append, redefinitions_append, (isSilent_endWorld .unknown).redefinitions s]
    omega
  worldless {s es ns} _ h := by
    refine ⟨h.1, ?_⟩
    rw [redefinitions_append]
    exact h.2
  finished {s es ns} h := by
    refine ⟨h.1, ?_⟩
    rw [List.countP_append]
    exact h.2

/-- A run that ends without an error leaves no object open. -/
theorem openObject_run {ds : List Directive} {dirs : DirectoryStack}
    (h : (run (K := K) c ds (.initial dirs)).rejection = none) :
    (run (K := K) c ds (.initial dirs)).state.openObject = none := by
  have horderly := orderly_of_reachable
    (reachable_executeAll (Reachable.initial (K := K) (c := c) dirs).begun ds)
  obtain ⟨es, -, -, hopen, -⟩ := tells_finish horderly.arranged horderly.sound
  rw [run_rejection] at h
  change ((started c ds dirs).andThen (Progress.ofAction finish)).state.openObject = none
  rw [started_eq]
  unfold Progress.andThen
  dsimp only
  rw [h]
  exact hopen

/-- In a run that ends without an error, the definitions that ended are as many as the objects
and the notes of redefinitions. -/
theorem definitions_of_run {ds : List Directive} {dirs : DirectoryStack}
    (h : (run (K := K) c ds (.initial dirs)).rejection = none) :
    let p := run (K := K) c ds (.initial dirs)
    p.events.countP Event.endsObject = p.state.objects.size + redefinitions p.notes := by
  intro p
  obtain ⟨horderly, hcount⟩ := (noted_run (K := K) c ds dirs).kept (definitions_isNoted c)
  have hnone : replaced p.state = 0 := replaced_of_closed (openObject_run h)
  rw [hnone] at hcount
  exact hcount

end Runs

end Engine
end SceneReader
