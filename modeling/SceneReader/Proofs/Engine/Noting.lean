import SceneReader.Proofs.Engine.Stacks

/-!
# What is noted on the way

Directives note what they skip or put right.  An invariant may be about these notes as well: it
holds at the start, and is kept by the start, by admitted directives, by the end of a world and
by a finish.  A finish without a world has a note of its own.

**Results.**
* `noted_executeAll`, `noted_run`: the notes of a row of directives and of a run.
* `Noted.kept`: the rule of invariants that are about notes.
* `Notes.bind`, `Notes.foldlM`: a condition on all that an action notes.
-/

namespace SceneReader
namespace Engine

variable {K : Type}

/-! ## States with what was noted on the way -/

section Runs

variable [Scalar K] {c : EngineContext} {s : EngineState K} {es : List (Event K)}
  {ns : Diagnostics}

/-- The states that directives lead to, with all that was reported and noted on the way. -/
inductive Noted (c : EngineContext) : EngineState K → List (Event K) → Diagnostics → Prop
  | initial (dirs : DirectoryStack) : Noted c (.initial dirs) [] []
  | begun {s : EngineState K} {es : List (Event K)} {ns : Diagnostics} (h : Noted c s es ns) :
      Noted c ((begin c).run s).state (es ++ ((begin c).run s).events)
        (ns ++ ((begin c).run s).notes)
  | executed {s : EngineState K} {es : List (Event K)} {ns : Diagnostics} (h : Noted c s es ns)
      (d : Directive) :
      Noted c (execute c d s).state (es ++ (execute c d s).events) (ns ++ (execute c d s).notes)
  | finished {s : EngineState K} {es : List (Event K)} {ns : Diagnostics} (h : Noted c s es ns) :
      Noted c (finish.run s).state (es ++ (finish.run s).events) (ns ++ (finish.run s).notes)

theorem noted_executeAll (h : Noted c s es ns) (ds : List Directive) :
    Noted c (executeAll c ds s).state (es ++ (executeAll c ds s).events)
      (ns ++ (executeAll c ds s).notes) := by
  induction ds generalizing s es ns with
  | nil =>
      rw [executeAll, List.append_nil, List.append_nil]
      exact h
  | cons d ds ih =>
      have hd := h.executed d
      unfold executeAll Progress.andThen
      cases (execute c d s).rejection with
      | some r => exact hd
      | none =>
          dsimp only
          rw [← List.append_assoc, ← List.append_assoc]
          exact ih hd

theorem noted_run (c : EngineContext) (ds : List Directive) (dirs : DirectoryStack) :
    Noted c (run (K := K) c ds (.initial dirs)).state
      (run (K := K) c ds (.initial dirs)).events (run (K := K) c ds (.initial dirs)).notes := by
  have hb := noted_executeAll (Noted.initial (K := K) (c := c) dirs).begun ds
  rw [List.nil_append, List.nil_append] at hb
  unfold run Progress.andThen Progress.ofAction
  dsimp only
  cases (executeAll c ds ((begin c).run (EngineState.initial (K := K) dirs)).state).rejection with
  | some r => exact hb
  | none => exact hb.finished

/-- What holds at the start, and is kept when the start is told, by admitted directives after
that, by the end of a world and by a finish. -/
structure IsNoted (c : EngineContext)
    (I : EngineState K → List (Event K) → Diagnostics → Prop) : Prop where
  initial : ∀ dirs, I (.initial dirs) [] []
  begun : ∀ {s es ns}, s.begun = false → I s es ns →
    I { s with begun := true } (es ++ [.begin c.source]) ns
  performed : ∀ {d s es ns}, s.begun = true → permit c s d = .ok () → I s es ns →
    I ((perform c d).run s).state (es ++ ((perform c d).run s).events)
      (ns ++ ((perform c d).run s).notes)
  ended : ∀ {s es ns}, s.phase = .world → I s es ns →
    I ((endWorld .unknown).run s).state (es ++ ((endWorld .unknown).run s).events)
      (ns ++ ((endWorld .unknown).run s).notes)
  worldless : ∀ {s es ns}, s.phase = .options → I s es ns →
    I s es (ns ++ [Caution.noWorld.diagnostic .unknown none])
  finished : ∀ {s es ns}, I s es ns → I s (es ++ [.finish]) ns

namespace IsNoted

variable {I : EngineState K → List (Event K) → Diagnostics → Prop}

theorem begin (h : IsNoted c I) (hs : I s es ns) :
    I ((Engine.begin c).run s).state (es ++ ((Engine.begin c).run s).events)
      (ns ++ ((Engine.begin c).run s).notes) := by
  obtain ⟨hstate, hevents⟩ := begin_run c s
  have hnotes : ((Engine.begin c).run s).notes = [] := by
    unfold Engine.begin
    rw [Action.run_state_bind]
    split <;> rfl
  rw [hstate, hevents, hnotes, List.append_nil]
  cases hb : s.begun with
  | false => exact h.begun hb hs
  | true =>
      rw [if_pos rfl, List.append_nil, ← hb]
      exact hs

theorem execute (h : IsNoted c I) (hs : I s es ns) (d : Directive) :
    I (Engine.execute c d s).state (es ++ (Engine.execute c d s).events)
      (ns ++ (Engine.execute c d s).notes) := by
  have hbegin := h.begin hs
  rw [(begin_run c s).1] at hbegin
  unfold Engine.execute Progress.andThen Progress.ofAction
  dsimp only
  rw [(begin_run c s).1, attempt_eq, ← List.append_assoc, ← List.append_assoc]
  cases hp : permit c { s with begun := true } d with
  | error r =>
      rw [List.append_nil, List.append_nil]
      exact hbegin
  | ok u => exact h.performed rfl hp hbegin

theorem finish (h : IsNoted c I) (hs : I s es ns) :
    I (Engine.finish.run s).state (es ++ (Engine.finish.run s).events)
      (ns ++ (Engine.finish.run s).notes) := by
  unfold Engine.finish
  rw [Action.run_state_bind]
  cases hphase : s.phase with
  | options => exact h.finished (h.worldless hphase hs)
  | ended =>
      have hfinished := h.finished hs
      rw [← List.append_nil ns] at hfinished
      exact hfinished
  | world =>
      have hended := h.finished (h.ended hphase hs)
      rw [List.append_assoc, ← List.append_nil (ns ++ _), List.append_assoc ns] at hended
      exact hended

end IsNoted

/-- An invariant of this kind holds of all that is reported and noted. -/
theorem Noted.kept {I : EngineState K → List (Event K) → Diagnostics → Prop}
    (h : Noted c s es ns) (hI : IsNoted c I) : I s es ns := by
  induction h with
  | initial dirs => exact hI.initial dirs
  | begun _ ih => exact hI.begin ih
  | executed _ d ih => exact hI.execute ih d
  | finished _ ih => exact hI.finish ih

end Runs

/-! ## What actions note -/

/-- All that the action notes satisfies a condition. -/
def Notes {α : Type} (P : Diagnostic → Prop) (a : Action K α) : Prop :=
  ∀ s, ∀ n ∈ (a.run s).notes, P n

namespace Notes

variable {α β : Type} {P : Diagnostic → Prop}

theorem pure (a : α) : Notes P (Pure.pure a : Action K α) :=
  fun _ _ h => absurd h List.not_mem_nil

theorem change (f : EngineState K → EngineState K) : Notes P (Action.change f) :=
  fun _ _ h => absurd h List.not_mem_nil

theorem emit (e : Event K) : Notes P (Action.emit e) := fun _ _ h => absurd h List.not_mem_nil

theorem note {n : Diagnostic} (h : P n) : Notes P (Action.note n : Action K Unit) :=
  fun _ _ hm => List.mem_singleton.mp hm ▸ h

theorem bind {x : Action K α} {f : α → Action K β} (hx : Notes P x) (hf : ∀ a, Notes P (f a)) :
    Notes P (x >>= f) := by
  intro s n hn
  rw [Action.run_bind] at hn
  exact (List.mem_append.mp hn).elim (hx s n) (hf _ _ n)

theorem state_bind {f : EngineState K → Action K β} (hf : ∀ s, Notes P (f s)) :
    Notes P (Action.state >>= f) := fun s => hf s s

theorem foldlM {x : β → α → Action K β} (h : ∀ b a, Notes P (x b a)) (b : β) (as : List α) :
    Notes P (as.foldlM x b) := by
  induction as generalizing b with
  | nil => exact pure b
  | cons a as ih => exact bind (h b a) ih

end Notes

end Engine
end SceneReader
