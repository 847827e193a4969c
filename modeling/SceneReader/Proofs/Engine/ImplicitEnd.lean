import SceneReader.Engine.Statistics
import SceneReader.Proofs.Engine.Cautions
import SceneReader.Scene.Builder

/-!
# Scenes that end by themselves

A scene may end inside the world, with any blocks open.  Finishing closes them one after the
other, from the innermost one outwards, and ends the world.  The directives that close them and end
the world, where they are written out, do the same: targets are told the same in the same order, and
the state is the same.  Only the note about the blocks that were left open is missing then.

Each of these directives closes one block in the same way as finishing does.  So a row of them is
followed block by block, whatever mixture of blocks is open.

**Results.**
* `execute_closer`, `executeAll_closers`: closing blocks by directives.
* `run_closed`: a scene that is left open, and the same scene with its ends written out.
-/

namespace SceneReader
namespace Engine

variable {K : Type}

/-! ## Closing blocks -/

theorem closeScopes_notes (n : Nat) (s : EngineState K) :
    ((closeScopes n).run s).notes = [] := by
  have hnone : Notes (fun _ => False) (closeScopes (K := K) n) := notes_closeScopes n
  exact List.eq_nil_iff_forall_not_mem.mpr (hnone s)

/-- Ending the world closes all blocks, with a note if there are any. -/
theorem endWorld_eq (span : Span) (s : EngineState K) :
    (endWorld span).run s =
      let a := (closeScopes s.scopes.length).run s
      ⟨(), { a.state with phase := .ended }, a.events ++ [.worldEnd],
        if s.scopes.length = 0 then []
        else [(Caution.unclosedScopes s.scopes.length).diagnostic span none]⟩ := by
  unfold endWorld
  rw [Action.run_state_bind]
  by_cases h : s.scopes.length = 0
  · rw [if_pos h, if_neg (not_not_intro h), h]
    rfl
  · rw [if_neg h, if_pos h]
    simp [Action.run_bind, closeScopes_notes]

variable [Scalar K] {c : EngineContext} {d : Directive} {s : EngineState K}

/-- A directive that closes the innermost block. -/
theorem execute_closer {scope : Scope K} {rest : List (Scope K)} (hbegun : s.begun = true)
    (hphase : s.phase = .world) (hscopes : s.scopes = scope :: rest)
    (hd : d.name = scope.kind.closer) : execute c d s = .ofAction closeScope s := by
  have hclose : closeFault? s scope.kind = none := by
    unfold closeFault?
    rw [hscopes]
    exact if_pos rfl
  have hpermit : permit c s d = .ok () := by
    cases hk : scope.kind <;> rw [hk] at hd hclose <;>
      simp [permit, hd, hphase, ScopeKind.closer, phaseFault?, DirectiveName.placement,
        nestingFault?, hclose, motionFault?, motion?]
  have hperform : perform (K := K) c d = closeScope := by
    unfold perform
    rw [hd]
    cases scope.kind <;> rfl
  rw [execute_of_begun hbegun, attempt_eq, hpermit, hperform]

/-- Directives that close all blocks, from the innermost one outwards. -/
theorem executeAll_closers {ends : List Directive} (hbegun : s.begun = true)
    (hphase : s.phase = .world)
    (hends : ends.map (·.name) = s.scopes.map (·.kind.closer)) :
    executeAll c ends s = .ofAction (closeScopes s.scopes.length) s := by
  -- one block after the other: the state behind the first closer has the other blocks open
  induction ends generalizing s with
  | nil =>
      have hscopes : s.scopes = [] := List.map_eq_nil_iff.mp hends.symm
      rw [hscopes]
      rfl
  | cons d ends ih =>
      obtain ⟨scope, rest, hscopes, hd, hrest⟩ := List.map_eq_cons_iff.mp hends.symm
      have hclosed := closed_closeScope s
      have htail : (closeScope.run s).state.scopes = rest := by
        rw [hclosed.scopes_eq, hscopes]
        rfl
      have hothers := ih (hclosed.begun_eq.trans hbegun) (hclosed.phase_eq.trans hphase)
        (by rw [htail, hrest])
      rw [executeAll, execute_closer hbegun hphase hscopes hd.symm]
      unfold Progress.andThen Progress.ofAction
      dsimp only
      rw [hothers, htail, hscopes]
      rfl

/-- The directive that ends the world. -/
theorem execute_worldEnd (hbegun : s.begun = true) (hphase : s.phase = .world)
    (hd : d.name = .worldEnd) : execute c d s = .ofAction (endWorld (c.whereIs d).1) s := by
  have hpermit : permit c s d = .ok () := by
    simp [permit, hd, hphase, phaseFault?, DirectiveName.placement, nestingFault?, motionFault?,
      motion?]
  rw [execute_of_begun hbegun, attempt_eq, hpermit, perform, hd]

/-- The directives that close all blocks and end the world do what ending the world does by
itself, except that nothing is noted. -/
theorem executeAll_ends {ends : List Directive} (hbegun : s.begun = true)
    (hphase : s.phase = .world)
    (hends : ends.map (·.name) = s.scopes.map (·.kind.closer) ++ [.worldEnd]) (span : Span) :
    executeAll c ends s =
      ⟨((endWorld span).run s).state, ((endWorld span).run s).events, [], none⟩ := by
  obtain ⟨closers, lasts, rfl, hclosers, hlasts⟩ := List.map_eq_append_iff.mp hends
  obtain ⟨last, rfl, hlast⟩ := List.map_eq_singleton_iff.mp hlasts
  have hclosed := (closedAll_closeScopes s.scopes.length s).unchanged
  have hnone : ((closeScopes s.scopes.length).run s).state.scopes.length = 0 := by
    rw [closeScopes_scopes, List.drop_length, List.length_nil]
  rw [executeAll_append, executeAll_closers hbegun hphase hclosers, endWorld_eq]
  unfold Progress.andThen Progress.ofAction
  dsimp only
  rw [executeAll_singleton,
    execute_worldEnd (hclosed.1.trans hbegun) (hclosed.2.1.trans hphase) hlast, Progress.ofAction,
    endWorld_eq, hnone, closeScopes_notes]
  rfl

/-! ## Scenes that are left open -/

/-- What is noted of blocks that are open where the input ends. -/
def openNotes (count : Nat) : Diagnostics :=
  if count = 0 then [] else [(Caution.unclosedScopes count).diagnostic .unknown none]

/-- Two runs tell targets the same and come to the same, and the first one has more to note in the
end. -/
structure SameEnd (p q : Progress K) (more : Diagnostics) : Prop where
  accepted : p.rejection = none ∧ q.rejection = none
  events : p.events = q.events
  state : p.state = q.state
  notes : p.notes = q.notes ++ more
  scene : ∀ here, Scene.ofEvents here p.events = Scene.ofEvents here q.events
  statistics : Statistics.ofEvents p.events = Statistics.ofEvents q.events

section Runs

variable {ds ends : List Directive} {dirs : DirectoryStack}

/-- A run that ends inside the world ends the world. -/
theorem run_inWorld (haccepted : (started (K := K) c ds dirs).rejection = none)
    (hphase : (started (K := K) c ds dirs).state.phase = .world) :
    run (K := K) c ds (.initial dirs) =
      let p := started (K := K) c ds dirs
      let a := (endWorld .unknown).run p.state
      ⟨a.state, p.events ++ a.events ++ [.finish], p.notes ++ a.notes, none⟩ := by
  have hfinish : finish.run (started (K := K) c ds dirs).state =
      let a := (endWorld .unknown).run (started (K := K) c ds dirs).state
      ⟨(), a.state, a.events ++ [.finish], a.notes⟩ := by
    unfold finish
    rw [Action.run_state_bind, hphase]
    simp [Action.run_bind]
  change (started c ds dirs).andThen (Progress.ofAction finish) = _
  unfold Progress.andThen Progress.ofAction
  rw [haccepted, hfinish]
  simp [List.append_assoc]

/-- The same run with the ends written out. -/
theorem run_ends (haccepted : (started (K := K) c ds dirs).rejection = none)
    (hphase : (started (K := K) c ds dirs).state.phase = .world)
    (hends : ends.map (·.name) =
      (started (K := K) c ds dirs).state.scopes.map (·.kind.closer) ++ [.worldEnd]) :
    run (K := K) c (ds ++ ends) (.initial dirs) =
      let p := started (K := K) c ds dirs
      let a := (endWorld .unknown).run p.state
      ⟨a.state, p.events ++ a.events ++ [.finish], p.notes, none⟩ := by
  have horderly : Orderly (started (K := K) c ds dirs).state :=
    orderly_of_reachable (reachable_executeAll (Reachable.initial dirs).begun ds)
  have hbegun : (started (K := K) c ds dirs).state.begun = true := by
    by_contra hnot
    have hidle := (horderly.idle (Bool.eq_false_iff.mpr hnot)).1
    rw [hphase] at hidle
    cases hidle
  have hended : ((endWorld .unknown).run (started (K := K) c ds dirs).state).state.phase =
      .ended := by rw [endWorld_eq]
  have hfinish (s : EngineState K) (hs : s.phase = .ended) :
      finish.run s = ⟨(), s, [.finish], []⟩ := by
    unfold finish
    rw [Action.run_state_bind, hs]
    rfl
  change (started c (ds ++ ends) dirs).andThen (Progress.ofAction finish) = _
  rw [started_append]
  unfold Progress.andThen Progress.ofAction
  rw [haccepted]
  dsimp only
  rw [executeAll_ends hbegun hphase hends .unknown]
  dsimp only
  rw [hfinish _ hended]
  simp

end Runs

/-- A scene that ends inside the world comes to the same as with its open blocks and its world
closed by directives, except that the blocks that were left open are noted. -/
theorem run_closed {c : EngineContext} {ds ends : List Directive} {dirs : DirectoryStack}
    (haccepted : (started (K := K) c ds dirs).rejection = none)
    (hphase : (started (K := K) c ds dirs).state.phase = .world)
    (hends : ends.map (·.name) =
      (started (K := K) c ds dirs).state.scopes.map (·.kind.closer) ++ [.worldEnd]) :
    SameEnd (run (K := K) c ds (.initial dirs)) (run c (ds ++ ends) (.initial dirs))
      (openNotes (started (K := K) c ds dirs).state.scopes.length) := by
  rw [run_inWorld haccepted hphase, run_ends haccepted hphase hends]
  have hnotes : ((endWorld .unknown).run (started (K := K) c ds dirs).state).notes =
      openNotes (started (K := K) c ds dirs).state.scopes.length := by
    rw [endWorld_eq]
    rfl
  exact ⟨⟨rfl, rfl⟩, rfl, rfl, congrArg _ hnotes, fun _ => rfl, rfl⟩

/-- A block of attributes inside of an object, in a block of attributes, behind a transform block
that was opened before the world began. -/
def openBlocks : List Directive :=
  [⟨.transformBegin, [], .empty, none⟩, ⟨.worldBegin, [], .empty, none⟩,
    ⟨.attributeBegin, [], .empty, none⟩, ⟨.objectBegin, [.text "a"], .empty, none⟩,
    ⟨.attributeBegin, [], .empty, none⟩]

/-- The ends of these blocks and of the world. -/
def writtenEnds : List Directive :=
  [⟨.attributeEnd, [], .empty, none⟩, ⟨.objectEnd, [], .empty, none⟩,
    ⟨.attributeEnd, [], .empty, none⟩, ⟨.transformEnd, [], .empty, none⟩,
    ⟨.worldEnd, [], .empty, none⟩]

/-- Four blocks are open, and this is all that is noted. -/
theorem run_closed_openBlocks :
    let c : EngineContext := ⟨.rooted [], [], none⟩
    SameEnd (run (K := Float) c openBlocks (.initial .empty))
      (run c (openBlocks ++ writtenEnds) (.initial .empty))
      [(Caution.unclosedScopes 4).diagnostic .unknown none] := by
  intro c
  have haccepted : (started (K := Float) c openBlocks .empty).rejection = none := rfl
  have hphase : (started (K := Float) c openBlocks .empty).state.phase = .world := by
    decide +kernel
  have hends : writtenEnds.map (·.name) =
      (started (K := Float) c openBlocks .empty).state.scopes.map (·.kind.closer) ++
        [.worldEnd] := by decide +kernel
  have hcount : (started (K := Float) c openBlocks .empty).state.scopes.length = 4 := by
    decide +kernel
  have hend := run_closed haccepted hphase hends
  rw [hcount] at hend
  exact hend

end Engine
end SceneReader
