import SceneReader.Proofs.Engine.Lookup
import SceneReader.Proofs.Engine.Protocol

/-!
# Blocks and stacks in every state

Open blocks, saved graphics states and the open object are changed by different actions.
They go together nevertheless, in every state that directives lead to, whether they were
refused on the way or not.

**Invariant.**  `Orderly`: blocks are arranged and agree with the stacks, the phase allows
the blocks that are open, and nothing is open before the start is told.

**Results.**
* `Reachable.kept`: the rule of invariants for what is kept by admitted directives.
* `orderly_of_reachable`: the invariant holds in all reachable states.
* `Arranged.reported_iff`: of which blocks targets are told.
* `Orderly.restores`, `Orderly.base`: what closing blocks and capturing shapes look for is
  there.
-/

namespace SceneReader

variable {K : Type}

/-! ## Blocks before the world -/

/-- In the options block only transform blocks are open. -/
def Stage.OpensTransforms (q : Stage) : Prop :=
  q.phase = .options → ∀ kind ∈ q.blocks, kind = .transform

theorem Stage.OpensTransforms.next {q : Stage} {name : DirectiveName} (h : q.OpensTransforms)
    (hcode : q.code? name = none) : (q.next name).OpensTransforms := by
  obtain ⟨-, hoptions, -⟩ := phase_of_phaseCode? (Option.or_eq_none_iff.mp hcode).1
  intro hphase
  have closed : q.phase = .options → ∀ kind ∈ q.blocks.tail, kind = .transform :=
    fun hq kind hk => h hq kind (List.mem_of_mem_tail hk)
  cases name with
  | worldBegin => cases hphase
  | worldEnd => cases hphase
  | attributeBegin => exact absurd rfl (hoptions hphase)
  | attributeEnd => exact closed hphase
  | transformBegin => exact List.forall_mem_cons.mpr ⟨rfl, h hphase⟩
  | transformEnd => exact closed hphase
  | objectBegin => exact absurd rfl (hoptions hphase)
  | objectEnd => exact closed hphase
  | _ => exact h hphase

namespace Engine

/-! ## Of which blocks targets are told -/

/-- The flag of arranged blocks says whether one of them is that of an object. -/
theorem Arranged.flag_iff {inObject : Bool} {scopes : List (Scope K)}
    (h : Arranged inObject scopes) :
    inObject = true ↔ ∃ scope ∈ scopes, scope.kind = .object := by
  induction h with
  | nil => simp
  | told hk hr h ih => simpa [hk] using ih
  | object hk hr h ih => simp [hk]
  | inside hk hr h ih => simpa [hk] using ih

theorem Arranged.of_append {inObject : Bool} {inner outer : List (Scope K)}
    (h : Arranged inObject (inner ++ outer)) : ∃ below, Arranged below outer := by
  induction inner generalizing inObject with
  | nil => exact ⟨inObject, h⟩
  | cons scope inner ih =>
      cases h with
      | told _ _ h => exact ih h
      | object _ _ h => exact ih h
      | inside _ _ h => exact ih h

/-- Targets are told of the blocks that are outside of all objects. -/
theorem Arranged.reported_iff {inObject : Bool} {inner outer : List (Scope K)} {scope : Scope K}
    (h : Arranged inObject (inner ++ scope :: outer)) :
    scope.reported = true ↔ scope.kind ≠ .object ∧ ∀ below ∈ outer, below.kind ≠ .object := by
  obtain ⟨flag, hflag⟩ := h.of_append
  cases hflag with
  | told hk hr h =>
      have hnone := h.flag_iff.not.mp Bool.false_ne_true
      push Not at hnone
      exact iff_of_true hr ⟨hk, hnone⟩
  | object hk hr h => exact iff_of_false (by simp [hr]) fun hout => hout.1 hk
  | inside hk hr h =>
      obtain ⟨below, hmem, hobject⟩ := h.flag_iff.mp rfl
      exact iff_of_false (by simp [hr]) fun hout => hout.2 below hmem hobject

/-! ## The rule of invariants -/

variable [Scalar K] {c : EngineContext} {s : EngineState K} {es : List (Event K)}

/-- What holds at the start, and is kept when the start is told, by admitted directives after
that, by the end of a world and by a finish. -/
structure IsKept (c : EngineContext) (I : EngineState K → List (Event K) → Prop) : Prop where
  initial : ∀ dirs, I (.initial dirs) []
  begun : ∀ {s es}, s.begun = false → I s es →
    I { s with begun := true } (es ++ [.begin c.source])
  performed : ∀ {d s es}, s.begun = true → permit c s d = .ok () → I s es →
    I ((perform c d).run s).state (es ++ ((perform c d).run s).events)
  ended : ∀ {s es}, s.phase = .world → I s es →
    I ((endWorld .unknown).run s).state (es ++ ((endWorld .unknown).run s).events)
  finished : ∀ {s es}, I s es → I s (es ++ [.finish])

namespace IsKept

variable {I : EngineState K → List (Event K) → Prop}

theorem begin (h : IsKept c I) (hs : I s es) :
    I ((Engine.begin c).run s).state (es ++ ((Engine.begin c).run s).events) := by
  obtain ⟨hstate, hevents⟩ := begin_run c s
  rw [hstate, hevents]
  cases hb : s.begun with
  | false => exact h.begun hb hs
  | true =>
      rw [if_pos rfl, List.append_nil, ← hb]
      exact hs

theorem execute (h : IsKept c I) (hs : I s es) (d : Directive) :
    I (Engine.execute c d s).state (es ++ (Engine.execute c d s).events) := by
  have hbegin := h.begin hs
  rw [(begin_run c s).1] at hbegin
  unfold Engine.execute Progress.andThen Progress.ofAction
  dsimp only
  rw [(begin_run c s).1, attempt_eq, ← List.append_assoc]
  cases hp : permit c { s with begun := true } d with
  | error r =>
      rw [List.append_nil]
      exact hbegin
  | ok u => exact h.performed rfl hp hbegin

theorem finish (h : IsKept c I) (hs : I s es) :
    I (Engine.finish.run s).state (es ++ (Engine.finish.run s).events) := by
  unfold Engine.finish
  rw [Action.run_state_bind]
  cases hphase : s.phase with
  | options => exact h.finished hs
  | ended => exact h.finished hs
  | world =>
      have hended := h.finished (h.ended hphase hs)
      rw [List.append_assoc] at hended
      exact hended

end IsKept

/-- An invariant of this kind holds in all reachable states. -/
theorem Reachable.kept {I : EngineState K → List (Event K) → Prop} (h : Reachable c s es)
    (hI : IsKept c I) : I s es := by
  induction h with
  | initial dirs => exact hI.initial dirs
  | begun _ ih => exact hI.begin ih
  | executed _ d ih => exact hI.execute ih d
  | finished _ ih => exact hI.finish ih

/-! ## Orderly states -/

/-- Blocks are arranged and agree with the stacks and with the phase, and before the start is
told nothing is open. -/
structure Orderly (s : EngineState K) : Prop where
  arranged : IsArranged s
  consistent : Consistent s
  sound : s.stage.IsSound
  opening : s.stage.OpensTransforms
  idle : s.begun = false → s.phase = .options ∧ s.scopes = []

omit [Scalar K] in
theorem Orderly.begun (h : Orderly s) : Orderly { s with begun := true } :=
  ⟨h.arranged, ⟨h.consistent.saved, h.consistent.object⟩, h.sound, h.opening, nofun⟩

theorem Orderly.performed {d : Directive} (h : Orderly s) (hbegun : s.begun = true)
    (hp : permit c s d = .ok ()) : Orderly ((perform c d).run s).state := by
  obtain ⟨hstage, harranged⟩ := stage_perform h.arranged hp
  have hcode := code?_of_permit hp
  have hbegun' := (tells_perform h.arranged h.sound hp).begun.trans hbegun
  refine ⟨harranged, consistent_of_effect hp (perform_effect c d s) h.consistent, ?_, ?_, ?_⟩
  · rw [hstage]
    exact h.sound.next hcode
  · rw [hstage]
    exact h.opening.next hcode
  · intro hidle
    rw [hbegun'] at hidle
    cases hidle

omit [Scalar K] in
theorem Orderly.ended (h : Orderly s) (hphase : s.phase = .world) (span : Span) :
    Orderly ((endWorld span).run s).state := by
  obtain ⟨hstage, harranged⟩ := stage_endWorld h.arranged span
  obtain ⟨s₁, es, hc, hs, -⟩ := endWorld_run span s
  have hclosed := h.consistent.closedAll hc
  have hbegun := (tells_endWorld h.arranged hphase span).begun
  refine ⟨harranged, ?_, ?_, ?_, ?_⟩
  · rw [hs]
    exact ⟨hclosed.saved, hclosed.object⟩
  · rw [hstage]
    exact ⟨nofun, fun _ => rfl⟩
  · rw [hstage]
    exact nofun
  · intro hidle
    have hoptions := (h.idle (hbegun.symm.trans hidle)).1
    rw [hphase] at hoptions
    cases hoptions

theorem orderly_kept (c : EngineContext) : IsKept (K := K) c fun s _ => Orderly s where
  initial _ := ⟨.nil, ⟨rfl, rfl⟩, ⟨nofun, nofun⟩, fun _ _ hk => absurd hk List.not_mem_nil,
    fun _ => ⟨rfl, rfl⟩⟩
  begun _ h := h.begun
  performed hbegun hp h := h.performed hbegun hp
  ended hphase h := h.ended hphase .unknown
  finished h := h

/-- Every reachable state is orderly. -/
theorem orderly_of_reachable (h : Reachable c s es) : Orderly s := h.kept (orderly_kept c)

namespace Orderly

omit [Scalar K] in
theorem countP_kind (s : EngineState K) (kind : ScopeKind) :
    s.scopes.countP (fun scope => decide (scope.kind = kind)) = s.stage.blocks.count kind := by
  unfold EngineState.stage
  rw [List.count, List.countP_map]
  congr 1

omit [Scalar K] in
/-- After the end of the world nothing is open and nothing is saved. -/
theorem after_end (h : Orderly s) (hphase : s.phase = .ended) :
    s.scopes = [] ∧ s.savedGraphics = [] ∧ s.openObject = none := by
  have hblocks : s.stage.blocks = [] := h.sound.ended hphase
  have hscopes : s.scopes = [] := List.map_eq_nil_iff.mp hblocks
  have hsaved := h.consistent.saved
  rw [hblocks, List.count_nil] at hsaved
  exact ⟨hscopes, List.eq_nil_of_length_eq_zero hsaved.symm,
    openObject_of_scopes_eq_nil h.arranged hscopes⟩

omit [Scalar K] in
/-- However many blocks are closed, as long as one is open the next one finds what it
restores. -/
theorem restores (h : Orderly s) {n : Nat} (hn : n < s.scopes.length) :
    ∃ scope rest, ((closeScopes n).run s).state.scopes = scope :: rest ∧
      (scope.kind = .attributes → ((closeScopes n).run s).state.savedGraphics ≠ []) ∧
      (scope.kind = .object → ((closeScopes n).run s).state.openObject.isSome) := by
  have hdrop := closeScopes_scopes n s
  rw [List.drop_eq_getElem_cons hn] at hdrop
  exact ⟨_, _, hdrop, (h.consistent.closedAll (closedAll_closeScopes n s)).restores hdrop⟩

/-- Where an object is open, its block is found. -/
theorem base (h : Orderly s) (ho : s.openObject.isSome) :
    ∃ scope ∈ s.scopes, scope.kind = .object ∧ objectBase s = scope.ctm := by
  obtain ⟨block, hmem, hk⟩ := h.arranged.flag_iff.mp ho
  have hsome : (s.scopes.find? fun scope => decide (scope.kind = .object)).isSome :=
    List.find?_isSome.mpr ⟨block, hmem, by simpa using hk⟩
  obtain ⟨scope, hfind⟩ := Option.isSome_iff_exists.mp hsome
  refine ⟨scope, List.mem_of_find?_eq_some hfind, by simpa using List.find?_some hfind, ?_⟩
  unfold objectBase
  rw [hfind]

end Orderly

end Engine
end SceneReader
