import SceneReader.Proofs.Engine.Protocol

/-!
# Open blocks and what was told of them

Targets are told of the begin and the end of a block, and of nothing about blocks inside of
objects.  The blocks that are open in a state and of which targets were told are those that
the events before it begin and do not end: each of them was told of with the transform that
it has saved, and all blocks that were told of since lie inside of it.

**Invariant.**  `Told scopes es`: the open blocks `scopes` are the ones that the events `es`
begin and do not end.

**Results.**
* `BlocksBalanced.append`, `BlocksBalanced.wrap`: rows of events in which all blocks end.
* `Told.level`, `Told.opened`, `Told.closed`: what events do to the open blocks.
* `told_invariant`: open blocks and events agree in every run.
-/

namespace SceneReader

variable {K : Type}

/-! ## Balanced rows of events -/

/-- The event is about no block. -/
def Event.isLevel : Event K → Bool
  | .beginScope _ _ => false
  | .endScope _ => false
  | _ => true

theorem Event.blocksAfter?_of_level {e : Event K} (h : e.isLevel = true)
    (blocks : List ScopeKind) : e.blocksAfter? blocks = some blocks := by
  cases e <;> first | rfl | cases h

theorem Event.isLevel_of_free {e : Event K} (h : e.isFree = true) : e.isLevel = true := by
  cases e <;> first | rfl | cases h

/-- An event is read in the same way if there are more blocks below. -/
theorem Event.blocksAfter?_above {e : Event K} {blocks blocks' : List ScopeKind}
    (h : e.blocksAfter? blocks = some blocks') (below : List ScopeKind) :
    e.blocksAfter? (blocks ++ below) = some (blocks' ++ below) := by
  cases e with
  | beginScope kind ctm =>
      cases h
      rfl
  | endScope kind =>
      cases blocks with
      | nil => cases h
      | cons top rest =>
          unfold blocksAfter? at h
          dsimp only at h
          split at h
          · rename_i hk
            cases h
            exact if_pos hk
          · cases h
  | _ =>
      cases h
      rfl

namespace BlocksBalanced

theorem nil : BlocksBalanced ([] : List (Event K)) := rfl

theorem above {es : List (Event K)} {blocks blocks' : List ScopeKind}
    (h : es.foldlM Event.blocksAfter? blocks = some blocks') (below : List ScopeKind) :
    es.foldlM Event.blocksAfter? (blocks ++ below) = some (blocks' ++ below) := by
  induction es generalizing blocks with
  | nil =>
      cases h
      rfl
  | cons e es ih =>
      rw [List.foldlM_cons] at h ⊢
      obtain ⟨blocks₁, he, hes⟩ := Option.bind_eq_some_iff.mp h
      exact Option.bind_eq_some_iff.mpr ⟨_, Event.blocksAfter?_above he below, ih hes⟩

/-- A balanced row leaves all blocks below it as they are. -/
theorem foldlM {es : List (Event K)} (h : BlocksBalanced es) (below : List ScopeKind) :
    es.foldlM Event.blocksAfter? below = some below := above h below

theorem append {es es' : List (Event K)} (h : BlocksBalanced es) (h' : BlocksBalanced es') :
    BlocksBalanced (es ++ es') := by
  unfold BlocksBalanced
  rw [List.foldlM_append, h]
  exact h'

theorem of_level {es : List (Event K)} (h : ∀ e ∈ es, e.isLevel = true) : BlocksBalanced es := by
  induction es with
  | nil => exact nil
  | cons e es ih =>
      obtain ⟨he, hes⟩ := List.forall_mem_cons.mp h
      unfold BlocksBalanced
      rw [List.foldlM_cons, Event.blocksAfter?_of_level he]
      exact ih hes

/-- A block around a balanced row. -/
theorem wrap {es : List (Event K)} (h : BlocksBalanced es) (kind : ScopeKind)
    (ctm : TransformSet K) :
    BlocksBalanced (.beginScope kind ctm :: (es ++ [.endScope kind])) := by
  unfold BlocksBalanced
  rw [List.foldlM_cons]
  change List.foldlM Event.blocksAfter? [kind] (es ++ [.endScope kind]) = some []
  rw [List.foldlM_append, h.foldlM]
  simp [Event.blocksAfter?]

end BlocksBalanced

/-! ## Open blocks -/

namespace Engine

/-- The open blocks are those that the events begin and do not end, but for the blocks of
which nothing is told. -/
inductive Told : List (Scope K) → List (Event K) → Prop
  | nil {es : List (Event K)} (h : BlocksBalanced es) : Told [] es
  | quiet {scope : Scope K} {rest : List (Scope K)} {es : List (Event K)}
      (hr : scope.reported = false) (h : Told rest es) : Told (scope :: rest) es
  | told {scope : Scope K} {rest : List (Scope K)} {before inside : List (Event K)}
      (hr : scope.reported = true) (h : Told rest before) (hinside : BlocksBalanced inside) :
      Told (scope :: rest) (before ++ .beginScope scope.kind scope.ctm :: inside)

namespace Told

variable {scopes : List (Scope K)} {es es' : List (Event K)}

/-- More events in which all blocks end. -/
theorem append (h : Told scopes es) (h' : BlocksBalanced es') : Told scopes (es ++ es') := by
  induction h with
  | nil h => exact .nil (h.append h')
  | quiet hr _ ih => exact .quiet hr ih
  | told hr h hinside =>
      rw [List.append_assoc, List.cons_append]
      exact .told hr h (hinside.append h')

theorem level (h : Told scopes es) (h' : ∀ e ∈ es', e.isLevel = true) :
    Told scopes (es ++ es') := h.append (.of_level h')

theorem opened {s : EngineState K} (h : Told s.scopes es) (kind : ScopeKind) :
    Told (Engine.opened kind s).scopes (es ++ openingEvents kind s) := by
  unfold Engine.opened openingEvents
  cases hr : isReported kind s with
  | false =>
      rw [if_neg Bool.false_ne_true, List.append_nil]
      exact .quiet rfl h
  | true => exact .told rfl h .nil

theorem closing {scope : Scope K} {rest : List (Scope K)} (h : Told (scope :: rest) es) :
    Told rest (es ++ closingEvents scope) := by
  unfold closingEvents
  cases h with
  | quiet hr h =>
      rw [hr, if_neg Bool.false_ne_true, List.append_nil]
      exact h
  | told hr h hinside =>
      rw [hr, if_pos rfl, List.append_assoc, List.cons_append]
      exact h.append (hinside.wrap scope.kind scope.ctm)

theorem closed {s s' : EngineState K} (h : Told s.scopes es) (hc : Closed s s' es') :
    Told s'.scopes (es ++ es') := by
  have hscopes := hc.scopes_eq
  cases hc with
  | nothing hs =>
      rw [List.append_nil]
      exact h
  | attributes scope rest hs hk =>
      rw [hscopes]
      rw [hs] at h ⊢
      exact h.closing
  | object scope rest o hs hk ho =>
      rw [hs] at h
      have hend : Told (scope :: rest) (es ++ [.objectEnd o]) := h.level (by simp [Event.isLevel])
      rw [List.append_cons]
      exact hend.closing
  | plain scope rest hs hk ho =>
      rw [hs] at h
      exact h.closing

theorem closedAll {s s' : EngineState K} (h : Told s.scopes es) (hc : ClosedAll s s' es') :
    Told s'.scopes (es ++ es') := by
  induction hc generalizing es with
  | nil s =>
      rw [List.append_nil]
      exact h
  | cons first rest ih =>
      rw [← List.append_assoc]
      exact ih (h.closed first)

theorem ended {s s' : EngineState K} (h : Told s.scopes es) (hw : WorldEnded s s' es') :
    Told s'.scopes (es ++ es') := by
  obtain ⟨s₁, es₁, hc, rfl, rfl⟩ := hw
  rw [← List.append_assoc]
  exact (h.closedAll hc).level (by simp [Event.isLevel])

/-- The innermost of the blocks that targets know of, in the events that told of it. -/
theorem exists_of_find? {scope : Scope K} (h : Told scopes es)
    (hfind : scopes.find? (·.reported) = some scope) :
    ∃ before inside, es = before ++ .beginScope scope.kind scope.ctm :: inside ∧
      BlocksBalanced inside := by
  induction h with
  | nil h => cases hfind
  | quiet hr h ih =>
      rw [List.find?_cons_of_neg (by simp [hr])] at hfind
      exact ih hfind
  | told hr h hinside =>
      rw [List.find?_cons_of_pos hr] at hfind
      cases hfind
      exact ⟨_, _, rfl, hinside⟩

/-- Where targets know of no open block, all blocks have ended. -/
theorem balanced_of_find? (h : Told scopes es) (hfind : scopes.find? (·.reported) = none) :
    BlocksBalanced es := by
  induction h with
  | nil h => exact h
  | quiet hr h ih =>
      rw [List.find?_cons_of_neg (by simp [hr])] at hfind
      exact ih hfind
  | told hr h hinside =>
      rw [List.find?_cons_of_pos hr] at hfind
      cases hfind

end Told

variable [Scalar K] {d : Directive} {s s' : EngineState K} {es : List (Event K)}

/-- A directive that opens and closes nothing tells of no block. -/
theorem level_of_effect (he : Effect d s s' es) (hd : isStructural d.name = false) :
    ∀ e ∈ es, e.isLevel = true := by
  have structural {n : DirectiveName} (hn : d.name = n) (h : isStructural n = true) : False := by
    rw [hn, h] at hd
    cases hd
  have recorded {s₁ : EngineState K} {es₁ : List (Event K)} (hr : Recorded s s₁ es₁) :
      ∀ e ∈ es₁, e.isLevel = true :=
    fun e he => Event.isLevel_of_free (isFree_of_recorded hr e he)
  have last {s₁ : EngineState K} {es₁ : List (Event K)} {e₁ : Event K} (hr : Recorded s s₁ es₁)
      (h₁ : e₁.isLevel = true) : ∀ e ∈ es₁ ++ [e₁], e.isLevel = true := by
    intro e he
    rcases List.mem_append.mp he with he | he
    · exact recorded hr e he
    · rw [List.mem_singleton.mp he]
      exact h₁
  cases he with
  | setting hd kind setting s₁ es hr => exact last hr rfl
  | camera hd setting s₁ es hr => exact last hr rfl
  | medium hd id s₁ es hr => exact recorded hr
  | painted hd g s₁ es hr hg => exact recorded hr
  | placed hd o ho => exact last (.refl s) rfl
  | light hd r s₁ es hr hmem => exact last hr rfl
  | areaLight hd r s₁ es hr hmem => exact recorded hr
  | stated hd r s₁ es hr ho => exact last hr rfl
  | captured hd r s₁ es hr o ho => exact recorded hr
  | worldBegin hn => exact (structural hn rfl).elim
  | worldEnd hn s₁ es hc => exact (structural hn rfl).elim
  | opened kind hk hn => exact (structural hn (by cases kind <;> rfl)).elim
  | closed kind hn s₁ es hc => exact (structural hn (by cases kind <;> rfl)).elim
  | objectBegin hn => exact (structural hn rfl).elim
  | _ => exact fun _ he => absurd he List.not_mem_nil

theorem Told.effect {es' : List (Event K)} (h : Told s.scopes es) (he : Effect d s s' es') :
    Told s'.scopes (es ++ es') := by
  by_cases hd : isStructural d.name = true
  · cases he with
    | worldBegin hn => exact h.level (by simp [Event.isLevel])
    | worldEnd hn s₁ es₁ hc => exact h.ended ⟨s₁, es₁, hc, rfl, rfl⟩
    | opened kind hk hn => exact h.opened kind
    | closed kind hn s₁ es₁ hc => exact h.closed hc
    | objectBegin hn =>
        have hopened := h.opened .object
        rw [show openingEvents .object s = [] from rfl, List.append_nil] at hopened
        exact hopened.level (by simp [Event.isLevel])
    | directories hn dirs => exact h.level fun _ he => absurd he List.not_mem_nil
    | _ => simp_all [isStructural]
  · have hd := Bool.eq_false_iff.mpr hd
    rw [(framed_of_effect he hd).scopes]
    exact h.level (level_of_effect he hd)

/-- Open blocks and events agree in every run. -/
theorem told_invariant (c : EngineContext) :
    IsInvariant (K := K) c fun s es => Told s.scopes es where
  initial _ := .nil .nil
  begun h := ⟨h, h.level (by simp [Event.isLevel])⟩
  performed _ he h := h.effect he
  ended hw h := h.ended hw
  finished h := h.level (by simp [Event.isLevel])

end Engine
end SceneReader
