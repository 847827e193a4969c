import SceneReader.Proofs.Engine.PendingLight

/-!
# Resources are declared once

A resource has the count of those made before it for its identity.  So no two of the
resources that a run declares have the same one.

**Invariant.**  `Numbered 0 s.made es`: the events `es` declare resources with different
identities, none of which is beyond the count of the state.

**Results.**
* `Numbered.trans`, `numbered_of_effect`: what directives declare is new.
* `numbered_invariant`: identities and the count agree in every run.
* `nodup_declaredIds_run`: a run declares no resource twice.
-/

namespace SceneReader

variable {K : Type}

/-- The resource that an event declares. -/
def Event.declared? : Event K → Option (Resource K)
  | .declare r => some r
  | _ => none

/-- The identities of the resources that events declare, in order. -/
def declaredIds (es : List (Event K)) : List ResourceId :=
  (es.filterMap Event.declared?).map (·.id)

theorem declaredIds_append (es es' : List (Event K)) :
    declaredIds (es ++ es') = declaredIds es ++ declaredIds es' := by
  simp [declaredIds]

namespace Engine

/-- The events declare each resource once, with identities made between two counts. -/
structure Numbered (made made' : Nat) (es : List (Event K)) : Prop where
  le : made ≤ made'
  nodup : (declaredIds es).Nodup
  between : ∀ id ∈ declaredIds es, ∃ n, id = .made n ∧ made < n ∧ n ≤ made'

namespace Numbered

variable {made made₁ made₂ : Nat} {es es' : List (Event K)}

theorem of_nothing (made : Nat) (h : declaredIds es = []) : Numbered made made es := by
  refine ⟨Nat.le_refl made, ?_, ?_⟩ <;> rw [h]
  · exact List.nodup_nil
  · exact fun _ hid => absurd hid List.not_mem_nil

theorem trans (h : Numbered made made₁ es) (h' : Numbered made₁ made₂ es') :
    Numbered made made₂ (es ++ es') := by
  refine ⟨Nat.le_trans h.le h'.le, ?_, ?_⟩
  · rw [declaredIds_append]
    exact nodup_append_made h.nodup h'.nodup h.between h'.between
  · intro id hid
    rw [declaredIds_append] at hid
    rcases List.mem_append.mp hid with hid | hid
    · obtain ⟨n, hn, hlt, hle⟩ := h.between id hid
      exact ⟨n, hn, hlt, Nat.le_trans hle h'.le⟩
    · obtain ⟨n, hn, hlt, hle⟩ := h'.between id hid
      exact ⟨n, hn, Nat.lt_of_le_of_lt h.le hlt, hle⟩

/-- One more event that declares nothing. -/
theorem concat (h : Numbered made made₁ es) {e : Event K} (he : e.declared? = none) :
    Numbered made made₁ (es ++ [e]) :=
  h.trans (.of_nothing made₁ (by simp [declaredIds, he]))

theorem of_recorded {s s' : EngineState K} (h : Recorded s s' es) :
    Numbered s.made s'.made es := by
  obtain ⟨made, files, meshes, declared, hmade, hids, hapart⟩ := h
  have hdeclared : declaredIds (declared.map Event.declare) = declared.map (·.id) := by
    simp [declaredIds, List.filterMap_map, Function.comp_def, Event.declared?]
  refine ⟨hmade, ?_, ?_⟩ <;> rw [hdeclared]
  · exact hapart
  · intro id hid
    obtain ⟨r, hr, rfl⟩ := List.mem_map.mp hid
    exact hids r hr

theorem of_closed {s s' : EngineState K} (h : Closed s s' es) : Numbered s.made s'.made es := by
  have closing (scope : Scope K) : declaredIds (closingEvents scope) = [] := by
    unfold closingEvents
    split <;> rfl
  rw [made_closed h]
  cases h with
  | nothing hs => exact .of_nothing _ rfl
  | attributes scope rest hs hk => exact .of_nothing _ (closing scope)
  | object scope rest o hs hk ho => exact .of_nothing _ (closing scope)
  | plain scope rest hs hk ho => exact .of_nothing _ (closing scope)

theorem of_closedAll {s s' : EngineState K} (h : ClosedAll s s' es) :
    Numbered s.made s'.made es := by
  induction h with
  | nil s => exact .of_nothing _ rfl
  | cons first rest ih => exact (of_closed first).trans ih

theorem of_ended {s s' : EngineState K} (h : WorldEnded s s' es) :
    Numbered s.made s'.made es := by
  obtain ⟨s₁, es₁, hc, rfl, rfl⟩ := h
  exact (of_closedAll hc).concat rfl

end Numbered

variable [Scalar K] {d : Directive} {s s' : EngineState K} {es : List (Event K)}

/-- What a directive declares is new. -/
theorem numbered_of_effect (he : Effect d s s' es) : Numbered s.made s'.made es := by
  have recorded {s₁ s₂ : EngineState K} {es₁ : List (Event K)} (hr : Recorded s s₁ es₁)
      (h : s₂.made = s₁.made) : Numbered s.made s₂.made es₁ := h ▸ .of_recorded hr
  cases he with
  | setting hd kind setting s₁ es hr => exact (recorded hr rfl).concat rfl
  | camera hd setting s₁ es hr => exact (recorded hr rfl).concat rfl
  | medium hd id s₁ es hr => exact recorded hr rfl
  | painted hd g s₁ es hr hg => exact recorded hr rfl
  | worldBegin hd =>
      have hone := Recorded.one s (defaultMaterial s) s.declaredFiles s.meshes rfl
      exact (Numbered.of_recorded hone).concat rfl
  | worldEnd hd s₁ es hc => exact .of_ended ⟨s₁, es, hc, rfl, rfl⟩
  | opened kind hk hd =>
      refine .of_nothing _ ?_
      unfold openingEvents
      split <;> rfl
  | closed kind hd s₁ es hc => exact .of_closed hc
  | light hd r s₁ es hr hmem => exact (recorded hr rfl).concat rfl
  | areaLight hd r s₁ es hr hmem => exact recorded hr rfl
  | stated hd r s₁ es hr ho => exact (recorded hr rfl).concat rfl
  | captured hd r s₁ es hr o ho => exact recorded hr rfl
  | _ => exact .of_nothing _ rfl

/-- The identities that were declared and the count of resources agree in every run. -/
theorem numbered_invariant (c : EngineContext) :
    IsInvariant (K := K) c fun s es => Numbered 0 s.made es where
  initial _ := .of_nothing 0 rfl
  begun h := ⟨h, h.concat rfl⟩
  performed _ he h := h.trans (numbered_of_effect he)
  ended hw h := h.trans (.of_ended hw)
  finished h := h.concat rfl

/-- A run declares no resource twice. -/
theorem nodup_declaredIds_run (c : EngineContext) (ds : List Directive) (dirs : DirectoryStack) :
    (declaredIds (run (K := K) c ds (.initial dirs)).events).Nodup :=
  ((reachable_run c ds dirs).invariant (numbered_invariant c)).nodup

end Engine
end SceneReader
