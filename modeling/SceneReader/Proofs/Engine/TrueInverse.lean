import SceneReader.Proofs.Engine.Held
import SceneReader.Proofs.Transform.Sound

/-!
# Every inverse is a true inverse

While a scene is read, transforms are composed, undone, saved under names and in blocks,
brought back, and made relative to where an object began.  Their inverses are carried
along and are never computed anew.  In exact arithmetic each of them is an inverse of its
matrix all the same, in every state that can be reached and in everything that targets are
told.

**Results.**
* `isSound_of_movesTo`, `isSoundState_invariant`: soundness is kept by every move and every
  effect.
* `reachable_isInverse`: held and told transforms have true inverses.
-/

namespace SceneReader

variable {K : Type}

namespace Engine

variable [ExactScalar K]

/-- All shapes of the object have sound transforms. -/
def IsSoundObject (o : ObjectDefinition K) : Prop := ∀ t ∈ o.transforms, t.IsSound

/-- All transforms that the state holds are sound. -/
structure IsSoundState (s : EngineState K) : Prop where
  ctm : s.ctm.IsSound
  scopes : ∀ scope ∈ s.scopes, scope.ctm.IsSound
  systems : ∀ t ∈ s.coordinateSystems.values, t.IsSound
  camera : ∀ t ∈ s.options.cameraToWorld, t.IsSound
  objects : ∀ o ∈ s.objects.values, IsSoundObject o
  openObject : ∀ o ∈ s.openObject, IsSoundObject o

/-- All transforms that are told are sound. -/
def AreSoundEvents (es : List (Event K)) : Prop := ∀ e ∈ es, ∀ t ∈ e.told, t.IsSound

theorem isSoundState_iff {s : EngineState K} :
    IsSoundState s ↔ AllHeld TransformSet.IsSound s :=
  ⟨fun h => ⟨h.ctm, h.scopes, h.systems, h.camera, h.objects, h.openObject⟩,
    fun h => ⟨h.ctm, h.scopes, h.systems, h.camera, h.objects, h.openObject⟩⟩

theorem AreSoundEvents.nil : AreSoundEvents ([] : List (Event K)) := AllTold.nil

/-- Sound sets stay sound wherever they are held. -/
theorem isCarried_isSound : IsCarried (TransformSet.IsSound (K := K)) where
  identity := TransformSet.isSound_identity
  recalled h _ := ⟨h.1, h.2⟩
  invert h := h.invert
  relativeTo h hb := h.relativeTo hb

/-- A move keeps the current transform sound. -/
theorem isSound_of_movesTo {d : Directive} {t u : TransformSet K} (h : t.IsSound)
    (hu : MovesTo d t u) : u.IsSound := by
  cases hu with
  | composed v hv => exact h.compose (isSound_of_motion? hv)
  | replaced v hv =>
      rcases hv with rfl | hv
      · exact h.replace Transform.isSound_identity
      · exact h.replace (isSound_of_motion? hv)
  | activated halves hd hh => exact ⟨h.1, h.2⟩

/-- Held and told transforms are sound in every run. -/
theorem isSoundState_invariant (c : EngineContext) :
    IsInvariant (K := K) c fun s es => IsSoundState s ∧ AreSoundEvents es where
  initial dirs :=
    ⟨isSoundState_iff.mpr (allHeld_initial isCarried_isSound dirs), AreSoundEvents.nil⟩
  begun {s es} h := by
    have hs : IsSoundState { s with begun := true } :=
      isSoundState_iff.mpr (isSoundState_iff.mp h.1).begun
    exact ⟨⟨hs, h.2⟩, hs, AllTold.append h.2 (AllTold.one (by simp [Event.told]))⟩
  performed _ he h := by
    obtain ⟨hs, hes⟩ := (isSoundState_iff.mp h.1).effect isCarried_isSound
      (fun _ => isSound_of_movesTo h.1.ctm) he
    exact ⟨isSoundState_iff.mpr hs, AllTold.append h.2 hes⟩
  ended hw h := by
    obtain ⟨hs, hes⟩ := (isSoundState_iff.mp h.1).ended hw
    exact ⟨isSoundState_iff.mpr hs, AllTold.append h.2 hes⟩
  finished h := ⟨h.1, AllTold.append h.2 (AllTold.one (by simp [Event.told]))⟩

/-- Every transform that a reachable state holds, and every one that was told on the way,
carries a true inverse at both ends of its motion. -/
theorem reachable_isInverse {c : EngineContext} {s : EngineState K} {es : List (Event K)}
    (h : Reachable c s es) (t : TransformSet K) (ht : t ∈ s.held ∨ ∃ e ∈ es, t ∈ e.told) :
    (t.start.matrix.mul t.start.inverse = .identity ∧
      t.start.inverse.mul t.start.matrix = .identity) ∧
    (t.stop.matrix.mul t.stop.inverse = .identity ∧
      t.stop.inverse.mul t.stop.matrix = .identity) := by
  obtain ⟨hs, hes⟩ := h.invariant (isSoundState_invariant c)
  rcases ht with ht | ⟨e, he, ht⟩
  · exact (isSoundState_iff.mp hs).of_mem_held ht
  · exact hes e he t ht

/-- A turn about an axis, undone by the inverse that is carried along. -/
theorem reachable_isInverse_rotated :
    let p := executeAll (K := ℝ) ⟨.rooted [], [], none⟩
      [⟨.rotate, [.number 30.0, .number 1.0, .number 2.0, .number 3.0], .empty, none⟩]
      (.initial .empty)
    Reachable ⟨.rooted [], [], none⟩ p.state p.events ∧ p.state.ctm ∈ p.state.held ∧
      p.state.ctm.start.matrix.mul p.state.ctm.start.inverse = .identity := by
  intro p
  have hp : Reachable ⟨.rooted [], [], none⟩ p.state p.events :=
    reachable_executeAll (Reachable.initial .empty) _
  have hheld : p.state.ctm ∈ p.state.held := List.mem_cons_self
  exact ⟨hp, hheld, (reachable_isInverse hp p.state.ctm (Or.inl hheld)).1.1⟩

end Engine
end SceneReader
