import SceneReader.Engine.Statistics
import SceneReader.Proofs.Engine.Stacks

/-!
# The objects of a run

Objects are put under their names when their definitions end, and are kept from then on.  So
the objects of a state are those that the events before say.  A definition that ends adds an
object if its name is new, which is known since its begin: no object comes in between.

**Results.**
* `mem_values_objectsAfter`, `contains_of_objectEnd`: the objects after events.
* `Defines.trans`, `defines_of_effect`: what one directive does to the objects.
* `objects_run`: the objects of a run are those that its events say.
-/

namespace SceneReader

variable {K : Type}

/-! ## Objects after events -/

/-- The objects after an event. -/
def Event.objectsAfter (t : Table (ObjectDefinition K)) : Event K → Table (ObjectDefinition K)
  | objectEnd o => t.put o.name o
  | _ => t

/-- The objects after events are among those that ended. -/
theorem mem_values_objectsAfter {es : List (Event K)} {t : Table (ObjectDefinition K)}
    {o : ObjectDefinition K}
    (h : o ∈ (es.foldl (fun t e => e.objectsAfter t) t).values) :
    o ∈ t.values ∨ .objectEnd o ∈ es := by
  induction es generalizing t with
  | nil => exact Or.inl h
  | cons e es ih =>
      rcases ih h with hold | hmem
      · cases e with
        | objectEnd o' =>
            rcases Table.mem_values_put hold with rfl | hold
            · exact Or.inr List.mem_cons_self
            · exact Or.inl hold
        | _ => exact Or.inl hold
      · exact Or.inr (List.mem_cons_of_mem _ hmem)

/-- A name stays, whatever ends later. -/
theorem contains_objectsAfter {es : List (Event K)} {t : Table (ObjectDefinition K)}
    {name : String} (h : t.contains name = true) :
    (es.foldl (fun t e => e.objectsAfter t) t).contains name = true := by
  induction es generalizing t with
  | nil => exact h
  | cons e es ih =>
      refine ih ?_
      cases e with
      | objectEnd o =>
          unfold Table.contains Event.objectsAfter at *
          by_cases hname : name = o.name
          · rw [hname, Table.get?_put_self]
            rfl
          · rw [Table.get?_put_of_ne _ hname]
            exact h
      | _ => exact h

/-- An object that ended is there under its name. -/
theorem contains_of_objectEnd {es : List (Event K)} {t : Table (ObjectDefinition K)}
    {o : ObjectDefinition K} (h : .objectEnd o ∈ es) :
    (es.foldl (fun t e => e.objectsAfter t) t).contains o.name = true := by
  obtain ⟨before, after, rfl⟩ := List.append_of_mem h
  rw [List.foldl_append, List.foldl_cons]
  refine contains_objectsAfter ?_
  unfold Table.contains Event.objectsAfter
  rw [Table.get?_put_self]
  rfl

namespace Engine

/-! ## Objects and the open one -/

/-- The name of the open object. -/
def openName (s : EngineState K) : Option String := s.openObject.map (·.name)

/-- How many objects the open one will take the place of. -/
def replaced (s : EngineState K) : Nat :=
  (openName s).elim 0 fun name => if s.objects.contains name then 1 else 0

theorem replaced_of_closed {s : EngineState K} (h : s.openObject = none) : replaced s = 0 := by
  unfold replaced openName
  rw [h]
  rfl

/-- The events say how the objects change; and a definition that ends adds an object, unless the
open object was to take the place of one. -/
structure Defines (s s' : EngineState K) (es : List (Event K)) : Prop where
  objects : s'.objects = es.foldl (fun t e => e.objectsAfter t) s.objects
  count : es.countP Event.endsObject + s.objects.size + replaced s' = s'.objects.size + replaced s

namespace Defines

variable {s s₁ s₂ : EngineState K} {es es₁ es₂ : List (Event K)}

theorem trans (h₁ : Defines s s₁ es₁) (h₂ : Defines s₁ s₂ es₂) : Defines s s₂ (es₁ ++ es₂) := by
  refine ⟨?_, ?_⟩
  · rw [List.foldl_append, ← h₁.objects]
    exact h₂.objects
  · have hfirst := h₁.count
    have hsecond := h₂.count
    rw [List.countP_append]
    omega

/-- No object ends, and the objects and the name of the open one are the same. -/
theorem same (hobjects : s₁.objects = s.objects) (hname : openName s₁ = openName s)
    (hes : ∀ e ∈ es, e.endsObject = false) : Defines s s₁ es := by
  have hsame (t : Table (ObjectDefinition K)) :
      es.foldl (fun t e => e.objectsAfter t) t = t := by
    induction es with
    | nil => rfl
    | cons e es ih =>
        obtain ⟨he, hrest⟩ := List.forall_mem_cons.mp hes
        cases e with
        | objectEnd o => cases he
        | _ => exact ih hrest
  refine ⟨hobjects.trans (hsame _).symm, ?_⟩
  have hnone : es.countP Event.endsObject = 0 :=
    List.countP_eq_zero.mpr fun e he => by simp [hes e he]
  have hreplaced : replaced s₁ = replaced s := by
    unfold replaced
    rw [hname, hobjects]
  rw [hnone, hreplaced, hobjects, Nat.zero_add]

theorem of_closed (h : Closed s s₁ es) : Defines s s₁ es := by
  have closing (scope : Scope K) : ∀ e ∈ closingEvents scope, e.endsObject = false := by
    unfold closingEvents
    split <;> simp [Event.endsObject]
  cases h with
  | nothing hs => exact same rfl rfl (List.forall_mem_nil _)
  | attributes scope rest hs hk =>
      refine same ?_ ?_ (closing scope)
      · unfold restoreGraphics
        split <;> rfl
      · unfold restoreGraphics
        split <;> rfl
  | plain scope rest hs hk ho => exact same rfl rfl (closing scope)
  | object scope rest o hs hk ho =>
      have hput : Defines s { s with openObject := none, objects := s.objects.put o.name o }
          [.objectEnd o] := by
        refine ⟨rfl, ?_⟩
        have hreplaced : replaced s = if s.objects.contains o.name then 1 else 0 := by
          unfold replaced openName
          rw [ho]
          rfl
        rw [hreplaced]
        change 1 + s.objects.size + 0 = (s.objects.put o.name o).size + _
        rw [Table.size_put]
        split <;> omega
      exact hput.trans (same rfl rfl (closing scope))

theorem of_closedAll (h : ClosedAll s s₁ es) : Defines s s₁ es := by
  induction h with
  | nil s => exact same rfl rfl (List.forall_mem_nil _)
  | cons first rest ih => exact (of_closed first).trans ih

theorem of_ended (h : WorldEnded s s₁ es) : Defines s s₁ es := by
  obtain ⟨s₀, es₀, hc, rfl, rfl⟩ := h
  exact (of_closedAll hc).trans (same rfl rfl (by simp [Event.endsObject]))

/-- Resources that are put on record define nothing. -/
theorem of_recorded (h : Recorded s s₁ es) : Defines s s₁ es := by
  cases h
  exact same rfl rfl (by simp [Event.endsObject])

end Defines

variable [Scalar K] {d : Directive} {s s' : EngineState K} {es : List (Event K)}

/-- What a directive defines that does not begin an object. -/
theorem defines_of_effect (he : Effect d s s' es) (hd : d.name ≠ .objectBegin) :
    Defines s s' es := by
  have recorded {s₁ s₂ : EngineState K} {es₁ es₂ : List (Event K)} (hr : Recorded s s₁ es₁)
      (hobjects : s₂.objects = s₁.objects) (hname : openName s₂ = openName s₁)
      (hes : ∀ e ∈ es₂, e.endsObject = false) : Defines s s₂ (es₁ ++ es₂) :=
    (Defines.of_recorded hr).trans (.same hobjects hname hes)
  have alone {s₁ s₂ : EngineState K} {es₁ : List (Event K)} (hr : Recorded s s₁ es₁)
      (hobjects : s₂.objects = s₁.objects) (hname : openName s₂ = openName s₁) :
      Defines s s₂ es₁ := by
    have h := recorded hr hobjects hname (List.forall_mem_nil _)
    rwa [List.append_nil] at h
  cases he with
  | setting hd kind setting s₁ es hr => exact recorded hr rfl rfl (by simp [Event.endsObject])
  | camera hd setting s₁ es hr => exact recorded hr rfl rfl (by simp [Event.endsObject])
  | medium hd id s₁ es hr => exact alone hr rfl rfl
  | painted hd g s₁ es hr hg => exact alone hr rfl rfl
  | worldBegin hn => exact .same rfl rfl (by simp [Event.endsObject])
  | worldEnd hn s₁ es hc => exact .of_ended ⟨s₁, es, hc, rfl, rfl⟩
  | opened kind hk hn =>
      refine .same rfl rfl ?_
      unfold openingEvents
      split <;> simp [Event.endsObject]
  | closed kind hn s₁ es hc => exact .of_closed hc
  | objectBegin hn => exact absurd hn hd
  | placed hn o ho => exact .same rfl rfl (by simp [Event.endsObject])
  | light hn r s₁ es hr hmem => exact recorded hr rfl rfl (by simp [Event.endsObject])
  | areaLight hn r s₁ es hr hmem => exact alone hr rfl rfl
  | stated hn r s₁ es hr ho => exact recorded hr rfl rfl (by simp [Event.endsObject])
  | captured hn r s₁ es hr o ho =>
      refine alone hr rfl ?_
      cases hr
      unfold openName
      rw [ho]
      rfl
  | _ => exact .same rfl rfl (List.forall_mem_nil _)

variable (c : EngineContext)

theorem run_perform_objectBegin (hd : d.name = .objectBegin) (s : EngineState K) :
    (perform c d).run s = (beginObject c d).run s := by
  unfold perform
  rw [hd]

/-- The objects of a state are those that the events before say. -/
theorem objects_kept : IsKept (K := K) c fun s es =>
    s.objects = es.foldl (fun t e => e.objectsAfter t) .empty where
  initial _ := rfl
  begun _ h := by
    rw [List.foldl_append, ← h]
    rfl
  performed {d s es} _ _ h := by
    rw [List.foldl_append, ← h]
    by_cases hd : d.name = .objectBegin
    · obtain ⟨hs, he⟩ := beginObject_run c d s
      rw [run_perform_objectBegin c hd, hs, he]
      rfl
    · exact (defines_of_effect (perform_effect c d s) hd).objects
  ended {s es} _ h := by
    rw [List.foldl_append, ← h]
    obtain ⟨s₁, es₁, hc, hs, he⟩ := endWorld_run .unknown s
    exact (Defines.of_ended ⟨s₁, es₁, hc, hs, he⟩).objects
  finished h := by
    rw [List.foldl_append, ← h]
    rfl

/-- The objects of a run are those that its events say. -/
theorem objects_run (ds : List Directive) (dirs : DirectoryStack) :
    (run (K := K) c ds (.initial dirs)).state.objects =
      (run (K := K) c ds (.initial dirs)).events.foldl (fun t e => e.objectsAfter t) .empty :=
  (reachable_run c ds dirs).kept (objects_kept c)

end Engine
end SceneReader
