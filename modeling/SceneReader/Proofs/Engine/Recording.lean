import SceneReader.Engine.Execution

/-!
# Putting resources on record

Many directives begin with putting resources on record: this changes the count of
resources, the declared files and the known meshes, and reports nothing but declarations.
Such actions are closed under sequence, so that an action is one of them when its parts
are.

**Results.**
* `Recorded.trans`: putting resources on record twice.
* `records_registerFiles`: looking for the files that parameters name.
* `records_plainShape`, `records_meshShape`: making shapes.
-/

namespace SceneReader

variable {K : Type}

namespace Action

variable {α β : Type}

@[simp] theorem run_state_bind (f : EngineState K → Action K β) (s : EngineState K) :
    (state >>= f).run s = (f s).run s := rfl

@[simp] theorem run_change (g : EngineState K → EngineState K) (s : EngineState K) :
    (change g).run s = ⟨(), g s, [], []⟩ := rfl

@[simp] theorem run_change_bind (g : EngineState K → EngineState K) (f : Unit → Action K β)
    (s : EngineState K) : (change g >>= f).run s = (f ()).run (g s) := rfl

@[simp] theorem run_emit (e : Event K) (s : EngineState K) :
    (emit e).run s = ⟨(), s, [e], []⟩ := rfl

@[simp] theorem run_emit_bind (e : Event K) (f : Unit → Action K β) (s : EngineState K) :
    (emit e >>= f).run s =
      ⟨((f ()).run s).value, ((f ()).run s).state, e :: ((f ()).run s).events,
       ((f ()).run s).notes⟩ := rfl

@[simp] theorem run_emit_if (b : Bool) (e : Event K) (s : EngineState K) :
    (if b = true then emit e else pure ()).run s = ⟨(), s, if b = true then [e] else [], []⟩ := by
  cases b <;> rfl

@[simp] theorem run_note (d : Diagnostic) (s : EngineState K) :
    (note d : Action K Unit).run s = ⟨(), s, [], [d]⟩ := rfl

end Action

namespace Engine

variable {β : Type}

@[simp] theorem run_warn_bind (c : EngineContext) (d : Directive) (w : Caution)
    (f : Unit → Action K β) (s : EngineState K) :
    (warn c d w >>= f).run s =
      ⟨((f ()).run s).value, ((f ()).run s).state, ((f ()).run s).events,
       w.diagnostic (c.whereIs d).1 (c.whereIs d).2 :: ((f ()).run s).notes⟩ := rfl

@[simp] theorem run_declare (r : Resource K) (s : EngineState K) :
    (declare r).run s = ⟨(), s, [.declare r], []⟩ := rfl

@[simp] theorem run_declare_bind (r : Resource K) (f : Unit → Action K β) (s : EngineState K) :
    (declare r >>= f).run s =
      ⟨((f ()).run s).value, ((f ()).run s).state, .declare r :: ((f ()).run s).events,
       ((f ()).run s).notes⟩ := rfl

@[simp] theorem run_fresh_bind (f : ResourceId → Action K β) (s : EngineState K) :
    (fresh >>= f).run s = (f (.made (s.made + 1))).run { s with made := s.made + 1 } := rfl

/-! ## Putting resources on record -/

/-- Resources are made and declared, each one once; nothing else of the state changes than
what is on record about them. -/
inductive Recorded (s : EngineState K) : EngineState K → List (Event K) → Prop
  | of (made : Nat) (files : List String) (meshes : Table (Resource K))
      (declared : List (Resource K)) (hmade : s.made ≤ made)
      (hids : ∀ r ∈ declared, ∃ n, r.id = .made n ∧ s.made < n ∧ n ≤ made)
      (hapart : (declared.map (·.id)).Nodup) :
      Recorded s { s with made := made, declaredFiles := files, meshes := meshes }
        (declared.map .declare)

/-- Identities up to a count and others beyond it. -/
theorem nodup_append_made {ids ids' : List ResourceId} {low made high : Nat} (h : ids.Nodup)
    (h' : ids'.Nodup) (hids : ∀ id ∈ ids, ∃ n, id = .made n ∧ low < n ∧ n ≤ made)
    (hids' : ∀ id ∈ ids', ∃ n, id = .made n ∧ made < n ∧ n ≤ high) : (ids ++ ids').Nodup := by
  refine List.nodup_append.mpr ⟨h, h', ?_⟩
  rintro id hmem id' hmem' rfl
  obtain ⟨n, rfl, -, hle⟩ := hids id hmem
  obtain ⟨n', hn', hlt, -⟩ := hids' _ hmem'
  have heq : n = n' := ResourceId.made.inj hn'
  omega

namespace Recorded

theorem refl (s : EngineState K) : Recorded s s [] :=
  of s.made s.declaredFiles s.meshes [] (Nat.le_refl _) (by simp) List.nodup_nil

theorem trans {s s₁ s₂ : EngineState K} {es₁ es₂ : List (Event K)} (h₁ : Recorded s s₁ es₁)
    (h₂ : Recorded s₁ s₂ es₂) : Recorded s s₂ (es₁ ++ es₂) := by
  obtain ⟨made₁, files₁, meshes₁, rs₁, hmade₁, hids₁, hapart₁⟩ := h₁
  obtain ⟨made₂, files₂, meshes₂, rs₂, hmade₂, hids₂, hapart₂⟩ := h₂
  dsimp only at hmade₂ hids₂
  rw [← List.map_append]
  refine of made₂ files₂ meshes₂ (rs₁ ++ rs₂) (Nat.le_trans hmade₁ hmade₂) ?_ ?_
  · intro r hr
    rcases List.mem_append.mp hr with hr | hr
    · obtain ⟨n, hn, hlt, hle⟩ := hids₁ r hr
      exact ⟨n, hn, hlt, by omega⟩
    · obtain ⟨n, hn, hlt, hle⟩ := hids₂ r hr
      exact ⟨n, hn, by omega, hle⟩
  · rw [List.map_append]
    exact nodup_append_made hapart₁ hapart₂ (List.forall_mem_map.mpr hids₁)
      (List.forall_mem_map.mpr hids₂)

/-- One more resource. -/
theorem one (s : EngineState K) (r : Resource K) (files : List String)
    (meshes : Table (Resource K)) (h : r.id = .made (s.made + 1)) :
    Recorded s { s with made := s.made + 1, declaredFiles := files, meshes := meshes }
      [.declare r] :=
  of (s.made + 1) files meshes [r] (Nat.le_succ _) (by simp [h]) (by simp)

end Recorded

/-- The action puts resources on record and does nothing else. -/
def Records {α : Type} (a : Action K α) : Prop :=
  ∀ s, Recorded s (a.run s).state (a.run s).events

namespace Records

variable {α β : Type}

theorem pure (a : α) : Records (Pure.pure a : Action K α) := fun s => Recorded.refl s

theorem bind {x : Action K α} {f : α → Action K β} (hx : Records x) (hf : ∀ a, Records (f a)) :
    Records (x >>= f) := fun s => (hx s).trans (hf _ _)

theorem foldlM {x : β → α → Action K β} (h : ∀ b a, Records (x b a)) (b : β) (as : List α) :
    Records (as.foldlM x b) := by
  induction as generalizing b with
  | nil => exact pure b
  | cons a as ih => exact bind (h b a) ih

theorem warn (c : EngineContext) (d : Directive) (w : Caution) :
    Records (Engine.warn (K := K) c d w) := fun s => Recorded.refl s

end Records

theorem findFile_run (c : EngineContext) (d : Directive) (name : String) (s : EngineState K) :
    ((findFile c d name).run s).state = s ∧ ((findFile c d name).run s).events = [] := by
  unfold findFile
  rw [Action.run_state_bind]
  split <;> exact ⟨rfl, rfl⟩

theorem records_findFile (c : EngineContext) (d : Directive) (name : String) :
    Records (findFile (K := K) c d name) := by
  intro s
  obtain ⟨hs, he⟩ := findFile_run c d name s
  rw [hs, he]
  exact Recorded.refl s

section Files

variable [Scalar K]

theorem records_declareFile (parameter path : String) :
    Records (declareFile (K := K) parameter path) := by
  intro s
  unfold declareFile
  rw [Action.run_state_bind]
  split
  · exact Recorded.refl s
  · rw [run_fresh_bind, Action.run_change_bind, run_declare]
    refine Recorded.one s _ (path :: s.declaredFiles) s.meshes ?_
    unfold fileResource
    split <;> rfl

theorem records_registerFile (c : EngineContext) (d : Directive) (exempt : List String)
    (m : ParamMap) (p : Param) : Records (registerFile (K := K) c d exempt m p) := by
  unfold registerFile
  split
  · exact Records.pure _
  · refine Records.bind (records_findFile c d _) fun found => ?_
    split
    · exact Records.pure _
    · exact Records.bind (records_declareFile _ _) fun _ => Records.pure _

theorem records_registerFiles (c : EngineContext) (d : Directive) (exempt : List String) :
    Records (registerFiles (K := K) c d exempt) :=
  Records.foldlM (fun m p => records_registerFile c d exempt m p) _ _

end Files

theorem textureImage_run (c : EngineContext) (d : Directive) (type : String)
    (params : ParamMap) (s : EngineState K) :
    ((textureImage c d type params).run s).state = s ∧
      ((textureImage c d type params).run s).events = [] := by
  unfold textureImage
  split
  · split
    · rename_i name _ _
      obtain ⟨hs, he⟩ := findFile_run c d name s
      rw [Action.run_bind, hs, he]
      dsimp only
      split <;> exact ⟨rfl, rfl⟩
    · exact ⟨rfl, rfl⟩
  · exact ⟨rfl, rfl⟩

theorem records_plainShape (type name : String) (params : ParamMap) :
    Records (plainShape (K := K) type name params) := by
  intro s
  unfold plainShape
  rw [run_fresh_bind, run_declare_bind]
  exact Recorded.one s _ s.declaredFiles s.meshes rfl

theorem records_meshShape (c : EngineContext) (d : Directive) :
    Records (meshShape (K := K) c d) := by
  unfold meshShape
  split
  · exact Records.bind (Records.warn c d _) fun _ => Records.pure _
  · refine Records.bind (records_findFile c d _) fun found => ?_
    split
    · exact Records.pure _
    · intro s
      rw [Action.run_state_bind]
      split
      · exact Recorded.refl s
      · rw [run_fresh_bind, Action.run_change_bind, run_declare_bind]
        exact Recorded.one s _ s.declaredFiles _ rfl

end Engine
end SceneReader
