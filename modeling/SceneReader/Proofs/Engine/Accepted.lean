import SceneReader.Proofs.Engine.Blocks

/-!
# Rows that are accepted

A row of directives is accepted if each of its directives is admitted where the ones
before it lead.  Then its state and its events are put together from those of its
directives, and what an admitted directive does is one of the effects.

**Results.**
* `accepted_cons_iff`, `accepted_append_iff`: a row is accepted part by part.
* `state_cons`, `state_append`, `events_append`: what it comes to.
* `effect_of_accepted`: an accepted directive has one of the effects.
* `kept_of_effect`: what a directive that opens and closes nothing leaves alone.
* `isArranged_invariant`: blocks are arranged in every run.
-/

namespace SceneReader

/-- The same definition, perhaps with shapes added at its end. -/
def ObjectDefinition.Grows {K : Type} (o o' : ObjectDefinition K) : Prop :=
  o'.name = o.name ∧ o.shapes <+: o'.shapes

theorem ObjectDefinition.Grows.refl_option {K : Type} (o : Option (ObjectDefinition K)) :
    Option.Rel ObjectDefinition.Grows o o := by
  cases o with
  | none => exact .none
  | some o => exact .some ⟨rfl, List.prefix_rfl⟩

namespace Engine

variable {K : Type} [Scalar K] {c : EngineContext} {d : Directive} {ds : List Directive}
  {s : EngineState K}

/-! ## Rows by their parts -/

theorem executeAll_singleton (c : EngineContext) (d : Directive) (s : EngineState K) :
    executeAll c [d] s = execute c d s := Progress.andThen_done (execute c d s)

theorem accepted_cons_iff :
    (executeAll c (d :: ds) s).rejection = none ↔
      (execute c d s).rejection = none ∧
        (executeAll c ds (execute c d s).state).rejection = none := by
  rw [executeAll, Progress.andThen]
  cases h : (execute c d s).rejection with
  | some r => simp [h]
  | none => simp

theorem state_cons (h : (execute c d s).rejection = none) :
    (executeAll c (d :: ds) s).state = (executeAll c ds (execute c d s).state).state := by
  rw [executeAll, Progress.andThen, h]

theorem accepted_append_iff {as bs : List Directive} :
    (executeAll c (as ++ bs) s).rejection = none ↔
      (executeAll c as s).rejection = none ∧
        (executeAll c bs (executeAll c as s).state).rejection = none := by
  rw [executeAll_append, Progress.andThen]
  cases h : (executeAll c as s).rejection with
  | some r => simp [h]
  | none => simp

theorem state_append {as : List Directive} (bs : List Directive)
    (h : (executeAll c as s).rejection = none) :
    (executeAll c (as ++ bs) s).state = (executeAll c bs (executeAll c as s).state).state := by
  rw [executeAll_append, Progress.andThen, h]

theorem events_append {as : List Directive} (bs : List Directive)
    (h : (executeAll c as s).rejection = none) :
    (executeAll c (as ++ bs) s).events =
      (executeAll c as s).events ++ (executeAll c bs (executeAll c as s).state).events := by
  rw [executeAll_append, Progress.andThen, h]

/-- A run with one directive more is accepted if the directive is, where the others lead. -/
theorem accepted_of_started_concat {dirs : DirectoryStack}
    (h : (started (K := K) c (ds ++ [d]) dirs).rejection = none) :
    (started (K := K) c ds dirs).rejection = none ∧
      (execute c d (started (K := K) c ds dirs).state).rejection = none ∧
      (started (K := K) c (ds ++ [d]) dirs).state =
        (execute c d (started (K := K) c ds dirs).state).state := by
  rw [started_concat, Progress.andThen] at h ⊢
  cases hr : (started (K := K) c ds dirs).rejection with
  | some r =>
      rw [hr] at h
      dsimp only at h
      rw [hr] at h
      cases h
  | none =>
      rw [hr] at h
      exact ⟨rfl, h, rfl⟩

/-! ## One directive -/

/-- What executing a directive comes to if it is accepted: the start is reported, and then
the directive is performed. -/
theorem performed_of_accepted (h : (execute c d s).rejection = none) :
    permit c { s with begun := true } d = .ok () ∧
      (execute c d s).state = ((perform c d).run { s with begun := true }).state ∧
      (execute c d s).events =
        ((begin c).run s).events ++ ((perform c d).run { s with begun := true }).events := by
  obtain ⟨hstate, -⟩ := begin_run c s
  unfold execute Progress.andThen Progress.ofAction at h ⊢
  dsimp only at h ⊢
  rw [hstate] at h ⊢
  rw [attempt_eq] at h ⊢
  cases hp : permit c { s with begun := true } d with
  | error r =>
      rw [hp] at h
      cases h
  | ok u => exact ⟨rfl, rfl, rfl⟩

/-- An accepted directive has one of the effects. -/
theorem effect_of_accepted (h : (execute c d s).rejection = none) :
    permit c { s with begun := true } d = .ok () ∧
      ∃ es, Effect d { s with begun := true } (execute c d s).state es ∧
        (execute c d s).events = ((begin c).run s).events ++ es := by
  obtain ⟨hp, hs, hes⟩ := performed_of_accepted h
  rw [hs]
  exact ⟨hp, _, perform_effect c d _, hes⟩

/-- A block that is opened. -/
theorem state_of_opener {kind : ScopeKind} (h : (execute c d s).rejection = none)
    (hk : kind ≠ .object) (hd : d.name = kind.opener) :
    (execute c d s).state = opened kind { s with begun := true } := by
  rw [(performed_of_accepted h).2.1, perform, hd]
  cases kind with
  | attributes => exact (openScope_run _ _).1
  | transform => exact (openScope_run _ _).1
  | object => exact (hk rfl).elim

/-- The block of an object that is opened. -/
theorem state_of_objectBegin (h : (execute c d s).rejection = none)
    (hd : d.name = .objectBegin) :
    s.openObject = none ∧
      (execute c d s).state =
        { opened .object { s with begun := true } with openObject := some ⟨d.subject, []⟩ } := by
  obtain ⟨hp, hs, -⟩ := performed_of_accepted h
  refine ⟨openObject_of_permit_objectBegin hp hd, ?_⟩
  rw [hs, perform, hd]
  exact (beginObject_run c d _).1

/-- The innermost block that is closed is of the kind that the directive names. -/
theorem closed_of_closer {kind : ScopeKind} (h : (execute c d s).rejection = none)
    (hd : d.name = kind.closer) :
    ∃ scope rest es, s.scopes = scope :: rest ∧ scope.kind = kind ∧
      Closed { s with begun := true } (execute c d s).state es := by
  obtain ⟨hp, hs, -⟩ := performed_of_accepted h
  obtain ⟨scope, rest, hscopes, hkind⟩ := top_of_permit_closer hp hd
  have hc := closed_closeScope { s with begun := true }
  refine ⟨scope, rest, (closeScope.run { s with begun := true }).events, hscopes, hkind, ?_⟩
  rw [hs, perform, hd]
  cases kind <;> exact hc

/-! ## What closing restores -/

/-- What closing the innermost block restores. -/
theorem Closed.restores {K : Type} {σ σ' : EngineState K} {es : List (Event K)} (h : Closed σ σ' es)
    {scope : Scope K} {rest : List (Scope K)} (hs : σ.scopes = scope :: rest) :
    σ'.ctm = scope.ctm ∧ σ'.scopes = rest ∧
      (scope.kind = .attributes → ∀ g saved, σ.savedGraphics = g :: saved →
        σ'.graphics = g ∧ σ'.savedGraphics = saved) ∧
      (scope.kind ≠ .attributes →
        σ'.graphics = σ.graphics ∧ σ'.savedGraphics = σ.savedGraphics) := by
  cases h with
  | nothing hnil =>
      rw [hnil] at hs
      cases hs
  | attributes scope' rest' hs' hk =>
      rw [hs'] at hs
      cases hs
      unfold restoreGraphics
      refine ⟨by split <;> rfl, by split <;> rfl, fun _ g saved hg => ?_, fun hne => (hne hk).elim⟩
      dsimp only
      rw [hg]
      exact ⟨rfl, rfl⟩
  | object scope' rest' o hs' hk ho =>
      rw [hs'] at hs
      cases hs
      refine ⟨rfl, rfl, fun ha => ?_, fun _ => ⟨rfl, rfl⟩⟩
      rw [hk] at ha
      cases ha
  | plain scope' rest' hs' hk ho =>
      rw [hs'] at hs
      cases hs
      exact ⟨rfl, rfl, fun ha => (hk ha).elim, fun _ => ⟨rfl, rfl⟩⟩

/-- Closing a block that is not that of an object leaves all objects alone. -/
theorem Closed.objects_eq {K : Type} {σ σ' : EngineState K} {es : List (Event K)}
    (h : Closed σ σ' es) {scope : Scope K} {rest : List (Scope K)} (hs : σ.scopes = scope :: rest)
    (hk : scope.kind ≠ .object) : σ'.openObject = σ.openObject ∧ σ'.objects = σ.objects := by
  cases h with
  | nothing hnil => exact ⟨rfl, rfl⟩
  | attributes scope' rest' hs' hk' =>
      unfold restoreGraphics
      split <;> exact ⟨rfl, rfl⟩
  | object scope' rest' o hs' hk' ho =>
      rw [hs'] at hs
      cases hs
      exact (hk hk').elim
  | plain scope' rest' hs' hk' ho => exact ⟨rfl, rfl⟩

/-! ## What is left alone -/

/-- The saved graphics states and the completed objects are the same; the open object is
the same as well, except that shapes are added to it. -/
structure Kept {K : Type} (d : Directive) (s s' : EngineState K) : Prop where
  savedGraphics : s'.savedGraphics = s.savedGraphics
  objects : s'.objects = s.objects
  openObject : d.name ≠ .shape → s'.openObject = s.openObject
  grows : Option.Rel ObjectDefinition.Grows s.openObject s'.openObject

theorem kept_of_effect {s' : EngineState K} {es : List (Event K)} (he : Effect d s s' es)
    (hd : isStructural d.name = false) : Kept d s s' := by
  have structural {n : DirectiveName} (hn : d.name = n) (h : isStructural n = true) : False := by
    rw [hn, h] at hd
    cases hd
  have same := ObjectDefinition.Grows.refl_option s.openObject
  cases he with
  | skipped hd => exact ⟨rfl, rfl, fun _ => rfl, same⟩
  | composed hd t ht => exact ⟨rfl, rfl, fun _ => rfl, same⟩
  | replaced hd t ht => exact ⟨rfl, rfl, fun _ => rfl, same⟩
  | recalled hd t ht => exact ⟨rfl, rfl, fun _ => rfl, same⟩
  | activated hd halves hh => exact ⟨rfl, rfl, fun _ => rfl, same⟩
  | saved hd => exact ⟨rfl, rfl, fun _ => rfl, same⟩
  | timed hd a b => exact ⟨rfl, rfl, fun _ => rfl, same⟩
  | placed hd o ho => exact ⟨rfl, rfl, fun _ => rfl, same⟩
  | setting hd kind setting s₁ es hr =>
      cases hr
      exact ⟨rfl, rfl, fun _ => rfl, same⟩
  | camera hd setting s₁ es hr =>
      cases hr
      exact ⟨rfl, rfl, fun _ => rfl, same⟩
  | medium hd id s₁ es hr =>
      cases hr
      exact ⟨rfl, rfl, fun _ => rfl, same⟩
  | painted hd g s₁ es hr hg =>
      cases hr
      exact ⟨rfl, rfl, fun _ => rfl, same⟩
  | light hd r s₁ es hr hmem =>
      cases hr
      exact ⟨rfl, rfl, fun _ => rfl, same⟩
  | areaLight hd r s₁ es hr hmem =>
      cases hr
      exact ⟨rfl, rfl, fun _ => rfl, same⟩
  | stated hd r s₁ es hr ho =>
      cases hr
      exact ⟨rfl, rfl, fun _ => rfl, same⟩
  | captured hd r s₁ es hr o ho =>
      cases hr
      refine ⟨rfl, rfl, fun hne => (hne hd).elim, ?_⟩
      rw [ho]
      exact .some ⟨rfl, List.prefix_append _ _⟩
  | worldBegin hn => exact (structural hn rfl).elim
  | worldEnd hn s₁ es hc => exact (structural hn rfl).elim
  | opened kind hk hn => exact (structural hn (by cases kind <;> rfl)).elim
  | closed kind hn s₁ es hc => exact (structural hn (by cases kind <;> rfl)).elim
  | objectBegin hn => exact (structural hn rfl).elim
  | directories hn dirs => exact ⟨rfl, rfl, fun _ => rfl, same⟩

/-! ## Blocks stay arranged -/

theorem arranged_of_effect {s' : EngineState K} {es : List (Event K)}
    (hp : permit c s d = .ok ()) (he : Effect d s s' es) (ha : IsArranged s) :
    IsArranged s' := by
  by_cases hd : isStructural d.name = true
  · cases he with
    | worldBegin hn => exact ha
    | worldEnd hn s₁ es hc => exact hc.arranged ha
    | opened kind hk hn => exact isArranged_opened ha hk
    | closed kind hn s₁ es hc => exact hc.arranged ha
    | objectBegin hn =>
        have hnone := openObject_of_permit_objectBegin hp hn
        unfold IsArranged at ha ⊢
        rw [hnone] at ha
        exact .object rfl rfl ha
    | directories hn dirs => exact ha
    | _ => simp_all [isStructural]
  · exact (framed_of_effect he (Bool.eq_false_iff.mpr hd)).arranged ha

/-- Blocks are arranged in every run. -/
theorem isArranged_invariant (c : EngineContext) :
    IsInvariant (K := K) c fun s _ => IsArranged s where
  initial _ := .nil
  begun h := ⟨h, h⟩
  performed hp he h := arranged_of_effect hp he h
  ended := by
    rintro s s' es es' ⟨s₁, es₁, hc, rfl, rfl⟩ h
    exact hc.arranged h
  finished h := h

theorem isArranged_execute (ha : IsArranged s) (c : EngineContext) (d : Directive) :
    IsArranged (execute c d s).state := by
  have hall := @IsInvariant.execute K _ c _ (isArranged_invariant c) s [] ha d
  exact hall

end Engine
end SceneReader
