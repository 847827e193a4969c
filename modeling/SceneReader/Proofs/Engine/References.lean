import SceneReader.Proofs.Engine.Stacks

/-!
# References

A state refers to resources from many places: from the graphics state and its saved copies,
from the materials with names and the meshes, from the pending area light, and from the shapes
of objects.  A reference goes from one place to another, and each starts at an event that
provides what it refers to: a declaration, or the end of an object.

So references are accounted for action by action.  What an action leaves in the state, tells
and returns is among what it was given, or was in the state, or is provided by its events; and
this is closed under sequence.

**Invariant.**  `Backed s es`: everything that the state and the events refer to is provided
by the events.

**Results.**
* `Accounts.bind`: one action after the other.
* `isAccounted_perform`: no directive refers to anything else.
* `backed_of_reachable`: the invariant holds in all reachable states.
-/

namespace SceneReader

variable {K : Type}

/-! ## What is referred to -/

/-- What is referred to: a shape, a light, a material by its identity, an object by its name. -/
inductive Reference (K : Type) where
  | shape (r : Resource K)
  | light (r : Resource K)
  | material (id : ResourceId)
  | object (name : String)

/-- What a statement of a shape refers to. -/
def ShapeStatement.references (st : ShapeStatement K) : List (Reference K) :=
  .shape st.shape :: (st.material.toList.map .material ++ st.areaLight.toList.map .light)

/-- What the shapes of an object refer to. -/
def ObjectDefinition.references (o : ObjectDefinition K) : List (Reference K) :=
  o.shapes.flatMap ShapeStatement.references

/-- What a graphics state refers to. -/
def GraphicsState.references (g : GraphicsState K) : List (Reference K) :=
  g.material.toList.map .material ++ g.namedMaterials.values.map .material ++
    g.areaLight.toList.map .light

/-- What a state refers to. -/
def EngineState.references (s : EngineState K) : List (Reference K) :=
  s.graphics.references ++ s.savedGraphics.flatMap GraphicsState.references ++
    s.openObject.toList.flatMap ObjectDefinition.references ++
    s.objects.values.flatMap (fun o => .object o.name :: o.references) ++
    s.meshes.values.map .shape

/-- What can be referred to after a resource is declared. -/
def Resource.provides (r : Resource K) : List (Reference K) :=
  match r.kind with
  | .shape => [.shape r]
  | .light => [.light r]
  | .material => [.material r.id]
  | _ => []

namespace Event

/-- What an event refers to. -/
def references : Event K → List (Reference K)
  | shape st => st.references
  | light r _ => [.light r]
  | objectEnd o => o.references
  | placed o _ => .object o.name :: o.references
  | _ => []

/-- What can be referred to after an event. -/
def provides : Event K → List (Reference K)
  | declare r => r.provides
  | objectEnd o => [.object o.name]
  | _ => []

end Event

namespace Engine

/-- Everything that the state and the events refer to is provided by the events. -/
structure Backed (s : EngineState K) (es : List (Event K)) : Prop where
  state : s.references ⊆ es.flatMap Event.provides
  events : es.flatMap Event.references ⊆ es.flatMap Event.provides

/-! ## Accounting for references -/

/-- What the action leaves in the state, tells and returns is among what it was given, or was
in the state, or is provided by its events. -/
def Accounts {α : Type} (given : List (Reference K)) (a : Action K α)
    (returned : α → List (Reference K)) : Prop :=
  ∀ s, (a.run s).state.references ++ (a.run s).events.flatMap Event.references ++
      returned (a.run s).value ⊆
    given ++ s.references ++ (a.run s).events.flatMap Event.provides

/-- The action accounts for all references, and nothing is given and returned. -/
def IsAccounted {α : Type} (a : Action K α) : Prop := Accounts [] a fun _ => []

namespace Accounts

variable {α β : Type} {given given' : List (Reference K)} {returned : α → List (Reference K)}
  {returned' : β → List (Reference K)}

theorem mono {a : Action K α} (h : Accounts given a returned) (hg : given ⊆ given') :
    Accounts given' a returned := by
  intro s ref href
  have hold := h s href
  simp only [List.mem_append] at hold ⊢
  rcases hold with (hold | hold) | hold
  · exact Or.inl (Or.inl (hg hold))
  · exact Or.inl (Or.inr hold)
  · exact Or.inr hold

/-- One action after the other: the second one is given what the first one returns. -/
theorem bind {x : Action K α} {f : α → Action K β} (hx : Accounts given x returned)
    (hf : ∀ a, Accounts (given ++ returned a) (f a) returned') :
    Accounts given (x >>= f) returned' := by
  intro s ref href
  have hfirst := @hx s ref
  have hsecond := @hf (x.run s).value (x.run s).state ref
  rw [Action.run_bind] at href ⊢
  simp only [List.mem_append, List.flatMap_append] at href hfirst hsecond ⊢
  tauto

/-- What is returned need not be used. -/
theorem discard {a : Action K α} (h : Accounts given a returned) :
    Accounts given a fun _ => [] := by
  intro s ref href
  refine h s ?_
  rw [List.append_nil] at href
  exact List.mem_append_left _ href

theorem pure {a : α} (h : returned a ⊆ given) :
    Accounts given (Pure.pure a : Action K α) returned := by
  intro s ref href
  rw [Action.run_pure] at href ⊢
  simp only [List.flatMap_nil, List.append_nil, List.mem_append] at href ⊢
  rcases href with href | href
  · exact Or.inr href
  · exact Or.inl (h href)

/-- What follows may refer to what the state refers to. -/
theorem state_bind {f : EngineState K → Action K β}
    (hf : ∀ s, Accounts (given ++ s.references) (f s) returned') :
    Accounts given (Action.state >>= f) returned' := by
  intro s ref href
  have hnext := @hf s s ref
  rw [Action.run_state_bind] at href ⊢
  simp only [List.mem_append] at href hnext ⊢
  tauto

theorem change {f : EngineState K → EngineState K}
    (h : ∀ s, (f s).references ⊆ given ++ s.references) :
    Accounts given (Action.change f) fun _ => [] := by
  intro s ref href
  rw [Action.run_change] at href ⊢
  simp only [List.flatMap_nil, List.append_nil] at href ⊢
  exact h s href

/-- A change of what is no reference. -/
theorem change_of_eq {f : EngineState K → EngineState K}
    (h : ∀ s, (f s).references = s.references) :
    Accounts given (Action.change f) fun _ => [] :=
  change fun s => h s ▸ List.subset_append_right _ _

theorem emit {e : Event K} (h : e.references ⊆ given ++ e.provides) :
    Accounts given (Action.emit e) fun _ => e.provides := by
  intro s ref href
  have he := @h ref
  rw [Action.run_emit] at href ⊢
  simp only [List.mem_append, List.flatMap_cons, List.flatMap_nil, List.append_nil]
    at href he ⊢
  tauto

/-- An event that refers to nothing. -/
theorem tell {e : Event K} (h : e.references = []) :
    Accounts given (Action.emit e) fun _ => [] :=
  (emit (h ▸ List.nil_subset _)).discard

theorem note (d : Diagnostic) : Accounts given (Action.note d) fun _ => [] :=
  fun s _ href => by simpa using Or.inr href

theorem foldlM {x : β → α → Action K β} (h : ∀ b a, IsAccounted (x b a)) (b : β)
    (as : List α) : IsAccounted (as.foldlM x b) := by
  induction as generalizing b with
  | nil => exact pure (List.Subset.refl _)
  | cons a as ih => exact bind (h b a) fun b' => ih b'

end Accounts

namespace IsAccounted

variable {α β : Type} {given : List (Reference K)} {returned : β → List (Reference K)}

/-- What needs nothing may be given something. -/
theorem accounts {a : Action K α} (h : IsAccounted a) (given : List (Reference K)) :
    Accounts given a fun _ => [] := h.mono (List.nil_subset _)

/-- An action that returns nothing goes before another one. -/
theorem bind {x : Action K α} {f : α → Action K β} (hx : IsAccounted x)
    (hf : ∀ a, Accounts given (f a) returned) : Accounts given (x >>= f) returned :=
  (hx.accounts given).bind fun a => (hf a).mono (List.subset_append_left _ _)

theorem pure (a : α) : IsAccounted (Pure.pure a : Action K α) := Accounts.pure (List.nil_subset _)

theorem warn (c : EngineContext) (d : Directive) (w : Caution) :
    IsAccounted (Engine.warn (K := K) c d w) := Accounts.note _

theorem fresh : IsAccounted (fresh (K := K)) := by
  refine Accounts.state_bind fun s => ?_
  exact Accounts.bind (Accounts.change_of_eq fun s => rfl) fun _ =>
    Accounts.pure (List.nil_subset _)

end IsAccounted

theorem accounts_declare (given : List (Reference K)) (r : Resource K) :
    Accounts given (declare r) fun _ => r.provides :=
  Accounts.emit (List.nil_subset _)

theorem isAccounted_findFile (c : EngineContext) (d : Directive) (name : String) :
    IsAccounted (findFile (K := K) c d name) := by
  refine Accounts.state_bind fun s => ?_
  split
  · exact Accounts.pure (List.nil_subset _)
  · exact (IsAccounted.warn c d _).bind fun _ => Accounts.pure (List.nil_subset _)

section Files

variable [Scalar K]

theorem isAccounted_declareFile (parameter path : String) :
    IsAccounted (declareFile (K := K) parameter path) := by
  refine Accounts.state_bind fun s => ?_
  split
  · exact Accounts.pure (List.nil_subset _)
  · refine IsAccounted.fresh.bind fun id => ?_
    refine Accounts.bind (Accounts.change_of_eq fun s => rfl) fun _ => ?_
    exact (accounts_declare _ _).discard

theorem isAccounted_registerFile (c : EngineContext) (d : Directive) (exempt : List String)
    (m : ParamMap) (p : Param) : IsAccounted (registerFile (K := K) c d exempt m p) := by
  unfold registerFile
  split
  · exact IsAccounted.pure _
  · refine (isAccounted_findFile c d _).bind fun found => ?_
    split
    · exact IsAccounted.pure _
    · exact (isAccounted_declareFile _ _).bind fun _ => IsAccounted.pure _

theorem isAccounted_registerFiles (c : EngineContext) (d : Directive) (exempt : List String) :
    IsAccounted (registerFiles (K := K) c d exempt) :=
  Accounts.foldlM (fun m p => isAccounted_registerFile c d exempt m p) _ _

end Files

/-! ## Blocks -/

/-- What the second state and the events refer to is among what the first state refers to, or
is provided by the events. -/
def Accounted (s s' : EngineState K) (es : List (Event K)) : Prop :=
  s'.references ++ es.flatMap Event.references ⊆ s.references ++ es.flatMap Event.provides

theorem IsAccounted.of_run {α : Type} {a : Action K α}
    (h : ∀ s, Accounted s (a.run s).state (a.run s).events) : IsAccounted a := by
  intro s
  rw [List.append_nil, List.nil_append]
  exact h s

namespace Accounted

variable {s s₁ s' : EngineState K} {es es' : List (Event K)}

theorem trans (h : Accounted s s₁ es) (h' : Accounted s₁ s' es') :
    Accounted s s' (es ++ es') := by
  intro ref href
  have hfirst := @h ref
  have hsecond := @h' ref
  simp only [List.mem_append, List.flatMap_append] at href hfirst hsecond ⊢
  tauto

/-- Events that refer to nothing. -/
theorem of_subset (h : s'.references ⊆ s.references)
    (he : ∀ e ∈ es, e.references = []) : Accounted s s' es := by
  have hnone : es.flatMap Event.references = [] := List.flatMap_eq_nil_iff.mpr he
  rw [Accounted, hnone, List.append_nil]
  exact List.Subset.trans h (List.subset_append_left _ _)

end Accounted

/-- The statement of an open block refers to nothing. -/
theorem references_closing {scope : Scope K} {e : Event K} (he : e ∈ closingEvents scope) :
    e.references = [] := by
  unfold closingEvents at he
  split at he
  · rw [List.mem_singleton.mp he]
    rfl
  · cases he

theorem references_restoreGraphics (s : EngineState K) :
    (restoreGraphics s).references ⊆ s.references := by
  intro ref href
  unfold restoreGraphics at href
  split at href
  · exact href
  · rename_i g gs hsaved
    simp only [EngineState.references, hsaved, List.flatMap_cons, List.mem_append] at href ⊢
    tauto

/-- The name of an object that is completed is provided from then on. -/
theorem accounted_objectEnd {s : EngineState K} {o : ObjectDefinition K}
    (ho : s.openObject = some o) :
    Accounted s { s with openObject := none, objects := s.objects.put o.name o }
      [.objectEnd o] := by
  intro ref href
  simp only [EngineState.references, ho, Option.toList_none, Option.toList_some,
    List.flatMap_cons, List.flatMap_nil, List.append_nil, List.mem_append, List.mem_flatMap,
    Event.references, Event.provides, List.mem_singleton] at href ⊢
  rcases href with ((href | ⟨o', ho', href⟩) | href) | href
  · exact Or.inl (Or.inl (Or.inl (Or.inl href)))
  · rcases Table.mem_values_put ho' with rfl | hold
    · rcases List.mem_cons.mp href with rfl | href
      · exact Or.inr rfl
      · exact Or.inl (Or.inl (Or.inl (Or.inr href)))
    · exact Or.inl (Or.inl (Or.inr ⟨o', hold, href⟩))
  · exact Or.inl (Or.inr href)
  · exact Or.inl (Or.inl (Or.inl (Or.inr href)))

theorem accounted_closed {s s' : EngineState K} {es : List (Event K)} (h : Closed s s' es) :
    Accounted s s' es := by
  cases h with
  | nothing hs => exact .of_subset (List.Subset.refl _) (by simp)
  | attributes scope rest hs hk =>
      exact .of_subset (references_restoreGraphics _) fun e he => references_closing he
  | object scope rest o hs hk ho =>
      exact (accounted_objectEnd ho).trans
        (.of_subset (List.Subset.refl _) fun e he => references_closing he)
  | plain scope rest hs hk ho =>
      exact .of_subset (List.Subset.refl _) fun e he => references_closing he

theorem accounted_closedAll {s s' : EngineState K} {es : List (Event K)}
    (h : ClosedAll s s' es) : Accounted s s' es := by
  induction h with
  | nil s => exact .of_subset (List.Subset.refl _) (by simp)
  | cons first rest ih => exact (accounted_closed first).trans ih

theorem accounted_opened (kind : ScopeKind) (s : EngineState K) :
    Accounted s (opened kind s) (openingEvents kind s) := by
  refine .of_subset ?_ fun e he => ?_
  · intro ref href
    unfold opened at href
    split at href
    · simp only [EngineState.references, List.flatMap_cons, List.mem_append] at href ⊢
      tauto
    · exact href
  · unfold openingEvents at he
    split at he
    · rw [List.mem_singleton.mp he]
      rfl
    · cases he

theorem isAccounted_openScope (kind : ScopeKind) : IsAccounted (openScope (K := K) kind) := by
  refine .of_run fun s => ?_
  obtain ⟨hs, he⟩ := openScope_run kind s
  rw [hs, he]
  exact accounted_opened kind s

theorem isAccounted_closeScope : IsAccounted (closeScope (K := K)) :=
  .of_run fun s => accounted_closed (closed_closeScope s)

theorem isAccounted_endWorld (span : Span) : IsAccounted (endWorld (K := K) span) := by
  refine .of_run fun s => ?_
  obtain ⟨s₁, es, hc, hs, he⟩ := endWorld_run span s
  rw [hs, he]
  exact (accounted_closedAll hc).trans (.of_subset (List.Subset.refl _) (by simp [Event.references]))

/-! ## Directives -/

section Directives

variable [Scalar K] (c : EngineContext) (d : Directive)

theorem isAccounted_move (replaces : Bool) : IsAccounted (move (K := K) c d replaces) := by
  unfold move
  split
  · exact Accounts.change_of_eq fun s => rfl
  · exact IsAccounted.warn c d _
  · exact IsAccounted.pure _

omit [Scalar K] in
theorem isAccounted_useCoordinateSystem :
    IsAccounted (useCoordinateSystem (K := K) c d) := by
  refine Accounts.state_bind fun s => ?_
  split
  · exact (IsAccounted.warn c d _).accounts _
  · exact Accounts.change_of_eq fun s => rfl

theorem isAccounted_makeSetting (kind : SettingKind) :
    IsAccounted (makeSetting (K := K) c d kind) := by
  refine (isAccounted_registerFiles c d []).bind fun params => ?_
  refine Accounts.bind (Accounts.change_of_eq fun s => rfl) fun _ => ?_
  exact Accounts.tell rfl

theorem isAccounted_placeCamera : IsAccounted (placeCamera (K := K) c d) := by
  refine (isAccounted_registerFiles c d []).bind fun params => ?_
  refine Accounts.state_bind fun s => ?_
  refine Accounts.bind (Accounts.change_of_eq fun s => rfl) fun _ => ?_
  exact Accounts.tell rfl

theorem isAccounted_makeMedium : IsAccounted (makeMedium (K := K) c d) := by
  refine (isAccounted_registerFiles c d []).bind fun params => ?_
  refine IsAccounted.fresh.bind fun id => ?_
  refine Accounts.bind (Accounts.change_of_eq fun s => rfl) fun _ => ?_
  exact (accounts_declare _ _).discard

theorem isAccounted_beginWorld : IsAccounted (beginWorld (K := K)) := by
  refine .of_run fun s => ?_
  obtain ⟨hs, he⟩ := beginWorld_run s
  rw [hs, he]
  intro ref href
  simp only [worldBegun, defaultMaterial, EngineState.references, GraphicsState.references,
    Event.references, Event.provides, List.flatMap_cons, List.flatMap_nil, List.append_nil,
    List.mem_append, Option.toList_some, List.map_cons, List.map_nil] at href ⊢
  tauto

omit [Scalar K] in
theorem isAccounted_beginObject : IsAccounted (beginObject (K := K) c d) := by
  refine .of_run fun s => ?_
  obtain ⟨hs, he⟩ := beginObject_run c d s
  rw [hs, he]
  have hopened : Accounted s (opened .object s) [] := accounted_opened .object s
  refine hopened.trans (.of_subset ?_ ?_)
  · intro ref href
    simp only [EngineState.references, Option.toList_some, List.flatMap_cons, List.flatMap_nil,
      ObjectDefinition.references, List.append_nil, List.mem_append] at href ⊢
    tauto
  · simp [Event.references]

omit [Scalar K] in
theorem isAccounted_placeObject : IsAccounted (placeObject (K := K) c d) := by
  refine Accounts.state_bind fun s => ?_
  split
  · exact (IsAccounted.warn c d _).accounts _
  · rename_i o ho
    refine (Accounts.emit fun ref href => ?_).discard
    have hmem := Table.mem_values_of_get? ho
    simp only [EngineState.references, List.mem_append, List.mem_flatMap, List.nil_append]
    exact Or.inl (Or.inl (Or.inr ⟨o, hmem, href⟩))

omit [Scalar K] in
/-- A graphics state takes the place of the one before. -/
theorem accounts_change_graphics {given : List (Reference K)}
    {f : GraphicsState K → GraphicsState K}
    (h : ∀ g, (f g).references ⊆ given ++ g.references) :
    Accounts given (Action.change fun s => { s with graphics := f s.graphics }) fun _ => [] := by
  refine Accounts.change fun s ref href => ?_
  have hg := @h s.graphics ref
  simp only [EngineState.references, List.mem_append] at href hg ⊢
  tauto

omit [Scalar K] in
theorem accounts_setMaterial {given : List (Reference K)} {id : Option ResourceId}
    (h : id.toList.map .material ⊆ given) : Accounts given (setMaterial id) fun _ => [] := by
  refine accounts_change_graphics (f := fun g => { g with material := id }) fun g ref href => ?_
  have hid := @h ref
  simp only [GraphicsState.references, List.mem_append] at href ⊢
  tauto

theorem isAccounted_makeMaterial : IsAccounted (makeMaterial (K := K) c d) := by
  unfold makeMaterial
  dsimp only
  split
  · exact accounts_setMaterial (List.nil_subset _)
  · split
    · refine (isAccounted_registerFiles c d []).bind fun params => ?_
      refine IsAccounted.fresh.bind fun id => ?_
      refine (accounts_declare _ _).bind fun _ => accounts_setMaterial ?_
      exact List.Subset.refl _
    · exact IsAccounted.warn c d _

/-- A material is declared and gets a name. -/
theorem isAccounted_nameMaterial (name type : String) :
    IsAccounted (K := K) (do
      let params ← registerFiles c d []
      let id ← fresh
      declare ⟨id, name, type, params, .material⟩
      .change fun s => { s with graphics := { s.graphics with
        namedMaterials := s.graphics.namedMaterials.put name id } }) := by
  refine (isAccounted_registerFiles c d []).bind fun params => ?_
  refine IsAccounted.fresh.bind fun id => ?_
  refine (accounts_declare _ _).bind fun _ => ?_
  refine accounts_change_graphics (f := fun g => { g with
    namedMaterials := g.namedMaterials.put name id }) fun g ref href => ?_
  simp only [GraphicsState.references, List.mem_append, List.mem_map] at href ⊢
  rcases href with (href | ⟨id', hid, rfl⟩) | href
  · exact Or.inr (Or.inl (Or.inl href))
  · rcases Table.mem_values_put hid with rfl | hold
    · exact Or.inl (Or.inr (List.mem_singleton.mpr rfl))
    · exact Or.inr (Or.inl (Or.inr ⟨id', hold, rfl⟩))
  · exact Or.inr (Or.inr href)

theorem isAccounted_makeNamedMaterial : IsAccounted (makeNamedMaterial (K := K) c d) := by
  unfold makeNamedMaterial
  dsimp only
  split
  · exact IsAccounted.warn c d _
  · rename_i type _
    split
    · refine Accounts.state_bind fun s => ?_
      have hrest := (isAccounted_nameMaterial (K := K) c d d.subject type).accounts
        ([] ++ s.references)
      split
      · exact (IsAccounted.warn c d _).bind fun _ => hrest
      · exact hrest
    · exact IsAccounted.warn c d _

omit [Scalar K] in
theorem isAccounted_useNamedMaterial : IsAccounted (useNamedMaterial (K := K) c d) := by
  unfold useNamedMaterial
  dsimp only
  split
  · exact accounts_setMaterial (List.nil_subset _)
  · refine Accounts.state_bind fun s => ?_
    split
    · exact (IsAccounted.warn c d _).accounts _
    · rename_i id hid
      refine accounts_setMaterial fun ref href => ?_
      have hmem := Table.mem_values_of_get? hid
      rw [List.mem_singleton.mp href]
      simp only [EngineState.references, GraphicsState.references, List.nil_append,
        List.mem_append, List.mem_map]
      exact Or.inl (Or.inl (Or.inl (Or.inl (Or.inl (Or.inr ⟨id, hmem, rfl⟩)))))

omit [Scalar K] in
theorem isAccounted_textureImage (type : String) (params : ParamMap) :
    IsAccounted (textureImage (K := K) c d type params) := by
  refine .of_run fun s => ?_
  obtain ⟨hs, he⟩ := textureImage_run c d type params s
  rw [hs, he]
  exact .of_subset (List.Subset.refl _) (by simp)

theorem isAccounted_makeTexture : IsAccounted (makeTexture (K := K) c d) := by
  unfold makeTexture
  split
  · rename_i name valueType type _
    refine (isAccounted_registerFiles c d _).bind fun params => ?_
    refine IsAccounted.fresh.bind fun id => ?_
    refine (isAccounted_textureImage c d _ _).bind fun image => ?_
    refine Accounts.state_bind fun s => ?_
    have hrest (r : Resource K) : Accounts ([] ++ s.references) (declare r >>= fun _ =>
        Action.change fun s => { s with graphics := { s.graphics with
          textures := s.graphics.textures.put name id } }) fun _ => [] :=
      (accounts_declare _ r).bind fun _ => Accounts.change_of_eq fun s => rfl
    split
    · exact (IsAccounted.warn c d _).bind fun _ => hrest _
    · exact hrest _
  · exact IsAccounted.pure _

/-! ## Lights and shapes -/

theorem isAccounted_placeLight : IsAccounted (placeLight (K := K) c d) := by
  unfold placeLight
  dsimp only
  split
  · refine (isAccounted_registerFiles c d _).bind fun params => ?_
    refine IsAccounted.fresh.bind fun id => ?_
    refine (accounts_declare _ _).bind fun _ => ?_
    refine Accounts.state_bind fun s => ?_
    refine (Accounts.emit fun ref href => ?_).discard
    exact List.mem_append_left _ (List.mem_append_left _ (List.mem_append_right _ href))
  · exact IsAccounted.warn c d _

theorem isAccounted_makeAreaLight : IsAccounted (makeAreaLight (K := K) c d) := by
  unfold makeAreaLight
  dsimp only
  split
  · refine (isAccounted_registerFiles c d _).bind fun params => ?_
    refine IsAccounted.fresh.bind fun id => ?_
    refine (accounts_declare _ _).bind fun _ => ?_
    refine accounts_change_graphics (f := fun g => { g with areaLight := some _ })
      fun g ref href => ?_
    simp only [GraphicsState.references, List.mem_append, List.nil_append] at href ⊢
    tauto
  · exact IsAccounted.warn c d _

/-- What making a shape returns. -/
def madeShape {K : Type} (made : Option (Resource K)) : List (Reference K) :=
  made.toList.map .shape

omit [Scalar K] in
theorem accounts_plainShape (type name : String) (params : ParamMap) :
    Accounts [] (plainShape (K := K) type name params) madeShape := by
  refine IsAccounted.fresh.bind fun id => ?_
  refine (accounts_declare _ _).bind fun _ => ?_
  exact Accounts.pure (List.Subset.refl _)

omit [Scalar K] in
/-- A mesh is kept and declared. -/
theorem accounts_keepMesh (given : List (Reference K)) (path : String) {r : Resource K}
    (hr : r.provides = [.shape r]) :
    Accounts given (do
      .change fun s => { s with meshes := s.meshes.put path r }
      declare r
      return some r) madeShape := by
  intro s ref href
  rw [Action.run_change_bind, run_declare_bind, Action.run_pure] at href ⊢
  simp only [EngineState.references, madeShape, Event.references, Event.provides, hr,
    Option.toList_some, List.map_cons, List.map_nil, List.flatMap_cons, List.flatMap_nil,
    List.append_nil, List.mem_append, List.mem_map] at href ⊢
  rcases href with (href | ⟨r', hr', rfl⟩) | href
  · exact Or.inl (Or.inr (Or.inl href))
  · rcases Table.mem_values_put hr' with rfl | hold
    · exact Or.inr (List.mem_singleton.mpr rfl)
    · exact Or.inl (Or.inr (Or.inr ⟨r', hold, rfl⟩))
  · exact Or.inr href

omit [Scalar K] in
/-- The shape of a mesh is the one that was made for the file before, or a new one. -/
theorem accounts_meshShape : Accounts [] (meshShape (K := K) c d) madeShape := by
  unfold meshShape
  split
  · exact (IsAccounted.warn c d _).bind fun _ => Accounts.pure (List.nil_subset _)
  · refine (isAccounted_findFile c d _).bind fun found => ?_
    split
    · exact Accounts.pure (List.nil_subset _)
    · refine Accounts.state_bind fun s => ?_
      split
      · rename_i path r hr
        refine Accounts.pure fun ref href => ?_
        have hmem := Table.mem_values_of_get? hr
        rw [List.mem_singleton.mp href]
        exact List.mem_append_right _ (List.mem_append_right _ (List.mem_map_of_mem hmem))
      · refine IsAccounted.fresh.bind fun id => ?_
        exact accounts_keepMesh _ _ rfl

/-- A shape is stated in the world, or captured by the open object. -/
theorem accounts_addStatement {given : List (Reference K)} (st : ShapeStatement K)
    (h : st.references ⊆ given) : Accounts given (addStatement st) fun _ => [] := by
  refine Accounts.state_bind fun s₀ => ?_
  split
  · rename_i o ho
    refine Accounts.change fun s ref href => ?_
    have hst := @h ref
    have hopen : ref ∈ o.references → ref ∈ s₀.references := by
      intro hmem
      simp only [EngineState.references, ho, Option.toList_some, List.flatMap_cons,
        List.flatMap_nil, List.append_nil, List.mem_append]
      exact Or.inl (Or.inl (Or.inr hmem))
    simp only [EngineState.references, Option.toList_some, List.flatMap_cons,
      List.flatMap_nil, List.append_nil, List.mem_append, ObjectDefinition.references,
      List.flatMap_append] at href hst hopen ⊢
    rcases href with ((href | href | href) | href) | href
    · exact Or.inr (Or.inl (Or.inl (Or.inl href)))
    · exact Or.inl (Or.inr (hopen href))
    · exact Or.inl (Or.inl (hst href))
    · exact Or.inr (Or.inl (Or.inr href))
    · exact Or.inr (Or.inr href)
  · refine (Accounts.emit fun ref href => ?_).discard
    exact List.mem_append_left _ (List.mem_append_left _ (h href))

omit [Scalar K] in
/-- What a statement made in a state refers to. -/
theorem references_statementOf (s : EngineState K) (r : Resource K) (span : Option Span) :
    (statementOf s r span).references ⊆ .shape r :: s.references := by
  intro ref href
  simp only [statementOf, ShapeStatement.references, EngineState.references,
    GraphicsState.references, List.mem_cons, List.mem_append] at href ⊢
  tauto

omit [Scalar K] in
/-- A statement without its light refers to nothing else. -/
theorem references_withoutLight (st : ShapeStatement K) :
    { st with areaLight := none }.references ⊆ st.references := by
  intro ref href
  simp only [ShapeStatement.references, Option.toList_none, List.map_nil, List.append_nil,
    List.mem_cons, List.mem_append] at href ⊢
  tauto

omit [Scalar K] in
/-- The pending area light is taken. -/
theorem accounts_takeLight (given : List (Reference K)) :
    Accounts given (Action.change fun s => { s with graphics := { s.graphics with
      areaLight := none } }) fun _ => [] := by
  refine accounts_change_graphics (f := fun g => { g with areaLight := none })
    fun g ref href => ?_
  simp only [GraphicsState.references, Option.toList_none, List.map_nil, List.append_nil,
    List.mem_append] at href ⊢
  tauto

theorem accounts_stateShape (r : Resource K) :
    Accounts [.shape r] (stateShape c d r) fun _ => [] := by
  refine Accounts.state_bind fun s => ?_
  have hst := references_statementOf s r d.span
  refine Accounts.bind (accounts_takeLight _) fun _ => ?_
  rw [List.append_nil]
  split
  · refine (IsAccounted.warn c d _).bind fun _ => accounts_addStatement _ ?_
    exact List.Subset.trans (references_withoutLight _) hst
  · exact accounts_addStatement _ hst

/-- A shape is made and then stated. -/
theorem isAccounted_bind_stateShape {a : Action K (Option (Resource K))}
    (ha : Accounts [] a madeShape) :
    IsAccounted (do
      let made ← a
      match made with
      | none => return
      | some r => stateShape c d r) := by
  refine ha.bind fun made => ?_
  cases made with
  | none => exact Accounts.pure (List.nil_subset _)
  | some r => exact accounts_stateShape c d r

theorem isAccounted_makeShape : IsAccounted (makeShape (K := K) c d) := by
  unfold makeShape
  dsimp only
  split
  · exact IsAccounted.warn c d _
  · split
    · exact isAccounted_bind_stateShape c d (accounts_meshShape c d)
    · exact isAccounted_bind_stateShape c d (accounts_plainShape _ _ _)

/-- No directive refers to anything that is not there. -/
theorem isAccounted_perform : IsAccounted (perform (K := K) c d) := by
  unfold perform
  have kept {f : EngineState K → EngineState K} (h : ∀ s, (f s).references = s.references) :
      IsAccounted (Action.change f) := Accounts.change_of_eq h
  cases d.name with
  | identity => exact kept fun s => rfl
  | translate => exact isAccounted_move c d false
  | scale => exact isAccounted_move c d false
  | rotate => exact isAccounted_move c d false
  | lookAt => exact isAccounted_move c d false
  | concatTransform => exact isAccounted_move c d false
  | transform => exact isAccounted_move c d true
  | coordinateSystem => exact kept fun s => rfl
  | coordSysTransform => exact isAccounted_useCoordinateSystem c d
  | transformTimes =>
      change IsAccounted (setTimes d)
      unfold setTimes
      split
      · exact kept fun s => rfl
      · exact IsAccounted.pure _
  | activeTransform =>
      change IsAccounted (activate d)
      unfold activate
      split
      · exact kept fun s => rfl
      · exact IsAccounted.pure _
  | camera => exact isAccounted_placeCamera c d
  | film => exact isAccounted_makeSetting c d .film
  | sampler => exact isAccounted_makeSetting c d .sampler
  | accelerator => exact isAccounted_makeSetting c d .accelerator
  | integrator => exact isAccounted_makeSetting c d .integrator
  | pixelFilter => exact isAccounted_makeSetting c d .pixelFilter
  | makeNamedMedium => exact isAccounted_makeMedium c d
  | mediumInterface => exact kept fun s => rfl
  | worldBegin => exact isAccounted_beginWorld
  | worldEnd => exact isAccounted_endWorld _
  | attributeBegin => exact isAccounted_openScope .attributes
  | attributeEnd => exact isAccounted_closeScope
  | transformBegin => exact isAccounted_openScope .transform
  | transformEnd => exact isAccounted_closeScope
  | texture => exact isAccounted_makeTexture c d
  | material => exact isAccounted_makeMaterial c d
  | makeNamedMaterial => exact isAccounted_makeNamedMaterial c d
  | namedMaterial => exact isAccounted_useNamedMaterial c d
  | lightSource => exact isAccounted_placeLight c d
  | areaLightSource => exact isAccounted_makeAreaLight c d
  | shape => exact isAccounted_makeShape c d
  | reverseOrientation => exact kept fun s => rfl
  | objectBegin => exact isAccounted_beginObject c d
  | objectEnd => exact isAccounted_closeScope
  | objectInstance => exact isAccounted_placeObject c d
  | includeFile => exact IsAccounted.warn c d _
  | workDirBegin => exact kept fun s => rfl
  | workDirEnd => exact kept fun s => rfl

end Directives

/-! ## Runs -/

section Runs

variable [Scalar K] {s : EngineState K} {es : List (Event K)}

omit [Scalar K] in
theorem Backed.trans {α : Type} {a : Action K α} (h : Backed s es) (ha : IsAccounted a) :
    Backed (a.run s).state (es ++ (a.run s).events) := by
  have hmore (ref : Reference K) := @ha s ref
  have hstate (ref : Reference K) := @h.state ref
  have hevents (ref : Reference K) := @h.events ref
  simp only [List.append_nil, List.nil_append, List.mem_append] at hmore
  constructor <;> intro ref href <;>
    (simp only [List.flatMap_append, List.mem_append] at href ⊢
     have := hmore ref
     have := hstate ref
     have := hevents ref
     tauto)

omit [Scalar K] in
/-- One more event that refers to nothing. -/
theorem Backed.concat {s' : EngineState K} (h : Backed s es) (hs : s'.references = s.references)
    {e : Event K} (he : e.references = []) : Backed s' (es ++ [e]) := by
  refine ⟨?_, ?_⟩
  · rw [hs, List.flatMap_append]
    exact List.Subset.trans h.state (List.subset_append_left _ _)
  · rw [List.flatMap_append, List.flatMap_append, List.flatMap_singleton, he, List.append_nil]
    exact List.Subset.trans h.events (List.subset_append_left _ _)

theorem backed_kept (c : EngineContext) : IsKept (K := K) c Backed where
  initial _ := ⟨List.Subset.refl _, List.Subset.refl _⟩
  begun _ h := by refine h.concat ?_ ?_ <;> rfl
  performed _ _ h := h.trans (isAccounted_perform c _)
  ended _ h := h.trans (isAccounted_endWorld _)
  finished h := h.concat rfl rfl

/-- In all reachable states everything that is referred to has been provided. -/
theorem backed_of_reachable {c : EngineContext} (h : Reachable c s es) : Backed s es :=
  h.kept (backed_kept c)

end Runs

end Engine
end SceneReader
