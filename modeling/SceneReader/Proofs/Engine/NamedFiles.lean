import SceneReader.Proofs.Engine.Definition
import SceneReader.Proofs.Engine.Declared
import SceneReader.Proofs.Engine.Stacks

/-!
# Files are declared once

A parameter may name a file, and a mesh is read from a file.  The state keeps the files that were
declared because a parameter names them, and the meshes by their files.  A file is declared when it
is named for the first time, under whatever name and from whatever directory, and the next time it
is found among those that are kept.

**Invariant.**  `FilesKnown s es`: the files and the meshes that the state keeps are those that the
events declare, in order, each of them once.

Other resources have files as well.  The image of a texture is one of them: it is told from an image
that was declared for a parameter by the full path that its own parameters have.

**Results.**
* `Tracks.bind`: actions that keep the files in step, one after the other.
* `tracks_perform`: all directives keep them in step.
* `filesKnown_of_reachable`: the invariant holds in all reachable states.
-/

namespace SceneReader

variable {K : Type}

/-- An entry that is found stands in the table. -/
theorem Table.mem_of_find {α : Type} {name : String} {value : α} {es : List (String × α)}
    (h : find name es = some value) : (name, value) ∈ es := by
  induction es with
  | nil => cases h
  | cons e es ih =>
      unfold find at h
      split at h
      · rename_i he
        cases h
        rw [← he]
        exact List.mem_cons_self
      · exact List.mem_cons_of_mem _ (ih h)

/-- A parameter that was set is there. -/
theorem ParamMap.mem_names_set (m : ParamMap) (p : Param) : p.name ∈ (m.set p).names := by
  by_cases h : p.name ∈ m.names
  · rw [names_set_of_mem h]
    exact h
  · rw [names_set_of_not_mem h]
    exact List.mem_append_right _ List.mem_cons_self

/-- The resources that events declare, in order. -/
def declaredIn (es : List (Event K)) : List (Resource K) := es.filterMap Event.declared?

theorem declaredIn_append (es es' : List (Event K)) :
    declaredIn (es ++ es') = declaredIn es ++ declaredIn es' := List.filterMap_append

theorem mem_declaredIn {es : List (Event K)} {r : Resource K} :
    r ∈ declaredIn es ↔ .declare r ∈ es := by
  unfold declaredIn
  rw [List.mem_filterMap]
  refine ⟨?_, fun h => ⟨_, h, rfl⟩⟩
  rintro ⟨e, he, hr⟩
  cases e <;> cases hr
  exact he

namespace Resource

/-- The shape of a mesh file. -/
def IsMesh (r : Resource K) : Prop := r.kind = .shape ∧ r.type = "plymesh"

instance (r : Resource K) : Decidable r.IsMesh := inferInstanceAs (Decidable (_ ∧ _))

/-- The resource is one that was declared for a file because a parameter names it. -/
def StandsFor [Scalar K] (r : Resource K) (path : String) : Prop :=
  ∃ parameter id, r = Engine.fileResource parameter path id

/-- The file of a resource, unless it is a mesh or a texture with an image of its own. -/
def namedFile? (r : Resource K) : Option String :=
  match r.detail with
  | .other file => file
  | .texture _ file _ => if "fullpath" ∈ r.params.names then none else file
  | _ => none

theorem StandsFor.namedFile?_eq [Scalar K] {r : Resource K} {path : String}
    (h : r.StandsFor path) : r.namedFile? = some path ∧ ¬ r.IsMesh := by
  obtain ⟨parameter, id, rfl⟩ := h
  unfold Engine.fileResource
  split <;> exact ⟨rfl, fun h => nomatch h.1⟩

end Resource

namespace Engine

/-! ## What passes files over -/

/-- What is kept stays, and neither a mesh nor a file for a parameter is declared. -/
structure Passed (s s' : EngineState K) (es : List (Event K)) : Prop where
  files : s'.declaredFiles = s.declaredFiles
  meshes : s'.meshes = s.meshes
  declared : ∀ r ∈ declaredIn es, r.namedFile? = none ∧ ¬ r.IsMesh

/-- The action leaves alone what is kept, and declares neither a mesh nor a file for a
parameter. -/
def Passes {α : Type} (a : Action K α) : Prop :=
  ∀ s, Passed s (a.run s).state (a.run s).events

namespace Passed

variable {s s₁ s' : EngineState K} {es es' : List (Event K)}

/-- Nothing is declared at all. -/
theorem silent (hfiles : s'.declaredFiles = s.declaredFiles) (hmeshes : s'.meshes = s.meshes)
    (hes : declaredIn es = []) : Passed s s' es := ⟨hfiles, hmeshes, by simp [hes]⟩

theorem trans (h : Passed s s₁ es) (h' : Passed s₁ s' es') : Passed s s' (es ++ es') := by
  refine ⟨h'.files.trans h.files, h'.meshes.trans h.meshes, fun r hr => ?_⟩
  rw [declaredIn_append] at hr
  exact (List.mem_append.mp hr).elim (h.declared r) (h'.declared r)

theorem of_closed (h : Closed s s' es) : Passed s s' es := by
  have hclosing (scope : Scope K) : declaredIn (closingEvents scope) = [] := by
    unfold closingEvents
    split <;> rfl
  cases h with
  | nothing hs => exact .silent rfl rfl rfl
  | attributes scope rest hs hk =>
      unfold restoreGraphics
      split <;> exact .silent rfl rfl (hclosing scope)
  | object scope rest o hs hk ho => exact .silent rfl rfl (hclosing scope)
  | plain scope rest hs hk ho => exact .silent rfl rfl (hclosing scope)

theorem of_closedAll (h : ClosedAll s s' es) : Passed s s' es := by
  induction h with
  | nil s => exact .silent rfl rfl rfl
  | cons first rest ih => exact (of_closed first).trans ih

end Passed

namespace Passes

variable {α β : Type}

theorem pure (a : α) : Passes (Pure.pure a : Action K α) := fun _ => .silent rfl rfl rfl

theorem warn (c : EngineContext) (d : Directive) (w : Caution) :
    Passes (Engine.warn (K := K) c d w) := fun _ => .silent rfl rfl rfl

theorem fresh : Passes (fresh (K := K)) := fun _ => .silent rfl rfl rfl

theorem change {f : EngineState K → EngineState K}
    (h : ∀ s, (f s).declaredFiles = s.declaredFiles ∧ (f s).meshes = s.meshes) :
    Passes (Action.change f) := fun s => .silent (h s).1 (h s).2 rfl

theorem declare {r : Resource K} (h : r.namedFile? = none ∧ ¬ r.IsMesh) :
    Passes (declare r) := fun _ => ⟨rfl, rfl, fun _ hr => List.mem_singleton.mp hr ▸ h⟩

theorem tell {e : Event K} (h : e.declared? = none) : Passes (Action.emit e) :=
  fun _ => .silent rfl rfl (by simp [declaredIn, h])

theorem bind_of {x : Action K α} {f : α → Action K β} (hx : Passes x)
    (hf : ∀ s, Passes (f (x.run s).value)) : Passes (x >>= f) :=
  fun s => (hx s).trans (hf s (x.run s).state)

theorem bind {x : Action K α} {f : α → Action K β} (hx : Passes x) (hf : ∀ a, Passes (f a)) :
    Passes (x >>= f) := hx.bind_of fun _ => hf _

theorem state_bind {f : EngineState K → Action K β} (hf : ∀ s, Passes (f s)) :
    Passes (Action.state >>= f) := fun s => hf s s

end Passes

/-! ## Blocks -/

theorem passes_openScope (kind : ScopeKind) : Passes (openScope (K := K) kind) := by
  intro s
  obtain ⟨hs, he⟩ := openScope_run kind s
  rw [hs, he]
  refine .silent rfl rfl ?_
  unfold openingEvents
  split <;> rfl

theorem passes_closeScope : Passes (closeScope (K := K)) := fun s =>
  .of_closed (closed_closeScope s)

theorem passes_endWorld (span : Span) : Passes (endWorld (K := K) span) := by
  intro s
  obtain ⟨s₁, es, hc, hs, he⟩ := endWorld_run span s
  rw [hs, he]
  exact (Passed.of_closedAll hc).trans (.silent rfl rfl rfl)

theorem passes_beginObject (c : EngineContext) (d : Directive) :
    Passes (beginObject (K := K) c d) := by
  intro s
  obtain ⟨hs, he⟩ := beginObject_run c d s
  rw [hs, he]
  exact .silent rfl rfl rfl

theorem passes_findFile (c : EngineContext) (d : Directive) (name : String) :
    Passes (findFile (K := K) c d name) := by
  intro s
  obtain ⟨hs, he⟩ := findFile_run c d name s
  rw [hs, he]
  exact .silent rfl rfl rfl

/-- The image of a texture goes along with its full path. -/
theorem textureImage_value (c : EngineContext) (d : Directive) (type : String)
    (params : ParamMap) (s : EngineState K) :
    ((textureImage c d type params).run s).value.1 = none ∨
      "fullpath" ∈ ((textureImage c d type params).run s).value.2.names := by
  unfold textureImage
  split
  · split
    · rw [Action.run_bind]
      dsimp only
      split
      · exact Or.inr (ParamMap.mem_names_set params _)
      · exact Or.inl rfl
    · exact Or.inl rfl
  · exact Or.inl rfl

/-! ## Files in step -/

section Files

variable [Scalar K]

/-- The files that are kept in the state are those that were declared because a parameter names
them, and the meshes that are kept are those that were declared, each under its file. -/
structure FilesKnown (s : EngineState K) (es : List (Event K)) : Prop where
  files : (declaredIn es).filterMap Resource.namedFile? = s.declaredFiles.reverse
  stand : ∀ r ∈ declaredIn es, ∀ path, r.namedFile? = some path → r.StandsFor path
  apart : s.declaredFiles.Nodup
  meshes : (declaredIn es).filter (fun r => decide r.IsMesh) = s.meshes.values
  paths : ∀ e ∈ s.meshes.entries, e.2.detail = .shape (some e.1)
  names : s.meshes.names.Nodup

namespace FilesKnown

variable {s s' : EngineState K} {es es' : List (Event K)}

theorem passed (h : FilesKnown s es) (hp : Passed s s' es') : FilesKnown s' (es ++ es') := by
  obtain ⟨hfiles, hmeshes, hes⟩ := hp
  have hnofile : (declaredIn es').filterMap Resource.namedFile? = [] :=
    List.filterMap_eq_nil_iff.mpr fun r hr => (hes r hr).1
  have hnomesh : (declaredIn es').filter (fun r => decide r.IsMesh) = [] :=
    List.filter_eq_nil_iff.mpr fun r hr => by simpa using (hes r hr).2
  refine ⟨?_, ?_, ?_, ?_, ?_, ?_⟩
  · rw [declaredIn_append, List.filterMap_append, hnofile, List.append_nil, hfiles, h.files]
  · intro r hr path hpath
    rw [declaredIn_append] at hr
    rcases List.mem_append.mp hr with hr | hr
    · exact h.stand r hr path hpath
    · rw [(hes r hr).1] at hpath
      cases hpath
  · rw [hfiles]
    exact h.apart
  · rw [declaredIn_append, List.filter_append, hnomesh, List.append_nil, hmeshes, h.meshes]
  · rw [hmeshes]
    exact h.paths
  · rw [hmeshes]
    exact h.names

/-- A file is declared for the first time. -/
theorem declareFile (h : FilesKnown s es) {path : String}
    (hnew : path ∉ s.declaredFiles) {r : Resource K} (hr : r.StandsFor path)
    (hfiles : s'.declaredFiles = path :: s.declaredFiles) (hmeshes : s'.meshes = s.meshes) :
    FilesKnown s' (es ++ [.declare r]) := by
  obtain ⟨hnamed, hmesh⟩ := hr.namedFile?_eq
  have hone : declaredIn [Event.declare r] = [r] := rfl
  refine ⟨?_, ?_, ?_, ?_, ?_, ?_⟩
  · rw [declaredIn_append, List.filterMap_append, hone, h.files, hfiles, List.reverse_cons]
    simp [hnamed]
  · intro r' hr' path' hpath
    rw [declaredIn_append, hone] at hr'
    rcases List.mem_append.mp hr' with hr' | hr'
    · exact h.stand r' hr' path' hpath
    · rw [List.mem_singleton.mp hr'] at hpath ⊢
      cases hnamed.symm.trans hpath
      exact hr
  · rw [hfiles]
    exact List.nodup_cons.mpr ⟨hnew, h.apart⟩
  · rw [declaredIn_append, List.filter_append, hone, hmeshes, h.meshes]
    simp [hmesh]
  · rw [hmeshes]
    exact h.paths
  · rw [hmeshes]
    exact h.names

/-- A mesh is declared for the first time. -/
theorem declareMesh (h : FilesKnown s es) {path : String} (hnew : path ∉ s.meshes.names)
    {r : Resource K} (htype : r.type = "plymesh") (hdetail : r.detail = .shape (some path))
    (hfiles : s'.declaredFiles = s.declaredFiles) (hmeshes : s'.meshes = s.meshes.put path r) :
    FilesKnown s' (es ++ [.declare r]) := by
  have hmesh : r.IsMesh := ⟨by rw [Resource.kind, hdetail]; rfl, htype⟩
  have hnamed : r.namedFile? = none := by
    unfold Resource.namedFile?
    rw [hdetail]
  have hone : declaredIn [Event.declare r] = [r] := rfl
  have hput : s'.meshes.entries = s.meshes.entries ++ [(path, r)] := by
    rw [hmeshes]
    exact Table.putIn_of_not_mem r hnew
  refine ⟨?_, ?_, ?_, ?_, ?_, ?_⟩
  · rw [declaredIn_append, List.filterMap_append, hone, hfiles, h.files]
    simp [hnamed]
  · intro r' hr' path' hpath
    rw [declaredIn_append, hone] at hr'
    rcases List.mem_append.mp hr' with hr' | hr'
    · exact h.stand r' hr' path' hpath
    · rw [List.mem_singleton.mp hr', hnamed] at hpath
      cases hpath
  · rw [hfiles]
    exact h.apart
  · rw [declaredIn_append, List.filter_append, hone, h.meshes, Table.values, Table.values, hput]
    simp [hmesh]
  · rw [hput]
    intro e he
    rcases List.mem_append.mp he with he | he
    · exact h.paths e he
    · rw [List.mem_singleton.mp he]
      exact hdetail
  · rw [hmeshes, Table.names_put_of_not_mem _ hnew]
    exact List.nodup_append.mpr ⟨h.names, List.pairwise_singleton _ path, fun a ha b hb hab =>
      hnew (List.mem_singleton.mp hb ▸ hab ▸ ha)⟩

/-- A mesh that is kept was declared for its file. -/
theorem mesh_of_get? (h : FilesKnown s es) {path : String} {r : Resource K}
    (hr : s.meshes.get? path = some r) :
    r ∈ declaredIn es ∧ r.IsMesh ∧ r.detail.file? = some path := by
  have hmem : r ∈ (declaredIn es).filter fun r => decide r.IsMesh :=
    h.meshes.symm ▸ Table.mem_values_of_get? hr
  obtain ⟨hdeclared, hmesh⟩ := List.mem_filter.mp hmem
  have hdetail : r.detail = .shape (some path) := h.paths _ (Table.mem_of_find hr)
  exact ⟨hdeclared, of_decide_eq_true hmesh, by rw [hdetail]; rfl⟩

/-- A file that is kept was declared. -/
theorem exists_standsFor (h : FilesKnown s es) {path : String}
    (hpath : path ∈ s.declaredFiles) : ∃ r ∈ declaredIn es, r.StandsFor path := by
  rw [← List.mem_reverse, ← h.files, List.mem_filterMap] at hpath
  obtain ⟨r, hr, hnamed⟩ := hpath
  exact ⟨r, hr, h.stand r hr path hnamed⟩

end FilesKnown

/-- From a state whose files are known the action leads to such a state. -/
def Tracks {α : Type} (a : Action K α) : Prop :=
  ∀ s es, FilesKnown s es → FilesKnown (a.run s).state (es ++ (a.run s).events)

namespace Tracks

variable {α β : Type}

theorem of_passes {a : Action K α} (h : Passes a) : Tracks a := fun s _ hknown =>
  hknown.passed (h s)

theorem bind {x : Action K α} {f : α → Action K β} (hx : Tracks x) (hf : ∀ a, Tracks (f a)) :
    Tracks (x >>= f) := by
  intro s es h
  rw [Action.run_bind, ← List.append_assoc]
  exact hf _ _ _ (hx s es h)

theorem state_bind {f : EngineState K → Action K β} (hf : ∀ s, Tracks (f s)) :
    Tracks (Action.state >>= f) := fun s => hf s s

end Tracks

/-! ## Files that parameters name -/

theorem tracks_declareFile (parameter path : String) :
    Tracks (declareFile (K := K) parameter path) := by
  intro s es h
  unfold declareFile
  rw [Action.run_state_bind]
  split
  · rw [Action.run_pure, List.append_nil]
    exact h
  · rename_i hnew
    rw [run_fresh_bind, Action.run_change_bind, run_declare]
    refine h.declareFile ?_ ⟨parameter, _, rfl⟩ rfl rfl
    simpa using hnew

variable (c : EngineContext) (d : Directive)

theorem tracks_registerFile (exempt : List String) (m : ParamMap) (p : Param) :
    Tracks (registerFile (K := K) c d exempt m p) := by
  unfold registerFile
  split
  · exact .of_passes (.pure _)
  · refine Tracks.bind (.of_passes (passes_findFile c d _)) fun found => ?_
    split
    · exact .of_passes (.pure _)
    · exact (tracks_declareFile _ _).bind fun _ => .of_passes (.pure _)

theorem tracks_registerFiles (exempt : List String) :
    Tracks (registerFiles (K := K) c d exempt) := by
  have hfold (ps : List Param) (m : ParamMap) :
      Tracks (K := K) (ps.foldlM (registerFile c d exempt) m) := by
    induction ps generalizing m with
    | nil => exact .of_passes (.pure m)
    | cons p ps ih => exact (tracks_registerFile c d exempt m p).bind ih
  exact hfold _ _

/-! ## Directives -/

theorem passes_beginWorld : Passes (beginWorld (K := K)) := by
  intro s
  obtain ⟨hs, he⟩ := beginWorld_run s
  rw [hs, he]
  refine ⟨rfl, rfl, fun r hr => ?_⟩
  rw [List.mem_singleton.mp hr]
  exact ⟨rfl, nofun⟩

theorem passes_move (replaces : Bool) : Passes (move (K := K) c d replaces) := by
  unfold move
  split
  · exact .change fun _ => ⟨rfl, rfl⟩
  · exact .warn c d _
  · exact .pure _

theorem tracks_makeSetting (kind : SettingKind) : Tracks (makeSetting (K := K) c d kind) :=
  (tracks_registerFiles c d []).bind fun _ =>
    .of_passes (.bind (.change fun _ => ⟨rfl, rfl⟩) fun _ => .tell rfl)

theorem tracks_placeCamera : Tracks (placeCamera (K := K) c d) :=
  (tracks_registerFiles c d []).bind fun _ => .of_passes (.state_bind fun _ =>
    .bind (.change fun _ => ⟨rfl, rfl⟩) fun _ => .tell rfl)

theorem tracks_makeMedium : Tracks (makeMedium (K := K) c d) :=
  (tracks_registerFiles c d []).bind fun _ => .of_passes (.bind .fresh fun _ =>
    .bind (.change fun _ => ⟨rfl, rfl⟩) fun _ => .declare ⟨rfl, nofun⟩)

theorem tracks_makeMaterial : Tracks (makeMaterial (K := K) c d) := by
  have hset (id : Option ResourceId) : Passes (setMaterial (K := K) id) :=
    .change fun _ => ⟨rfl, rfl⟩
  unfold makeMaterial
  dsimp only
  split
  · exact .of_passes (hset none)
  · split
    · exact (tracks_registerFiles c d []).bind fun _ => .of_passes (.bind .fresh fun _ =>
        .bind (.declare ⟨rfl, nofun⟩) fun _ => hset _)
    · exact .of_passes (.warn c d _)

theorem tracks_makeNamedMaterial : Tracks (makeNamedMaterial (K := K) c d) := by
  have hnamed (type : String) : Tracks (K := K) (do
      let params ← registerFiles c d []
      let id ← fresh
      declare ⟨id, d.subject, type, params, .material⟩
      .change fun s => { s with graphics := { s.graphics with
        namedMaterials := s.graphics.namedMaterials.put d.subject id } }) :=
    (tracks_registerFiles c d []).bind fun _ => .of_passes (.bind .fresh fun _ =>
      .bind (.declare ⟨rfl, nofun⟩) fun _ => .change fun _ => ⟨rfl, rfl⟩)
  unfold makeNamedMaterial
  dsimp only
  split
  · exact .of_passes (.warn c d _)
  · split
    · refine .state_bind fun s => ?_
      split
      · exact Tracks.bind (.of_passes (.warn c d _)) fun _ => hnamed _
      · exact hnamed _
    · exact .of_passes (.warn c d _)

omit [Scalar K] in
theorem passes_useNamedMaterial : Passes (useNamedMaterial (K := K) c d) := by
  have hset (id : Option ResourceId) : Passes (setMaterial (K := K) id) :=
    .change fun _ => ⟨rfl, rfl⟩
  unfold useNamedMaterial
  dsimp only
  split
  · exact hset none
  · refine .state_bind fun s => ?_
    split
    · exact .warn c d _
    · exact hset _

theorem tracks_makeTexture : Tracks (makeTexture (K := K) c d) := by
  unfold makeTexture
  split
  · rename_i name valueType type _
    refine (tracks_registerFiles c d _).bind fun params => .of_passes ?_
    refine .bind .fresh fun id => ?_
    have himage : Passes (textureImage (K := K) c d type params) := by
      intro s
      obtain ⟨hs, he⟩ := textureImage_run c d type params s
      rw [hs, he]
      exact .silent rfl rfl rfl
    refine himage.bind_of fun s => ?_
    have hvalue := textureImage_value c d type params s
    generalize ((textureImage c d type params).run s).value = image at hvalue
    have hdeclare (m : Matrix4 K) : Passes (K := K) (do
        declare ⟨id, name, type, image.2, .texture valueType image.1 m⟩
        .change fun s => { s with graphics := { s.graphics with
          textures := s.graphics.textures.put name id } }) := by
      refine .bind (.declare ⟨?_, nofun⟩) fun _ => .change fun _ => ⟨rfl, rfl⟩
      unfold Resource.namedFile?
      rcases hvalue with hnone | hfull
      · simp [hnone]
      · simp [hfull]
    refine .state_bind fun s => ?_
    split
    · exact .bind (.warn c d _) fun _ => hdeclare _
    · exact hdeclare _
  · exact .of_passes (.pure _)

theorem tracks_placeLight : Tracks (placeLight (K := K) c d) := by
  unfold placeLight
  dsimp only
  split
  · exact (tracks_registerFiles c d []).bind fun _ => .of_passes (.bind .fresh fun _ =>
      .bind (.declare ⟨rfl, nofun⟩) fun _ => .state_bind fun _ => .tell rfl)
  · exact .of_passes (.warn c d _)

theorem tracks_makeAreaLight : Tracks (makeAreaLight (K := K) c d) := by
  unfold makeAreaLight
  dsimp only
  split
  · exact (tracks_registerFiles c d []).bind fun _ => .of_passes (.bind .fresh fun _ =>
      .bind (.declare ⟨rfl, nofun⟩) fun _ => .change fun _ => ⟨rfl, rfl⟩)
  · exact .of_passes (.warn c d _)

/-! ## Shapes -/

theorem tracks_meshShape : Tracks (meshShape (K := K) c d) := by
  unfold meshShape
  split
  · exact .of_passes (.bind (.warn c d _) fun _ => .pure _)
  · refine Tracks.bind (.of_passes (passes_findFile c d _)) fun found => ?_
    split
    · exact .of_passes (.pure _)
    · rename_i path
      intro s es h
      rw [Action.run_state_bind]
      split
      · rw [Action.run_pure, List.append_nil]
        exact h
      · rename_i hnew
        rw [run_fresh_bind, Action.run_change_bind, run_declare_bind]
        refine h.declareMesh ?_ rfl rfl rfl rfl
        rw [← Table.contains_iff, Table.contains, hnew]
        exact Bool.false_ne_true

omit [Scalar K] in
theorem passes_plainShape {type : String} (htype : type ≠ "plymesh") (name : String)
    (params : ParamMap) : Passes (plainShape (K := K) type name params) :=
  .bind .fresh fun _ => .bind (.declare ⟨rfl, fun h => htype h.2⟩) fun _ => .pure _

theorem passes_stateShape (r : Resource K) : Passes (stateShape c d r) := by
  have hadd (st : ShapeStatement K) : Passes (addStatement st) := by
    refine .state_bind fun s => ?_
    split
    · exact .change fun _ => ⟨rfl, rfl⟩
    · exact .tell rfl
  refine .state_bind fun s => .bind (.change fun _ => ⟨rfl, rfl⟩) fun _ => ?_
  split
  · exact .bind (.warn c d _) fun _ => hadd _
  · exact hadd _

theorem tracks_makeShape : Tracks (makeShape (K := K) c d) := by
  have hstated {f : Option (Resource K) → Action K Unit} (hnone : f none = pure ())
      (hsome : ∀ r, f (some r) = stateShape c d r) (made : Option (Resource K)) :
      Tracks (f made) := by
    cases made with
    | none => exact hnone ▸ .of_passes (.pure _)
    | some r => exact hsome r ▸ .of_passes (passes_stateShape c d r)
  unfold makeShape
  dsimp only
  split
  · exact .of_passes (.warn c d _)
  · split
    · exact (tracks_meshShape c d).bind (hstated rfl fun _ => rfl)
    · rename_i htype
      exact Tracks.bind (.of_passes (passes_plainShape htype _ _)) (hstated rfl fun _ => rfl)

/-- Every directive keeps the files in step. -/
theorem tracks_perform : Tracks (perform (K := K) c d) := by
  unfold perform
  have kept {f : EngineState K → EngineState K}
      (h : ∀ s, (f s).declaredFiles = s.declaredFiles ∧ (f s).meshes = s.meshes) :
      Tracks (Action.change f) := .of_passes (.change h)
  have moved (replaces : Bool) : Tracks (move (K := K) c d replaces) :=
    .of_passes (passes_move c d replaces)
  have closed : Tracks (closeScope (K := K)) := .of_passes passes_closeScope
  cases d.name with
  | identity => exact kept fun _ => ⟨rfl, rfl⟩
  | translate => exact moved false
  | scale => exact moved false
  | rotate => exact moved false
  | lookAt => exact moved false
  | concatTransform => exact moved false
  | transform => exact moved true
  | coordinateSystem => exact kept fun _ => ⟨rfl, rfl⟩
  | coordSysTransform =>
      refine .state_bind fun s => ?_
      split
      · exact .of_passes (.warn c d _)
      · exact kept fun _ => ⟨rfl, rfl⟩
  | transformTimes =>
      change Tracks (setTimes d)
      unfold setTimes
      split
      · exact kept fun _ => ⟨rfl, rfl⟩
      · exact .of_passes (.pure _)
  | activeTransform =>
      change Tracks (activate d)
      unfold activate
      split
      · exact kept fun _ => ⟨rfl, rfl⟩
      · exact .of_passes (.pure _)
  | camera => exact tracks_placeCamera c d
  | film => exact tracks_makeSetting c d .film
  | sampler => exact tracks_makeSetting c d .sampler
  | accelerator => exact tracks_makeSetting c d .accelerator
  | integrator => exact tracks_makeSetting c d .integrator
  | pixelFilter => exact tracks_makeSetting c d .pixelFilter
  | makeNamedMedium => exact tracks_makeMedium c d
  | mediumInterface => exact kept fun _ => ⟨rfl, rfl⟩
  | worldBegin => exact .of_passes passes_beginWorld
  | worldEnd => exact .of_passes (passes_endWorld _)
  | attributeBegin => exact .of_passes (passes_openScope .attributes)
  | attributeEnd => exact closed
  | transformBegin => exact .of_passes (passes_openScope .transform)
  | transformEnd => exact closed
  | texture => exact tracks_makeTexture c d
  | material => exact tracks_makeMaterial c d
  | makeNamedMaterial => exact tracks_makeNamedMaterial c d
  | namedMaterial => exact .of_passes (passes_useNamedMaterial c d)
  | lightSource => exact tracks_placeLight c d
  | areaLightSource => exact tracks_makeAreaLight c d
  | shape => exact tracks_makeShape c d
  | reverseOrientation => exact kept fun _ => ⟨rfl, rfl⟩
  | objectBegin => exact .of_passes (passes_beginObject c d)
  | objectEnd => exact closed
  | objectInstance =>
      refine .state_bind fun s => ?_
      split
      · exact .of_passes (.warn c d _)
      · exact .of_passes (.tell rfl)
  | includeFile => exact .of_passes (.warn c d _)
  | workDirBegin => exact kept fun _ => ⟨rfl, rfl⟩
  | workDirEnd => exact kept fun _ => ⟨rfl, rfl⟩

/-- The files are in step in every run. -/
theorem filesKnown_kept : IsKept (K := K) c FilesKnown where
  initial _ := ⟨rfl, nofun, List.nodup_nil, rfl, nofun, List.nodup_nil⟩
  begun _ h := h.passed (.silent rfl rfl rfl)
  performed _ _ h := tracks_perform c _ _ _ h
  ended _ h := h.passed (passes_endWorld _ _)
  finished h := h.passed (.silent rfl rfl rfl)

theorem filesKnown_of_reachable {c : EngineContext} {s : EngineState K} {es : List (Event K)}
    (h : Reachable c s es) : FilesKnown s es := h.kept (filesKnown_kept c)

end Files

end Engine
end SceneReader
