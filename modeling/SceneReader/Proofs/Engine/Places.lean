import SceneReader.Proofs.Directive.Places
import SceneReader.Proofs.Engine.Accepted
import SceneReader.Proofs.Engine.Protocol

/-!
# Where directives were read does not matter

Diagnostics point to the places of directives, and statements of shapes keep them; nothing else
looks at them.  Nor does it matter whether a directory that is entered was entered once more
before: where a name is found in it, it is found without the other one, and where it is not
found, neither is it there.

So a state is compared with the one that has no places, and more directories below its own.

**Invariant.**  What is done without places, over more directories, is what was done with them.

**Results.**
* `find?_over`: directories that are entered twice find nothing more.
* `Lifts.bind`: one action after the other.
* `lifts_perform`: what a directive does.
* `execute_over`, `executeAll_over`: executing directives, refusals included.
* `finish_over`: the end of a run.
-/

namespace SceneReader

variable {K : Type}

/-! ## Without places, over more directories -/

/-- The statement without where it was read. -/
def ShapeStatement.unplaced (st : ShapeStatement K) : ShapeStatement K := { st with span := none }

/-- The definition without where its shapes were read. -/
def ObjectDefinition.unplaced (o : ObjectDefinition K) : ObjectDefinition K :=
  { o with shapes := o.shapes.map ShapeStatement.unplaced }

/-- The event without where its shapes were read. -/
def Event.unplaced : Event K → Event K
  | shape st => .shape st.unplaced
  | objectEnd o => .objectEnd o.unplaced
  | placed o ctm => .placed o.unplaced ctm
  | e => e

/-- The rejection without where it points. -/
def Rejection.unplaced : Rejection K → Rejection K
  | scene e => .scene (.unplaced e.fault)
  | transform f => .transform f

/-- The context without the lines to quote. -/
def EngineContext.unplaced (c : EngineContext) : EngineContext := { c with lines := [] }

/-- The directories with more of them below. -/
def DirectoryStack.over (below : List Path) (dirs : DirectoryStack) : DirectoryStack :=
  ⟨dirs.dirs ++ below⟩

/-- The state without places, over more directories. -/
def EngineState.over (below : List Path) (s : EngineState K) : EngineState K :=
  { s with
    objects := s.objects.map ObjectDefinition.unplaced
    openObject := s.openObject.map ObjectDefinition.unplaced
    dirs := s.dirs.over below }

namespace EngineState

variable (below : List Path) (s : EngineState K)

@[simp] theorem scopes_over : (s.over below).scopes = s.scopes := rfl

@[simp] theorem graphics_over : (s.over below).graphics = s.graphics := rfl

@[simp] theorem savedGraphics_over : (s.over below).savedGraphics = s.savedGraphics := rfl

@[simp] theorem coordinateSystems_over :
    (s.over below).coordinateSystems = s.coordinateSystems := rfl

@[simp] theorem options_over : (s.over below).options = s.options := rfl

@[simp] theorem meshes_over : (s.over below).meshes = s.meshes := rfl

@[simp] theorem declaredFiles_over : (s.over below).declaredFiles = s.declaredFiles := rfl

@[simp] theorem phase_over : (s.over below).phase = s.phase := rfl

@[simp] theorem begun_over : (s.over below).begun = s.begun := rfl

@[simp] theorem openObject_over :
    (s.over below).openObject = s.openObject.map ObjectDefinition.unplaced := rfl

@[simp] theorem objects_over :
    (s.over below).objects = s.objects.map ObjectDefinition.unplaced := rfl

end EngineState

/-- Directories that are entered twice find nothing more. -/
theorem DirectoryStack.find?_over {below : List Path} {dirs : DirectoryStack}
    (h : below ⊆ dirs.dirs) (files : FileTree) (name : Path) :
    (dirs.over below).find? files name = dirs.find? files name := by
  unfold find? candidates DirectoryStack.over
  split
  · rfl
  · rw [List.map_append, List.find?_append]
    cases hfind : (dirs.dirs.map (·.join name)).find? files.isFile with
    | some p => rfl
    | none =>
        -- what none of the directories finds is not found in one of them
        have hnone : (below.map (·.join name)).find? files.isFile = none :=
          List.find?_eq_none.mpr fun p hp =>
            List.find?_eq_none.mp hfind p (List.map_subset _ h hp)
        rw [hnone]
        rfl

/-- The outcome without places, over more directories. -/
def Outcome.over {α : Type} (below : List Path) (o : Outcome K α) : Outcome K α :=
  ⟨o.value, o.state.over below, o.events.map Event.unplaced, o.notes.map Diagnostic.unplaced⟩

namespace Engine

/-- The progress without places, over more directories. -/
def Progress.over (below : List Path) (p : Progress K) : Progress K :=
  ⟨p.state.over below, p.events.map Event.unplaced, p.notes.map Diagnostic.unplaced,
    p.rejection.map Rejection.unplaced⟩

/-! ## Actions -/

/-- Without places, and over directories that are entered, the second action does what the
first one does, which stays in its directories. -/
def Lifts {α : Type} (below : List Path) (a a' : Action K α) : Prop :=
  ∀ s : EngineState K, below ⊆ s.dirs.dirs →
    a'.run (s.over below) = (a.run s).over below ∧ (a.run s).state.dirs = s.dirs

variable {below : List Path}

namespace Lifts

variable {α β : Type}

theorem pure (a : α) : Lifts below (Pure.pure a : Action K α) (Pure.pure a) :=
  fun _ _ => ⟨rfl, rfl⟩

/-- One action after the other. -/
theorem bind {x x' : Action K α} {f f' : α → Action K β} (hx : Lifts below x x')
    (hf : ∀ a, Lifts below (f a) (f' a)) : Lifts below (x >>= f) (x' >>= f') := by
  intro s hs
  obtain ⟨hrun, hdirs⟩ := hx s hs
  obtain ⟨hrun', hdirs'⟩ := hf (x.run s).value (x.run s).state (hdirs ▸ hs)
  rw [Action.run_bind, Action.run_bind, hrun]
  refine ⟨?_, hdirs'.trans hdirs⟩
  rw [Outcome.over] at hrun'
  simp only [Outcome.over, hrun', List.map_append]

/-- What is done about a state in which the directories are entered. -/
theorem state_bind {f f' : EngineState K → Action K β}
    (hf : ∀ s, below ⊆ s.dirs.dirs → Lifts below (f s) (f' (s.over below))) :
    Lifts below (Action.state >>= f) (Action.state >>= f') := fun s hs => hf s hs s hs

theorem change {f f' : EngineState K → EngineState K}
    (h : ∀ s, f' (s.over below) = (f s).over below) (hdirs : ∀ s, (f s).dirs = s.dirs) :
    Lifts below (Action.change f) (Action.change f') := by
  refine fun s _ => ⟨?_, hdirs s⟩
  change Outcome.mk _ _ _ _ = Outcome.mk _ _ _ _
  rw [h]
  rfl

theorem emit (e : Event K) : Lifts below (Action.emit e) (Action.emit e.unplaced) :=
  fun _ _ => ⟨rfl, rfl⟩

theorem note (n : Diagnostic) :
    Lifts below (Action.note n : Action K Unit) (Action.note n.unplaced) :=
  fun _ _ => ⟨rfl, rfl⟩

theorem foldlM {x x' : β → α → Action K β} (h : ∀ b a, Lifts below (x b a) (x' b a)) (b : β)
    (as : List α) : Lifts below (as.foldlM x b) (as.foldlM x' b) := by
  induction as generalizing b with
  | nil => exact pure b
  | cons a as ih => exact bind (h b a) ih

end Lifts

/-! ## What directives are made of -/

section Parts

variable (c : EngineContext) (d : Directive)

theorem lifts_warn (w : Caution) :
    Lifts below (warn (K := K) c d w) (warn c.unplaced d.unplaced w) :=
  Lifts.note _

theorem lifts_fresh : Lifts below (fresh (K := K)) fresh :=
  Lifts.state_bind fun _ _ => Lifts.bind (Lifts.change (fun _ => rfl) fun _ => rfl) fun _ => .pure _

theorem lifts_declare (r : Resource K) : Lifts below (declare r) (declare r) := Lifts.emit _

theorem lifts_findFile (name : String) :
    Lifts below (findFile (K := K) c d name) (findFile c.unplaced d.unplaced name) := by
  refine Lifts.state_bind fun s hs => ?_
  have hfind : (s.over below).dirs.find? c.unplaced.files (Path.ofText name) =
      s.dirs.find? c.files (Path.ofText name) := DirectoryStack.find?_over hs c.files _
  rw [hfind]
  cases s.dirs.find? c.files (Path.ofText name) with
  | some l => exact .pure _
  | none => exact (lifts_warn c d _).bind fun _ => .pure _

/-- What may be told. -/
theorem Lifts.tell (p : Prop) [Decidable p] (e : Event K) :
    Lifts below (if p then Action.emit e else Pure.pure ())
      (if p then Action.emit e.unplaced else Pure.pure ()) := by
  split
  · exact emit e
  · exact pure ()

theorem lifts_openScope (kind : ScopeKind) :
    Lifts below (openScope (K := K) kind) (openScope kind) := by
  refine Lifts.state_bind fun s _ => ?_
  have hopen : (s.over below).openObject.isNone = s.openObject.isNone := Option.isNone_map
  rw [hopen]
  refine Lifts.bind (Lifts.change (fun _ => rfl) fun _ => rfl) fun _ => ?_
  dsimp only
  split
  · exact Lifts.bind (Lifts.change (fun _ => rfl) fun _ => rfl) fun _ => Lifts.tell _ _
  · exact Lifts.tell _ _

theorem lifts_endObject : Lifts below (endObject (K := K)) endObject := by
  refine Lifts.state_bind fun s _ => ?_
  rw [EngineState.openObject_over]
  cases s.openObject with
  | none => exact .pure ()
  | some o =>
      refine Lifts.bind (Lifts.change (fun s => ?_) fun _ => rfl) fun _ => Lifts.emit _
      exact congrArg (fun t => { s.over below with openObject := none, objects := t })
        (Table.put_map ObjectDefinition.unplaced s.objects o.name o)

theorem restoreGraphics_over (s : EngineState K) :
    restoreGraphics (s.over below) = (restoreGraphics s).over below := by
  unfold restoreGraphics
  rw [EngineState.savedGraphics_over]
  cases s.savedGraphics with
  | nil => rfl
  | cons g gs => rfl

theorem lifts_closeScope : Lifts below (closeScope (K := K)) closeScope := by
  refine Lifts.state_bind fun s _ => ?_
  rw [EngineState.scopes_over]
  cases s.scopes with
  | nil => exact .pure ()
  | cons scope rest =>
      refine Lifts.bind (Lifts.change (fun _ => rfl) fun _ => rfl) fun _ => ?_
      dsimp only
      cases scope.kind with
      | attributes =>
          have hdirs (s : EngineState K) : (restoreGraphics s).dirs = s.dirs := by
            unfold restoreGraphics
            split <;> rfl
          exact Lifts.bind (Lifts.change restoreGraphics_over hdirs) fun _ => Lifts.tell _ _
      | object => exact Lifts.bind lifts_endObject fun _ => Lifts.tell _ _
      | transform => exact Lifts.tell _ _

theorem lifts_closeScopes (n : Nat) : Lifts below (closeScopes (K := K) n) (closeScopes n) := by
  induction n with
  | zero => exact .pure ()
  | succ n ih => exact Lifts.bind lifts_closeScope fun _ => ih

theorem lifts_endWorld (span : Span) :
    Lifts below (endWorld (K := K) span) (endWorld .unknown) := by
  have hend : Lifts below (K := K)
      (do .emit .worldEnd; .change fun s => { s with phase := .ended })
      (do .emit .worldEnd; .change fun s => { s with phase := .ended }) :=
    Lifts.bind (Lifts.emit _) fun _ => Lifts.change (fun _ => rfl) fun _ => rfl
  refine Lifts.state_bind fun s _ => ?_
  rw [EngineState.scopes_over]
  dsimp only
  split
  · refine Lifts.bind (Lifts.note _) fun _ => ?_
    exact Lifts.bind (lifts_closeScopes _) fun _ => hend
  · exact hend

theorem lifts_useCoordinateSystem :
    Lifts below (useCoordinateSystem (K := K) c d)
      (useCoordinateSystem c.unplaced d.unplaced) := by
  refine Lifts.state_bind fun s _ => ?_
  rw [EngineState.coordinateSystems_over, Directive.subject_unplaced]
  cases s.coordinateSystems.get? d.subject with
  | none => exact lifts_warn c d _
  | some t => exact Lifts.change (fun _ => rfl) fun _ => rfl

theorem lifts_activate : Lifts below (activate (K := K) d) (activate d.unplaced) := by
  unfold activate
  rw [Directive.subject_unplaced]
  cases activeHalves? d.subject with
  | none => exact .pure ()
  | some h => exact Lifts.change (fun _ => rfl) fun _ => rfl

theorem lifts_setTimes : Lifts below (setTimes (K := K) d) (setTimes d.unplaced) := by
  unfold setTimes
  rw [Directive.numbers_unplaced]
  split
  · exact Lifts.change (fun _ => rfl) fun _ => rfl
  · exact .pure ()

theorem lifts_beginObject :
    Lifts below (beginObject (K := K) c d) (beginObject c.unplaced d.unplaced) := by
  have hopen : Lifts below (K := K)
      (do
        openScope .object
        .change fun s => { s with openObject := some ⟨d.subject, []⟩ }
        .emit (.objectBegin d.subject))
      (do
        openScope .object
        .change fun s => { s with openObject := some ⟨d.subject, []⟩ }
        .emit (.objectBegin d.subject)) :=
    Lifts.bind (lifts_openScope .object) fun _ =>
      Lifts.bind (Lifts.change (fun _ => rfl) fun _ => rfl) fun _ => Lifts.emit _
  refine Lifts.state_bind fun s _ => ?_
  rw [EngineState.objects_over, Directive.subject_unplaced, Table.contains_map]
  dsimp only
  split
  · exact Lifts.bind (lifts_warn c d _) fun _ => hopen
  · exact hopen

theorem lifts_placeObject :
    Lifts below (placeObject (K := K) c d) (placeObject c.unplaced d.unplaced) := by
  refine Lifts.state_bind fun s _ => ?_
  rw [EngineState.objects_over, Directive.subject_unplaced, Table.get?_map]
  cases s.objects.get? d.subject with
  | none => exact lifts_warn c d _
  | some o => exact Lifts.emit _

theorem lifts_setMaterial (id : Option ResourceId) :
    Lifts below (setMaterial (K := K) id) (setMaterial id) :=
  Lifts.change (fun _ => rfl) fun _ => rfl

theorem lifts_useNamedMaterial :
    Lifts below (useNamedMaterial (K := K) c d) (useNamedMaterial c.unplaced d.unplaced) := by
  unfold useNamedMaterial
  rw [Directive.subject_unplaced]
  dsimp only
  split
  · exact lifts_setMaterial none
  · refine Lifts.state_bind fun s _ => ?_
    rw [EngineState.graphics_over]
    cases s.graphics.namedMaterials.get? d.subject with
    | none => exact lifts_warn c d _
    | some id => exact lifts_setMaterial _

end Parts

/-! ## What directives do -/

section Directives

variable [Scalar K] (c : EngineContext) (d : Directive)

theorem lifts_declareFile (parameter path : String) :
    Lifts below (declareFile (K := K) parameter path) (declareFile parameter path) := by
  refine Lifts.state_bind fun s _ => ?_
  rw [EngineState.declaredFiles_over]
  split
  · exact .pure ()
  · refine Lifts.bind lifts_fresh fun id => ?_
    exact Lifts.bind (Lifts.change (fun _ => rfl) fun _ => rfl) fun _ => lifts_declare _

theorem lifts_registerFile (exempt : List String) (m : ParamMap) (p : Param) :
    Lifts below (registerFile (K := K) c d exempt m p)
      (registerFile c.unplaced d.unplaced exempt m p) := by
  unfold registerFile
  cases namedFile? exempt p with
  | none => exact .pure m
  | some name =>
      refine Lifts.bind (lifts_findFile c d name) fun found => ?_
      cases found with
      | none => exact .pure m
      | some path => exact Lifts.bind (lifts_declareFile p.name path) fun _ => .pure _

theorem lifts_registerFiles (exempt : List String) :
    Lifts below (registerFiles (K := K) c d exempt)
      (registerFiles c.unplaced d.unplaced exempt) :=
  Lifts.foldlM (lifts_registerFile c d exempt) d.params d.params.entries

theorem motion?_unplaced : motion? (K := K) d.unplaced = motion? d := rfl

theorem lifts_move (replaces : Bool) :
    Lifts below (move (K := K) c d replaces) (move c.unplaced d.unplaced replaces) := by
  unfold move
  rw [motion?_unplaced]
  cases motion? (K := K) d with
  | none => exact .pure ()
  | some t =>
      cases t with
      | error f => exact lifts_warn c d _
      | ok t =>
          refine Lifts.change (fun s => ?_) fun s => rfl
          split <;> rfl

theorem lifts_makeSetting (kind : SettingKind) :
    Lifts below (makeSetting (K := K) c d kind) (makeSetting c.unplaced d.unplaced kind) := by
  refine Lifts.bind (lifts_registerFiles c d []) fun params => ?_
  exact Lifts.bind (Lifts.change (fun _ => rfl) fun _ => rfl) fun _ => Lifts.emit _

theorem lifts_placeCamera :
    Lifts below (placeCamera (K := K) c d) (placeCamera c.unplaced d.unplaced) := by
  refine Lifts.bind (lifts_registerFiles c d []) fun params => ?_
  refine Lifts.state_bind fun s _ => ?_
  exact Lifts.bind (Lifts.change (fun _ => rfl) fun _ => rfl) fun _ => Lifts.emit _

theorem lifts_makeMedium :
    Lifts below (makeMedium (K := K) c d) (makeMedium c.unplaced d.unplaced) := by
  refine Lifts.bind (lifts_registerFiles c d []) fun params => ?_
  refine Lifts.bind lifts_fresh fun id => ?_
  exact Lifts.bind (Lifts.change (fun _ => rfl) fun _ => rfl) fun _ => lifts_declare _

theorem lifts_beginWorld : Lifts below (beginWorld (K := K)) beginWorld := by
  have hrest : Lifts below (K := K)
      (do
        .change fun s => { s with
          ctm := .identity
          coordinateSystems := s.coordinateSystems.put "world" .identity }
        let id ← fresh
        declare ⟨id, typedName Known.defaultMaterial id, Known.defaultMaterial, .empty, .material⟩
        .change fun s => { s with graphics := { s.graphics with material := some id } }
        let s ← Action.state
        .emit (.worldBegin s.options))
      (do
        .change fun s => { s with
          ctm := .identity
          coordinateSystems := s.coordinateSystems.put "world" .identity }
        let id ← fresh
        declare ⟨id, typedName Known.defaultMaterial id, Known.defaultMaterial, .empty, .material⟩
        .change fun s => { s with graphics := { s.graphics with material := some id } }
        let s ← Action.state
        .emit (.worldBegin s.options)) := by
    refine Lifts.bind (Lifts.change (fun _ => rfl) fun _ => rfl) fun _ => ?_
    refine Lifts.bind lifts_fresh fun id => ?_
    refine Lifts.bind (lifts_declare _) fun _ => ?_
    refine Lifts.bind (Lifts.change (fun _ => rfl) fun _ => rfl) fun _ => ?_
    exact Lifts.state_bind fun s _ => Lifts.emit _
  refine Lifts.bind (Lifts.change (fun _ => rfl) fun _ => rfl) fun _ => ?_
  refine Lifts.state_bind fun s _ => ?_
  rw [EngineState.options_over]
  dsimp only
  split
  · exact Lifts.bind (Lifts.change (fun _ => rfl) fun _ => rfl) fun _ => hrest
  · exact hrest

omit [Scalar K] in
theorem lifts_textureImage (type : String) (params : ParamMap) :
    Lifts below (textureImage (K := K) c d type params)
      (textureImage c.unplaced d.unplaced type params) := by
  unfold textureImage
  cases (params.strings "filename").head? with
  | none => exact .pure _
  | some name =>
      dsimp only
      split
      · refine Lifts.bind (lifts_findFile c d name) fun found => ?_
        cases found with
        | none => exact .pure _
        | some path => exact .pure _
      · exact .pure _

theorem lifts_makeTexture :
    Lifts below (makeTexture (K := K) c d) (makeTexture c.unplaced d.unplaced) := by
  unfold makeTexture
  rw [Directive.texts_unplaced]
  split
  · rename_i name valueType type _
    refine Lifts.bind (lifts_registerFiles c d _) fun params => ?_
    refine Lifts.bind lifts_fresh fun id => ?_
    refine Lifts.bind (lifts_textureImage c d type params) fun image => ?_
    refine Lifts.state_bind fun s _ => ?_
    rw [EngineState.graphics_over]
    dsimp only
    split
    · refine Lifts.bind (lifts_warn c d _) fun _ => ?_
      refine Lifts.bind (lifts_declare _) fun _ => ?_
      exact Lifts.change (fun _ => rfl) fun _ => rfl
    · refine Lifts.bind (lifts_declare _) fun _ => ?_
      exact Lifts.change (fun _ => rfl) fun _ => rfl
  · exact .pure ()

theorem lifts_makeMaterial :
    Lifts below (makeMaterial (K := K) c d) (makeMaterial c.unplaced d.unplaced) := by
  unfold makeMaterial
  rw [Directive.subject_unplaced]
  dsimp only
  split
  · exact lifts_setMaterial none
  · split
    · refine Lifts.bind (lifts_registerFiles c d []) fun params => ?_
      refine Lifts.bind lifts_fresh fun id => ?_
      exact Lifts.bind (lifts_declare _) fun _ => lifts_setMaterial _
    · exact lifts_warn c d _

theorem lifts_makeNamedMaterial :
    Lifts below (makeNamedMaterial (K := K) c d) (makeNamedMaterial c.unplaced d.unplaced) := by
  unfold makeNamedMaterial
  rw [Directive.subject_unplaced, Directive.params_unplaced]
  dsimp only
  cases (d.params.strings "type").head? with
  | none => exact lifts_warn c d _
  | some type =>
      dsimp only
      have hmake (name : String) : Lifts below (K := K)
          (do
            let params ← registerFiles c d []
            let id ← fresh
            declare ⟨id, name, type, params, .material⟩
            .change fun s => { s with graphics := { s.graphics with
              namedMaterials := s.graphics.namedMaterials.put name id } })
          (do
            let params ← registerFiles c.unplaced d.unplaced []
            let id ← fresh
            declare ⟨id, name, type, params, .material⟩
            .change fun s => { s with graphics := { s.graphics with
              namedMaterials := s.graphics.namedMaterials.put name id } }) := by
        refine Lifts.bind (lifts_registerFiles c d []) fun params => ?_
        refine Lifts.bind lifts_fresh fun id => ?_
        refine Lifts.bind (lifts_declare _) fun _ => ?_
        exact Lifts.change (fun _ => rfl) fun _ => rfl
      split
      · refine Lifts.state_bind fun s _ => ?_
        rw [EngineState.graphics_over]
        split
        · exact Lifts.bind (lifts_warn c d _) fun _ => hmake _
        · exact hmake _
      · exact lifts_warn c d _

theorem lifts_placeLight :
    Lifts below (placeLight (K := K) c d) (placeLight c.unplaced d.unplaced) := by
  unfold placeLight
  rw [Directive.subject_unplaced]
  dsimp only
  split
  · refine Lifts.bind (lifts_registerFiles c d []) fun params => ?_
    refine Lifts.bind lifts_fresh fun id => ?_
    refine Lifts.bind (lifts_declare _) fun _ => ?_
    exact Lifts.state_bind fun s _ => Lifts.emit _
  · exact lifts_warn c d _

theorem lifts_makeAreaLight :
    Lifts below (makeAreaLight (K := K) c d) (makeAreaLight c.unplaced d.unplaced) := by
  unfold makeAreaLight
  rw [Directive.subject_unplaced]
  dsimp only
  split
  · refine Lifts.bind (lifts_registerFiles c d []) fun params => ?_
    refine Lifts.bind lifts_fresh fun id => ?_
    refine Lifts.bind (lifts_declare _) fun _ => ?_
    exact Lifts.change (fun _ => rfl) fun _ => rfl
  · exact lifts_warn c d _

omit [Scalar K] in
theorem lifts_meshShape :
    Lifts below (meshShape (K := K) c d) (meshShape c.unplaced d.unplaced) := by
  unfold meshShape
  rw [Directive.params_unplaced]
  cases (d.params.strings "filename").head? with
  | none => exact Lifts.bind (lifts_warn c d _) fun _ => .pure _
  | some name =>
      refine Lifts.bind (lifts_findFile c d name) fun found => ?_
      cases found with
      | none => exact .pure _
      | some path =>
          refine Lifts.state_bind fun s _ => ?_
          rw [EngineState.meshes_over]
          cases s.meshes.get? path with
          | some r => exact .pure _
          | none =>
              refine Lifts.bind lifts_fresh fun id => ?_
              refine Lifts.bind (Lifts.change (fun _ => rfl) fun _ => rfl) fun _ => ?_
              exact Lifts.bind (lifts_declare _) fun _ => .pure _

omit [Scalar K] in
theorem lifts_plainShape (type name : String) (params : ParamMap) :
    Lifts below (plainShape (K := K) type name params) (plainShape type name params) := by
  refine Lifts.bind lifts_fresh fun id => ?_
  exact Lifts.bind (lifts_declare _) fun _ => .pure _

/-- A shape goes to the open object or into the world. -/
theorem lifts_addStatement (st : ShapeStatement K) :
    Lifts below (addStatement st) (addStatement st.unplaced) := by
  refine Lifts.state_bind fun s _ => ?_
  rw [EngineState.openObject_over]
  cases s.openObject with
  | none => exact Lifts.emit _
  | some o =>
      refine Lifts.change (fun s' => ?_) fun _ => rfl
      refine congrArg (fun o => { s'.over below with openObject := some o }) ?_
      refine congrArg (ObjectDefinition.mk o.name) ?_
      rw [List.map_append]
      rfl

theorem lifts_stateShape (r : Resource K) :
    Lifts below (stateShape c d r) (stateShape c.unplaced d.unplaced r) := by
  refine Lifts.state_bind fun s _ => ?_
  have hstatement : statementOf (s.over below) r d.unplaced.span =
      (statementOf s r d.span).unplaced := rfl
  rw [hstatement]
  refine Lifts.bind (Lifts.change (fun _ => rfl) fun _ => rfl) fun _ => ?_
  change Lifts below _ (if ((statementOf s r d.span).areaLight.isSome &&
    (statementOf s r d.span).transform.isAnimated) = true then _ else _)
  split
  · exact Lifts.bind (lifts_warn c d _) fun _ => lifts_addStatement _
  · exact lifts_addStatement _

theorem lifts_makeShape :
    Lifts below (makeShape (K := K) c d) (makeShape c.unplaced d.unplaced) := by
  unfold makeShape
  rw [Directive.subject_unplaced, Directive.params_unplaced]
  dsimp only
  cases Known.shapeName? d.subject with
  | none => exact lifts_warn c d _
  | some name =>
      dsimp only
      split
      · refine Lifts.bind (lifts_meshShape c d) fun made => ?_
        cases made with
        | none => exact .pure ()
        | some r => exact lifts_stateShape c d r
      · refine Lifts.bind (lifts_plainShape _ _ _) fun made => ?_
        cases made with
        | none => exact .pure ()
        | some r => exact lifts_stateShape c d r

/-- What a directive does that is no mark. -/
theorem lifts_perform (hbegin : d.name ≠ .workDirBegin) (hend : d.name ≠ .workDirEnd) :
    Lifts below (perform (K := K) c d) (perform c.unplaced d.unplaced) := by
  have hchange {f : EngineState K → EngineState K}
      (h : ∀ s, f (s.over below) = (f s).over below) (hdirs : ∀ s, (f s).dirs = s.dirs) :
      Lifts below (Action.change f) (Action.change f) := Lifts.change h hdirs
  unfold perform
  rw [Directive.name_unplaced]
  cases hname : d.name with
  | identity => exact hchange (fun _ => rfl) fun _ => rfl
  | translate => exact lifts_move c d false
  | scale => exact lifts_move c d false
  | rotate => exact lifts_move c d false
  | lookAt => exact lifts_move c d false
  | concatTransform => exact lifts_move c d false
  | transform => exact lifts_move c d true
  | coordinateSystem => exact hchange (fun _ => rfl) fun _ => rfl
  | coordSysTransform => exact lifts_useCoordinateSystem c d
  | activeTransform => exact lifts_activate d
  | transformTimes => exact lifts_setTimes d
  | pixelFilter => exact lifts_makeSetting c d .pixelFilter
  | film => exact lifts_makeSetting c d .film
  | sampler => exact lifts_makeSetting c d .sampler
  | accelerator => exact lifts_makeSetting c d .accelerator
  | integrator => exact lifts_makeSetting c d .integrator
  | camera => exact lifts_placeCamera c d
  | makeNamedMedium => exact lifts_makeMedium c d
  | mediumInterface => exact hchange (fun _ => rfl) fun _ => rfl
  | worldBegin => exact lifts_beginWorld
  | worldEnd => exact lifts_endWorld _
  | attributeBegin => exact lifts_openScope .attributes
  | attributeEnd => exact lifts_closeScope
  | transformBegin => exact lifts_openScope .transform
  | transformEnd => exact lifts_closeScope
  | objectBegin => exact lifts_beginObject c d
  | objectEnd => exact lifts_closeScope
  | objectInstance => exact lifts_placeObject c d
  | texture => exact lifts_makeTexture c d
  | material => exact lifts_makeMaterial c d
  | makeNamedMaterial => exact lifts_makeNamedMaterial c d
  | namedMaterial => exact lifts_useNamedMaterial c d
  | lightSource => exact lifts_placeLight c d
  | areaLightSource => exact lifts_makeAreaLight c d
  | reverseOrientation => exact hchange (fun _ => rfl) fun _ => rfl
  | shape => exact lifts_makeShape c d
  | includeFile => exact lifts_warn c d _
  | workDirBegin => exact absurd hname hbegin
  | workDirEnd => exact absurd hname hend

/-! ## Executing directives -/

/-- Where the directive is executed, the directories below are entered, unless it enters or
leaves one itself. -/
def Sees (below : List Path) (d : Directive) (s : EngineState K) : Prop :=
  ∀ p ∈ below, d.name = .workDirBegin ∨ (d.name = .workDirEnd ∧ s.dirs.dirs ≠ []) ∨
    p ∈ s.dirs.dirs

variable {c d} {s : EngineState K}

omit [Scalar K] in
theorem Sees.pop? (h : Sees below d s) (hd : d.name = .workDirEnd) :
    (s.over below).dirs.pop? = s.dirs.pop?.map fun r => (r.1, r.2.over below) := by
  have hover : (s.over below).dirs.dirs = s.dirs.dirs ++ below := rfl
  unfold DirectoryStack.pop?
  rw [hover]
  cases hdirs : s.dirs.dirs with
  | cons p ps => rfl
  | nil =>
      have hnone : below = [] := by
        refine List.eq_nil_iff_forall_not_mem.mpr fun p hp => ?_
        rcases h p hp with hbegin | ⟨-, hne⟩ | hmem
        · simp [hd] at hbegin
        · exact hne hdirs
        · simp [hdirs] at hmem
      rw [hnone]
      rfl

omit [Scalar K] in
/-- What the open blocks refuse. -/
theorem nestingFault?_over (h : Sees below d s) :
    nestingFault? (s.over below) d.unplaced = nestingFault? s d := by
  unfold nestingFault?
  rw [Directive.name_unplaced]
  cases hname : d.name with
  | objectBegin =>
      dsimp only
      rw [EngineState.openObject_over, Option.map_map]
      rfl
  | objectInstance =>
      dsimp only
      rw [EngineState.openObject_over, Option.map_map]
      rfl
  | workDirEnd =>
      dsimp only
      rw [h.pop? hname]
      cases s.dirs.pop? <;> rfl
  | _ => rfl

theorem permit_over (h : Sees below d s) :
    permit c.unplaced (s.over below) d.unplaced = (permit c s d).mapError Rejection.unplaced := by
  have hmotion : motionFault? (K := K) d.unplaced = motionFault? d := rfl
  unfold permit
  rw [nestingFault?_over h, hmotion, EngineState.phase_over, Directive.name_unplaced]
  cases (phaseFault? s.phase d.name).or (nestingFault? s d) with
  | some f => rfl
  | none => cases motionFault? (K := K) d <;> rfl

/-- What a directive does, even if it enters or leaves a directory. -/
theorem perform_over (h : Sees below d s) :
    (perform c.unplaced d.unplaced).run (s.over below) = ((perform c d).run s).over below := by
  by_cases hbegin : d.name = .workDirBegin
  · unfold perform
    rw [Directive.name_unplaced, hbegin]
    rfl
  · by_cases hend : d.name = .workDirEnd
    · unfold perform
      rw [Directive.name_unplaced, hend]
      dsimp only [Action.run_change]
      rw [h.pop? hend]
      cases s.dirs.pop? <;> rfl
    · refine (lifts_perform c d hbegin hend s fun p hp => ?_).1
      rcases h p hp with hname | ⟨hname, -⟩ | hmem
      · exact absurd hname hbegin
      · exact absurd hname hend
      · exact hmem

theorem execute_over (h : Sees below d s) :
    execute c.unplaced d.unplaced (s.over below) = (execute c d s).over below := by
  have hbegun : Sees below d { s with begun := true } := h
  have hover : ({ s.over below with begun := true } : EngineState K) =
      ({ s with begun := true } : EngineState K).over below := rfl
  rw [execute_eq, execute_eq, hover, attempt_eq, attempt_eq, permit_over hbegun,
    EngineState.begun_over]
  cases permit c { s with begun := true } d with
  | error r => cases s.begun <;> rfl
  | ok u =>
      have hrun := perform_over (c := c) hbegun
      unfold Outcome.over at hrun
      simp only [Except.mapError, Progress.ofAction, Progress.over, hrun, List.map_append]
      cases s.begun <;> rfl

/-- Each directive of a row sees the directories below where it is executed. -/
def AllSee (below : List Path) (c : EngineContext) : List Directive → EngineState K → Prop
  | [], _ => True
  | d :: ds, s => Sees below d s ∧
      ((execute c d s).rejection = none → AllSee below c ds (execute c d s).state)

/-- Executing directives without places, over directories that they see, is executing them,
refusals included. -/
theorem executeAll_over {ds : List Directive} (h : AllSee below c ds s) :
    executeAll c.unplaced (ds.map Directive.unplaced) (s.over below) =
      (executeAll c ds s).over below := by
  induction ds generalizing s with
  | nil => rfl
  | cons d ds ih =>
      obtain ⟨hd, hds⟩ := h
      rw [List.map_cons, executeAll, executeAll, execute_over hd]
      unfold Progress.andThen
      cases hr : (execute c d s).rejection with
      | some r => simp only [Progress.over, hr, Option.map_some]
      | none =>
          have hrest := ih (hds hr)
          simp only [Progress.over] at hrest
          simp only [Progress.over, hr, Option.map_none, hrest, List.map_append]

/-- Without more directories there is nothing to see. -/
theorem allSee_nil (c : EngineContext) (ds : List Directive) (s : EngineState K) :
    AllSee [] c ds s := by
  induction ds generalizing s with
  | nil => trivial
  | cons d ds ih => exact ⟨List.forall_mem_nil _, fun _ => ih _⟩

omit [Scalar K] in
theorem lifts_finish : Lifts below (finish (K := K)) finish := by
  have hfinish : Lifts below (K := K) (Action.emit .finish) (Action.emit .finish) := Lifts.emit _
  refine Lifts.state_bind fun s _ => ?_
  rw [EngineState.phase_over]
  cases s.phase with
  | options => exact Lifts.bind (Lifts.note _) fun _ => hfinish
  | world => exact Lifts.bind (lifts_endWorld _) fun _ => hfinish
  | ended => exact Lifts.bind (.pure ()) fun _ => hfinish

/-! ## Between two marks more -/

theorem execute_workDirBegin (hd : d.name = .workDirBegin) (hbegun : s.begun = true) :
    execute c d s = ⟨{ s with dirs := s.dirs.push (Path.ofText d.subject) }, [], [], none⟩ := by
  have hpermit : permit c s d = .ok () := by
    simp [permit, hd, phaseFault?, DirectiveName.placement, nestingFault?, motionFault?, motion?]
  rw [execute_of_begun hbegun, attempt_eq, hpermit, perform, hd]
  rfl

theorem execute_workDirEnd {p : Path} {dirs : DirectoryStack} (hd : d.name = .workDirEnd)
    (hbegun : s.begun = true) (hdirs : s.dirs = dirs.push p) :
    execute c d s = ⟨{ s with dirs := dirs }, [], [], none⟩ := by
  have hpermit : permit c s d = .ok () := by
    simp [permit, hd, phaseFault?, DirectiveName.placement, nestingFault?, motionFault?, motion?,
      hdirs, DirectoryStack.pop_push]
  rw [execute_of_begun hbegun, attempt_eq, hpermit, perform, hd]
  dsimp only [Progress.ofAction, Action.run_change]
  rw [hdirs, DirectoryStack.pop_push]
  rfl

/-- An accepted run executes its directives and finishes. -/
theorem run_of_accepted {ds : List Directive} {dirs : DirectoryStack}
    (h : (executeAll (K := K) c ds { EngineState.initial dirs with begun := true }).rejection =
      none) :
    run c ds (.initial dirs) =
      let p := executeAll (K := K) c ds { EngineState.initial dirs with begun := true }
      ⟨(finish.run p.state).state, .begin c.source :: p.events ++ (finish.run p.state).events,
        p.notes ++ (finish.run p.state).notes, none⟩ := by
  change (started c ds dirs).andThen (Progress.ofAction finish) = _
  rw [started_eq]
  unfold Progress.andThen
  dsimp only
  rw [h]
  rfl

/-- A row of directives between two more marks, whose directory it sees. -/
theorem executeAll_enclosed {root : Path} {ds : List Directive} {b e : Directive}
    (hb : b.name = .workDirBegin) (hroot : Path.ofText b.subject = root)
    (he : e.name = .workDirEnd) (hsee : AllSee [root] c ds s) (hbegun : s.begun = true)
    (hdirs : s.dirs = .empty) (hacc : (executeAll c ds s).rejection = none)
    (hbegun' : (executeAll c ds s).state.begun = true)
    (hdirs' : (executeAll c ds s).state.dirs = .empty) :
    executeAll c.unplaced (b :: (ds.map Directive.unplaced ++ [e])) (s.over []) =
      (executeAll c ds s).over [] := by
  have hpush {s : EngineState K} (h : s.dirs = .empty) :
      (s.over [root]).dirs = (s.over []).dirs.push root := by
    change DirectoryStack.mk (s.dirs.dirs ++ [root]) = ⟨root :: (s.dirs.dirs ++ [])⟩
    rw [h]
    rfl
  have hfirst : execute c.unplaced b (s.over []) = ⟨s.over [root], [], [], none⟩ := by
    have hb' : (s.over []).begun = true := hbegun
    rw [execute_workDirBegin hb hb', hroot, ← hpush hdirs]
    rfl
  have hlast : execute c.unplaced e ((executeAll c ds s).state.over [root]) =
      ⟨(executeAll c ds s).state.over [], [], [], none⟩ := by
    have he' : ((executeAll c ds s).state.over [root]).begun = true := hbegun'
    rw [execute_workDirEnd he he' (hpush hdirs')]
    rfl
  rw [executeAll, hfirst]
  simp only [Progress.andThen, List.nil_append, executeAll_append, executeAll_over hsee,
    executeAll_singleton]
  simp only [Progress.over, hacc, hlast, Option.map_none, List.append_nil]

/-- A run between two more marks, whose directory its directives see, is the same run. -/
theorem run_enclosed {c' : EngineContext} {root : Path} {ds ds' : List Directive}
    {b e : Directive} (hc : c'.unplaced = c.unplaced)
    (hds : ds'.map Directive.unplaced = ds.map Directive.unplaced)
    (hb : b.name = .workDirBegin) (hroot : Path.ofText b.subject = root)
    (he : e.name = .workDirEnd)
    (hsee : AllSee [root] c ds { EngineState.initial (K := K) .empty with begun := true })
    (hacc : (run (K := K) c ds (.initial .empty)).rejection = none)
    (hends : (run (K := K) c ds (.initial .empty)).state.dirs = .empty) :
    (run (K := K) c' (b :: (ds' ++ [e])) (.initial .empty)).over [] =
      (run c ds (.initial .empty)).over [] := by
  rw [run_rejection] at hacc
  have hstart : IsArranged { EngineState.initial (K := K) .empty with begun := true } := .nil
  have hbegun := (advances_executeAll rfl hstart (Stage.isSound_start 0) hacc).tells.begun
  rw [run_of_accepted hacc] at hends ⊢
  have hfinishDirs (s : EngineState K) : (finish.run s).state.dirs = s.dirs :=
    (lifts_finish s (List.nil_subset s.dirs.dirs)).2
  rw [hfinishDirs] at hends
  have hrow := executeAll_enclosed (b := b.unplaced) (e := e.unplaced) hb hroot he hsee rfl rfl
    hacc hbegun hends
  have hrow' : executeAll c'.unplaced ((b :: (ds' ++ [e])).map Directive.unplaced) _ = _ :=
    executeAll_over (allSee_nil c' _ { EngineState.initial (K := K) .empty with begun := true })
  have hmap : (b :: (ds' ++ [e])).map Directive.unplaced =
      b.unplaced :: (ds.map Directive.unplaced ++ [e.unplaced]) := by simp [hds]
  rw [hmap, hc] at hrow'
  have hall := hrow'.symm.trans hrow
  have hacc' := congrArg Progress.rejection hall
  rw [Progress.over, Progress.over, hacc] at hacc'
  rw [run_of_accepted (Option.map_eq_none_iff.mp hacc')]
  have hsource : c'.source = c.source := (EngineContext.mk.inj hc).2.2
  have hfinish (s : EngineState K) : finish.run (s.over []) = (finish.run s).over [] :=
    (lifts_finish s (List.nil_subset _)).1
  generalize executeAll (K := K) c' _ _ = p' at hall ⊢
  generalize executeAll (K := K) c ds _ = p at hall ⊢
  have hstate : p'.state.over [] = p.state.over [] := congrArg Progress.state hall
  have hend : (finish.run p'.state).over [] = (finish.run p.state).over [] := by
    rw [← hfinish, ← hfinish, hstate]
  have hevents : p'.events.map Event.unplaced = p.events.map Event.unplaced :=
    congrArg Progress.events hall
  have hnotes : p'.notes.map Diagnostic.unplaced = p.notes.map Diagnostic.unplaced :=
    congrArg Progress.notes hall
  obtain ⟨-, hstate', hevents', hnotes'⟩ := Outcome.mk.inj hend
  simp only [Progress.over, List.cons_append, List.map_cons, List.map_append, hstate', hevents,
    hevents', hnotes, hnotes', hsource]

end Directives

end Engine
end SceneReader
