import SceneReader.Proofs.Engine.Handling
import SceneReader.Proofs.Engine.Noting

/-!
# Cautions about directives

What a directive notes are cautions about this directive: they point at it, and show the line
in which it starts.  Only a caution about blocks that were left open shows no line.  That an
object is defined again is noted by the begin of an object, and all other cautions by what
the other directives do.

So a condition on all cautions about a directive is a condition on all that is noted.

**Results.**
* `notes_perform`, `notes_beginObject`: conditions on what a directive notes.
* `tells_execute`, `tells_executeAll`: what is noted and refused is about the directives.
* `tells_run`: so it is in a whole run.
-/

namespace SceneReader
namespace Engine

variable {K : Type}

/-- The condition holds of all cautions about the directive but that an object is defined again. -/
def Covers (c : EngineContext) (d : Directive) (P : Diagnostic → Prop) : Prop :=
  ∀ w : Caution, (∀ name, w ≠ .objectRedefined name) →
    P (w.diagnostic (c.whereIs d).1 (c.whereIs d).2)

/-! ## What directives note -/

section Actions

variable {c : EngineContext} {d : Directive} {P : Diagnostic → Prop}

theorem notes_warn (h : Covers c d P) {w : Caution} (hw : ∀ name, w ≠ .objectRedefined name) :
    Notes P (warn (K := K) c d w) := Notes.note (h w hw)

theorem notes_fresh : Notes P (fresh (K := K)) :=
  Notes.state_bind fun _ => Notes.bind (Notes.change _) fun _ => Notes.pure _

theorem notes_findFile (h : Covers c d P) (name : String) :
    Notes P (findFile (K := K) c d name) := by
  refine Notes.state_bind fun s => ?_
  split
  · exact Notes.pure _
  · exact Notes.bind (notes_warn h (by simp)) fun _ => Notes.pure _

/-- Targets are told of a block, or nothing is said. -/
theorem notes_tell (reported : Bool) (e : Event K) :
    Notes P (if reported = true then .emit e else pure () : Action K Unit) := by
  split
  · exact Notes.emit _
  · exact Notes.pure _

theorem notes_openScope (kind : ScopeKind) : Notes P (openScope (K := K) kind) := by
  refine Notes.state_bind fun s => Notes.bind (Notes.change _) fun _ => ?_
  by_cases hk : kind = .attributes
  · rw [if_pos hk]
    exact Notes.bind (Notes.change _) fun _ => notes_tell _ _
  · rw [if_neg hk]
    exact notes_tell _ _

theorem notes_endObject : Notes P (endObject (K := K)) := by
  refine Notes.state_bind fun s => ?_
  split
  · exact Notes.pure _
  · exact Notes.bind (Notes.change _) fun _ => Notes.emit _

theorem notes_closeScope : Notes P (closeScope (K := K)) := by
  refine Notes.state_bind fun s => ?_
  cases s.scopes with
  | nil => exact Notes.pure _
  | cons scope rest =>
      obtain ⟨kind, ctm, reported⟩ := scope
      refine Notes.bind (Notes.change _) fun _ => ?_
      cases kind with
      | attributes => exact Notes.bind (Notes.change _) fun _ => notes_tell _ _
      | object => exact Notes.bind notes_endObject fun _ => notes_tell _ _
      | transform => exact notes_tell _ _

theorem notes_closeScopes (n : Nat) : Notes P (closeScopes (K := K) n) := by
  induction n with
  | zero => exact Notes.pure _
  | succ n ih => exact Notes.bind notes_closeScope fun _ => ih

theorem notes_endWorld {span : Span}
    (hopen : ∀ count, P ((Caution.unclosedScopes count).diagnostic span none)) :
    Notes P (endWorld (K := K) span) := by
  refine Notes.state_bind fun s => ?_
  have hend : Notes P (K := K) (do
      .emit .worldEnd
      .change fun s => { s with phase := .ended }) :=
    Notes.bind (Notes.emit _) fun _ => Notes.change _
  split
  · exact Notes.bind (Notes.note (hopen _)) fun _ =>
      Notes.bind (notes_closeScopes _) fun _ => hend
  · exact hend

theorem notes_placeObject (h : Covers c d P) : Notes P (placeObject (K := K) c d) := by
  refine Notes.state_bind fun s => ?_
  split
  · exact notes_warn h (by simp)
  · exact Notes.emit _

theorem notes_useCoordinateSystem (h : Covers c d P) :
    Notes P (useCoordinateSystem (K := K) c d) := by
  refine Notes.state_bind fun s => ?_
  split
  · exact notes_warn h (by simp)
  · exact Notes.change _

theorem notes_useNamedMaterial (h : Covers c d P) : Notes P (useNamedMaterial (K := K) c d) := by
  unfold useNamedMaterial
  dsimp only
  split
  · exact Notes.change _
  · refine Notes.state_bind fun s => ?_
    split
    · exact notes_warn h (by simp)
    · exact Notes.change _

theorem notes_textureImage (h : Covers c d P) (type : String) (params : ParamMap) :
    Notes P (textureImage (K := K) c d type params) := by
  unfold textureImage
  split
  · split
    · refine Notes.bind (notes_findFile h _) fun found => ?_
      split <;> exact Notes.pure _
    · exact Notes.pure _
  · exact Notes.pure _

theorem notes_plainShape (type name : String) (params : ParamMap) :
    Notes P (plainShape (K := K) type name params) :=
  Notes.bind notes_fresh fun _ => Notes.bind (Notes.emit _) fun _ => Notes.pure _

theorem notes_meshShape (h : Covers c d P) : Notes P (meshShape (K := K) c d) := by
  unfold meshShape
  split
  · exact Notes.bind (notes_warn h (by simp)) fun _ => Notes.pure _
  · refine Notes.bind (notes_findFile h _) fun found => ?_
    split
    · exact Notes.pure _
    · refine Notes.state_bind fun s => ?_
      split
      · exact Notes.pure _
      · refine Notes.bind notes_fresh fun id => Notes.bind (Notes.change _) fun _ => ?_
        exact Notes.bind (Notes.emit _) fun _ => Notes.pure _

variable [Scalar K]

theorem notes_declareFile (parameter path : String) :
    Notes P (declareFile (K := K) parameter path) := by
  refine Notes.state_bind fun s => ?_
  split
  · exact Notes.pure _
  · exact Notes.bind notes_fresh fun _ => Notes.bind (Notes.change _) fun _ => Notes.emit _

theorem notes_registerFiles (h : Covers c d P) (exempt : List String) :
    Notes P (registerFiles (K := K) c d exempt) := by
  refine Notes.foldlM (fun m p => ?_) _ _
  unfold registerFile
  split
  · exact Notes.pure _
  · refine Notes.bind (notes_findFile h _) fun found => ?_
    split
    · exact Notes.pure _
    · exact Notes.bind (notes_declareFile _ _) fun _ => Notes.pure _

theorem notes_move (h : Covers c d P) (replaces : Bool) : Notes P (move (K := K) c d replaces) := by
  unfold move
  split
  · exact Notes.change _
  · exact notes_warn h (by simp)
  · exact Notes.pure _

theorem notes_makeSetting (h : Covers c d P) (kind : SettingKind) :
    Notes P (makeSetting (K := K) c d kind) :=
  Notes.bind (notes_registerFiles h _) fun _ =>
    Notes.bind (Notes.change _) fun _ => Notes.emit _

theorem notes_placeCamera (h : Covers c d P) : Notes P (placeCamera (K := K) c d) :=
  Notes.bind (notes_registerFiles h _) fun _ => Notes.state_bind fun _ =>
    Notes.bind (Notes.change _) fun _ => Notes.emit _

theorem notes_makeMedium (h : Covers c d P) : Notes P (makeMedium (K := K) c d) :=
  Notes.bind (notes_registerFiles h _) fun _ => Notes.bind notes_fresh fun _ =>
    Notes.bind (Notes.change _) fun _ => Notes.emit _

theorem notes_beginWorld : Notes P (beginWorld (K := K)) := by
  refine Notes.bind (Notes.change _) fun _ => Notes.state_bind fun s => ?_
  split
  · exact Notes.bind (Notes.change _) fun _ => Notes.bind (Notes.change _) fun _ =>
      Notes.bind notes_fresh fun _ => Notes.bind (Notes.emit _) fun _ =>
        Notes.bind (Notes.change _) fun _ => Notes.state_bind fun _ => Notes.emit _
  · exact Notes.bind (Notes.change _) fun _ =>
      Notes.bind notes_fresh fun _ => Notes.bind (Notes.emit _) fun _ =>
        Notes.bind (Notes.change _) fun _ => Notes.state_bind fun _ => Notes.emit _

theorem notes_makeTexture (h : Covers c d P) : Notes P (makeTexture (K := K) c d) := by
  unfold makeTexture
  split
  · rename_i name valueType type _
    refine Notes.bind (notes_registerFiles h _) fun params => ?_
    refine Notes.bind notes_fresh fun id => ?_
    refine Notes.bind (notes_textureImage h _ _) fun image => Notes.state_bind fun s => ?_
    split
    · exact Notes.bind (notes_warn h (by simp)) fun _ =>
        Notes.bind (Notes.emit _) fun _ => Notes.change _
    · exact Notes.bind (Notes.emit _) fun _ => Notes.change _
  · exact Notes.pure _

/-- A material, a light or the like is made after its files are found. -/
theorem notes_declared (h : Covers c d P) {a : ParamMap → ResourceId → Action K Unit}
    (ha : ∀ params id, Notes P (a params id)) :
    Notes P (do
      let params ← registerFiles c d []
      let id ← fresh
      a params id) :=
  Notes.bind (notes_registerFiles h _) fun params =>
    Notes.bind notes_fresh fun id => ha params id

theorem notes_makeMaterial (h : Covers c d P) : Notes P (makeMaterial (K := K) c d) := by
  unfold makeMaterial
  dsimp only
  split
  · exact Notes.change _
  · split
    · exact notes_declared h fun _ _ => Notes.bind (Notes.emit _) fun _ => Notes.change _
    · exact notes_warn h (by simp)

theorem notes_makeNamedMaterial (h : Covers c d P) : Notes P (makeNamedMaterial (K := K) c d) := by
  unfold makeNamedMaterial
  dsimp only
  split
  · exact notes_warn h (by simp)
  · split
    · refine Notes.state_bind fun s => ?_
      split
      · exact Notes.bind (notes_warn h (by simp)) fun _ =>
          notes_declared h fun _ _ => Notes.bind (Notes.emit _) fun _ => Notes.change _
      · exact notes_declared h fun _ _ =>
          Notes.bind (Notes.emit _) fun _ => Notes.change _
    · exact notes_warn h (by simp)

theorem notes_placeLight (h : Covers c d P) : Notes P (placeLight (K := K) c d) := by
  unfold placeLight
  dsimp only
  split
  · exact notes_declared h fun _ _ =>
      Notes.bind (Notes.emit _) fun _ => Notes.state_bind fun _ => Notes.emit _
  · exact notes_warn h (by simp)

theorem notes_makeAreaLight (h : Covers c d P) : Notes P (makeAreaLight (K := K) c d) := by
  unfold makeAreaLight
  dsimp only
  split
  · exact notes_declared h fun _ _ => Notes.bind (Notes.emit _) fun _ => Notes.change _
  · exact notes_warn h (by simp)

theorem notes_stateShape (h : Covers c d P) (r : Resource K) : Notes P (stateShape c d r) := by
  have hadd (st : ShapeStatement K) : Notes P (addStatement st) := by
    refine Notes.state_bind fun s => ?_
    split
    · exact Notes.change _
    · exact Notes.emit _
  refine Notes.state_bind fun s => Notes.bind (Notes.change _) fun _ => ?_
  split
  · exact Notes.bind (notes_warn h (by simp)) fun _ => hadd _
  · exact hadd _

/-- A shape that was made is stated. -/
theorem notes_bind_stateShape (h : Covers c d P) {a : Action K (Option (Resource K))}
    (ha : Notes P a) :
    Notes P (do
      let made ← a
      match made with
      | none => return
      | some r => stateShape c d r) := by
  refine Notes.bind ha fun made => ?_
  cases made with
  | none => exact Notes.pure _
  | some r => exact notes_stateShape h r

theorem notes_makeShape (h : Covers c d P) : Notes P (makeShape (K := K) c d) := by
  unfold makeShape
  dsimp only
  split
  · exact notes_warn h (by simp)
  · split
    · exact notes_bind_stateShape h (notes_meshShape h)
    · exact notes_bind_stateShape h (notes_plainShape _ _ _)

/-- All that directives note but the begin of an object. -/
theorem notes_perform (h : Covers c d P)
    (hopen : ∀ count, P ((Caution.unclosedScopes count).diagnostic (c.whereIs d).1 none))
    (hd : d.name ≠ .objectBegin) : Notes P (perform (K := K) c d) := by
  unfold perform
  cases hn : d.name with
  | objectBegin => exact absurd hn hd
  | translate => exact notes_move h false
  | scale => exact notes_move h false
  | rotate => exact notes_move h false
  | lookAt => exact notes_move h false
  | concatTransform => exact notes_move h false
  | transform => exact notes_move h true
  | coordSysTransform => exact notes_useCoordinateSystem h
  | transformTimes =>
      change Notes P (setTimes d)
      unfold setTimes
      split
      · exact Notes.change _
      · exact Notes.pure _
  | activeTransform =>
      change Notes P (activate d)
      unfold activate
      split
      · exact Notes.change _
      · exact Notes.pure _
  | camera => exact notes_placeCamera h
  | film => exact notes_makeSetting h .film
  | sampler => exact notes_makeSetting h .sampler
  | accelerator => exact notes_makeSetting h .accelerator
  | integrator => exact notes_makeSetting h .integrator
  | pixelFilter => exact notes_makeSetting h .pixelFilter
  | makeNamedMedium => exact notes_makeMedium h
  | worldBegin => exact notes_beginWorld
  | worldEnd => exact notes_endWorld hopen
  | attributeBegin => exact notes_openScope .attributes
  | attributeEnd => exact notes_closeScope
  | transformBegin => exact notes_openScope .transform
  | transformEnd => exact notes_closeScope
  | texture => exact notes_makeTexture h
  | material => exact notes_makeMaterial h
  | makeNamedMaterial => exact notes_makeNamedMaterial h
  | namedMaterial => exact notes_useNamedMaterial h
  | lightSource => exact notes_placeLight h
  | areaLightSource => exact notes_makeAreaLight h
  | shape => exact notes_makeShape h
  | objectEnd => exact notes_closeScope
  | objectInstance => exact notes_placeObject h
  | includeFile => exact notes_warn h (by simp)
  | _ => exact Notes.change _

omit [Scalar K] in
/-- The definition of an object is opened without a note. -/
theorem notes_openObject (name : String) : Notes P (K := K) (do
    openScope .object
    .change fun s => { s with openObject := some ⟨name, []⟩ }
    .emit (.objectBegin name)) :=
  Notes.bind (notes_openScope _) fun _ => Notes.bind (Notes.change _) fun _ => Notes.emit _

omit [Scalar K] in
/-- The begin of an object may note that the object is defined again. -/
theorem notes_beginObject
    (h : P ((Caution.objectRedefined d.subject).diagnostic (c.whereIs d).1 (c.whereIs d).2)) :
    Notes P (beginObject (K := K) c d) := by
  refine Notes.state_bind fun s => ?_
  split
  · exact Notes.bind (Notes.note h) fun _ => notes_openObject d.subject
  · exact notes_openObject d.subject

end Actions

/-! ## What runs tell of -/

/-- The span is the place of one of the directives, and the line the one that is shown for it, or
there is no line. -/
def AboutDirective (c : EngineContext) (ds : List Directive) (span : Span)
    (line : Option String) : Prop :=
  line = none ∨ ∃ d ∈ ds, c.whereIs d = (span, line)

/-- All that is noted, and the error that a directive is refused for, is about the directives. -/
structure Progress.Tells (c : EngineContext) (ds : List Directive) (p : Progress K) : Prop where
  notes : ∀ n ∈ p.notes, AboutDirective c ds n.span n.sourceLine
  refusal : ∀ e, p.rejection = some (.scene e) → AboutDirective c ds e.span e.sourceLine

section Runs

variable {c : EngineContext} {d : Directive} {ds : List Directive} {s : EngineState K}

theorem Progress.Tells.andThen {p : Progress K} (hp : p.Tells c ds)
    {f : EngineState K → Progress K} (hf : ∀ s, (f s).Tells c ds) : (p.andThen f).Tells c ds := by
  unfold Progress.andThen
  split
  · exact hp
  · exact ⟨fun n hn => (List.mem_append.mp hn).elim (hp.notes n) ((hf p.state).notes n),
      (hf p.state).refusal⟩

theorem Progress.Tells.ofAction {a : Action K Unit}
    (h : Notes (fun n => AboutDirective c ds n.span n.sourceLine) a) :
    (Progress.ofAction a s).Tells c ds := ⟨h s, nofun⟩

theorem notes_begin {P : Diagnostic → Prop} : Notes P (begin (K := K) c) := by
  refine Notes.state_bind fun s => ?_
  split
  · exact Notes.pure _
  · exact Notes.bind (Notes.change _) fun _ => Notes.emit _

theorem notes_finish :
    Notes (K := K) (fun n => AboutDirective c ds n.span n.sourceLine) finish := by
  refine Notes.state_bind fun s => ?_
  have hemit : Notes (fun n => AboutDirective c ds n.span n.sourceLine)
      (.emit .finish : Action K Unit) := Notes.emit _
  split
  · exact Notes.bind (Notes.note (Or.inl rfl)) fun _ => hemit
  · exact Notes.bind (notes_endWorld fun _ => Or.inl rfl) fun _ => hemit
  · exact Notes.bind (Notes.pure ()) fun _ => hemit

variable [Scalar K]

/-- What a directive notes, and what it is refused for, is about this directive. -/
theorem tells_execute (hd : d ∈ ds) (s : EngineState K) : (execute c d s).Tells c ds := by
  have habout : AboutDirective c ds (c.whereIs d).1 (c.whereIs d).2 := Or.inr ⟨d, hd, rfl⟩
  refine Progress.Tells.andThen (.ofAction notes_begin) fun s => ?_
  rw [attempt_eq]
  cases hp : permit c s d with
  | ok u =>
      refine .ofAction ?_
      by_cases hname : d.name = .objectBegin
      · unfold perform
        rw [hname]
        exact notes_beginObject habout
      · exact notes_perform (fun _ _ => habout) (fun _ => Or.inl rfl) hname
  | error r =>
      refine ⟨List.forall_mem_nil _, fun e he => ?_⟩
      obtain rfl : r = .scene e := Option.some.inj he
      unfold permit at hp
      split at hp
      · cases hp
        exact habout
      · split at hp
        · cases hp
        · cases hp

theorem tells_executeAll {all : List Directive} (hds : ds ⊆ all) (s : EngineState K) :
    (executeAll c ds s).Tells c all := by
  induction ds generalizing s with
  | nil => exact ⟨List.forall_mem_nil _, nofun⟩
  | cons d ds ih =>
      obtain ⟨hd, hds⟩ := List.cons_subset.mp hds
      exact (tells_execute hd s).andThen (ih hds)

/-- What is noted in a run, and what ends it, is about the directives. -/
theorem tells_run (c : EngineContext) (ds : List Directive) (s : EngineState K) :
    (run c ds s).Tells c ds :=
  (Progress.Tells.andThen (.ofAction notes_begin)
    (tells_executeAll (List.Subset.refl ds))).andThen fun _ => .ofAction notes_finish

end Runs

end Engine
end SceneReader
