import Mathlib.Data.List.Induction
import SceneReader.Proofs.Engine.Definition
import SceneReader.Proofs.Engine.Lookup
import SceneReader.Proofs.Engine.Restoration

/-!
# The scope of named materials

A material that is made under a name is there until the end of the block of attributes in which
it is made, or until one of the same name is made after it.  Blocks of transforms and of objects
make no difference.  The engine does not look for the latest material that is still there: it
keeps one table of names, saves it where a block of attributes begins and goes back to what it
saved where the block ends.

**Invariant.**  `IsMeaning K c dirs level name ds (meaning? s level name)`: what the name stands
for in the table of a level, the current one or one that is saved, is the latest material of
that name made by `ds` that is still there after as many blocks of attributes are closed.

**Results.**
* `materialStep_of_accepted`: what one directive does to the tables.
* `isMeaning_of_accepted`: the invariant, for rows of directives.
* `namedMaterial_of_accepted`: the material that a name is replaced by.
-/

namespace SceneReader
namespace Engine

variable {K : Type}

/-! ## What actions leave alone -/

/-- The action leaves alone what is read off the state. -/
def Leaves {α β : Type} (f : EngineState K → β) (a : Action K α) : Prop :=
  ∀ s, f (a.run s).state = f s

namespace Leaves

variable {α β γ : Type} {f : EngineState K → γ}

theorem pure (a : α) : Leaves f (Pure.pure a : Action K α) := fun _ => rfl

theorem change {g : EngineState K → EngineState K} (h : ∀ s, f (g s) = f s) :
    Leaves f (Action.change g) := h

theorem emit (e : Event K) : Leaves f (Action.emit e) := fun _ => rfl

theorem warn (c : EngineContext) (d : Directive) (w : Caution) :
    Leaves f (Engine.warn (K := K) c d w) := fun _ => rfl

theorem bind {x : Action K α} {g : α → Action K β} (hx : Leaves f x) (hg : ∀ a, Leaves f (g a)) :
    Leaves f (x >>= g) := fun s => (hg _ _).trans (hx s)

theorem state_bind {g : EngineState K → Action K β} (hg : ∀ s, Leaves f (g s)) :
    Leaves f (Action.state >>= g) := fun s => hg s s

end Leaves

/-! ## Tables of names -/

/-- The materials by name. -/
def materialTable (s : EngineState K) : Table ResourceId := s.graphics.namedMaterials

theorem materialTable_of_recorded {s s' : EngineState K} {es : List (Event K)}
    (h : Recorded s s' es) : materialTable s' = materialTable s := by
  cases h
  rfl

theorem leaves_of_records {α : Type} {a : Action K α} (h : Records a) : Leaves materialTable a :=
  fun s => materialTable_of_recorded (h s)

theorem leaves_fresh : Leaves materialTable (fresh (K := K)) := fun _ => rfl

section Actions

variable [Scalar K] {c : EngineContext} {d : Directive}

theorem leaves_registerFiles (exempt : List String) :
    Leaves materialTable (registerFiles (K := K) c d exempt) :=
  leaves_of_records (records_registerFiles c d exempt)

/-- A resource is made after its files are found, and then put to use. -/
theorem leaves_declared {exempt : List String} {a : ParamMap → ResourceId → Action K Unit}
    (ha : ∀ params id, Leaves materialTable (a params id)) :
    Leaves materialTable (do
      let params ← registerFiles c d exempt
      let id ← fresh
      a params id) :=
  (leaves_registerFiles exempt).bind fun params => leaves_fresh.bind fun id => ha params id

theorem leaves_move (replaces : Bool) : Leaves materialTable (move (K := K) c d replaces) := by
  unfold move
  split
  · exact .change fun _ => rfl
  · exact .warn c d _
  · exact .pure _

omit [Scalar K] in
theorem leaves_useCoordinateSystem :
    Leaves materialTable (useCoordinateSystem (K := K) c d) := by
  refine .state_bind fun s => ?_
  split
  · exact .warn c d _
  · exact .change fun _ => rfl

theorem leaves_makeTexture : Leaves materialTable (makeTexture (K := K) c d) := by
  have himage (type : String) (params : ParamMap) :
      Leaves materialTable (textureImage (K := K) c d type params) := by
    intro s
    rw [(textureImage_run c d type params s).1]
  have hput (name : String) (r : Resource K) : Leaves materialTable (do
      declare r
      .change fun s => { s with graphics := { s.graphics with
        textures := s.graphics.textures.put name r.id } }) :=
    .bind (.emit _) fun _ => .change fun _ => rfl
  unfold makeTexture
  split
  · refine leaves_declared fun params id => (himage _ params).bind fun image => ?_
    refine .state_bind fun s => ?_
    split
    · exact .bind (.warn c d _) fun _ => hput _ ⟨id, _, _, _, _⟩
    · exact hput _ ⟨id, _, _, _, _⟩
  · exact .pure _

theorem leaves_makeMaterial : Leaves materialTable (makeMaterial (K := K) c d) := by
  unfold makeMaterial
  dsimp only
  split
  · exact .change fun _ => rfl
  · split
    · exact leaves_declared fun _ _ => .bind (.emit _) fun _ => .change fun _ => rfl
    · exact .warn c d _

omit [Scalar K] in
theorem leaves_useNamedMaterial : Leaves materialTable (useNamedMaterial (K := K) c d) := by
  unfold useNamedMaterial
  dsimp only
  split
  · exact .change fun _ => rfl
  · refine .state_bind fun s => ?_
    split
    · exact .warn c d _
    · exact .change fun _ => rfl

theorem leaves_makeShape : Leaves materialTable (makeShape (K := K) c d) := by
  have hadd (st : ShapeStatement K) : Leaves materialTable (addStatement st) := by
    refine .state_bind fun s => ?_
    split
    · exact .change fun _ => rfl
    · exact .emit _
  have hstate (r : Resource K) : Leaves materialTable (stateShape c d r) := by
    refine .state_bind fun s => .bind (.change fun _ => rfl) fun _ => ?_
    split
    · exact .bind (.warn c d _) fun _ => hadd _
    · exact hadd _
  have hmade {a : Action K (Option (Resource K))} {f : Option (Resource K) → Action K Unit}
      (ha : Records a) (hnone : Leaves materialTable (f none))
      (hsome : ∀ r, Leaves materialTable (f (some r))) : Leaves materialTable (a >>= f) := by
    refine (leaves_of_records ha).bind fun made => ?_
    cases made with
    | none => exact hnone
    | some r => exact hsome r
  unfold makeShape
  dsimp only
  split
  · exact .warn c d _
  · split
    · exact hmade (records_meshShape c d) (.pure _) hstate
    · exact hmade (records_plainShape _ _ _) (.pure _) hstate

/-- Directives that open and close nothing and make no material for later use leave the names
of materials alone. -/
theorem leaves_perform (hd : isStructural d.name = false) (hmake : d.name ≠ .makeNamedMaterial) :
    Leaves materialTable (perform (K := K) c d) := by
  have hsetting (kind : SettingKind) : Leaves materialTable (makeSetting (K := K) c d kind) :=
    (leaves_registerFiles []).bind fun _ => .bind (.change fun _ => rfl) fun _ => .emit _
  unfold perform
  cases hn : d.name with
  | makeNamedMaterial => exact (hmake hn).elim
  | identity => exact .change fun _ => rfl
  | translate => exact leaves_move false
  | scale => exact leaves_move false
  | rotate => exact leaves_move false
  | lookAt => exact leaves_move false
  | concatTransform => exact leaves_move false
  | transform => exact leaves_move true
  | coordinateSystem => exact .change fun _ => rfl
  | coordSysTransform => exact leaves_useCoordinateSystem
  | activeTransform =>
      change Leaves materialTable (activate d)
      unfold activate
      split
      · exact .change fun _ => rfl
      · exact .pure _
  | transformTimes =>
      change Leaves materialTable (setTimes d)
      unfold setTimes
      split
      · exact .change fun _ => rfl
      · exact .pure _
  | pixelFilter => exact hsetting .pixelFilter
  | film => exact hsetting .film
  | sampler => exact hsetting .sampler
  | accelerator => exact hsetting .accelerator
  | integrator => exact hsetting .integrator
  | camera =>
      exact (leaves_registerFiles []).bind fun _ => .state_bind fun _ =>
        .bind (.change fun _ => rfl) fun _ => .emit _
  | makeNamedMedium =>
      exact leaves_declared fun _ _ => .bind (.change fun _ => rfl) fun _ => .emit _
  | mediumInterface => exact .change fun _ => rfl
  | objectInstance =>
      change Leaves materialTable (placeObject c d)
      refine .state_bind fun s => ?_
      split
      · exact .warn c d _
      · exact .emit _
  | texture => exact leaves_makeTexture
  | material => exact leaves_makeMaterial
  | namedMaterial => exact leaves_useNamedMaterial
  | lightSource =>
      change Leaves materialTable (placeLight c d)
      unfold placeLight
      dsimp only
      split
      · exact leaves_declared fun _ _ => .bind (.emit _) fun _ => .state_bind fun _ => .emit _
      · exact .warn c d _
  | areaLightSource =>
      change Leaves materialTable (makeAreaLight c d)
      unfold makeAreaLight
      dsimp only
      split
      · exact leaves_declared fun _ _ => .bind (.emit _) fun _ => .change fun _ => rfl
      · exact .warn c d _
  | reverseOrientation => exact .change fun _ => rfl
  | shape => exact leaves_makeShape
  | includeFile => exact .warn c d _
  | _ =>
      rw [hn] at hd
      cases hd

/-! ## Making a material for later use -/

omit [Scalar K] in
/-- The directive makes a material under the name: the type that it gives is known. -/
def MakesMaterial (name : String) (d : Directive) : Prop :=
  d.name = .makeNamedMaterial ∧ d.subject = name ∧
    ∃ type, (d.params.strings "type").head? = some type ∧ Known.materialTypes.contains type = true

/-- A material is declared after the files that it names, and is put into the table. -/
theorem run_makeNamedMaterial (h : MakesMaterial d.subject d) (s : EngineState K) :
    ∃ r es, ((makeNamedMaterial c d).run s).events = es ++ [.declare r] ∧
      r.kind = .material ∧ r.name = d.subject ∧
      materialTable ((makeNamedMaterial c d).run s).state =
        (materialTable s).put d.subject r.id := by
  obtain ⟨-, -, type, htype, hknown⟩ := h
  rw [← leaves_registerFiles (c := c) (d := d) [] s]
  unfold makeNamedMaterial
  dsimp only
  rw [htype]
  dsimp only
  rw [if_pos hknown, Action.run_state_bind]
  split
  · rw [run_warn_bind, Action.run_bind]
    exact ⟨_, _, rfl, rfl, rfl, rfl⟩
  · rw [Action.run_bind]
    exact ⟨_, _, rfl, rfl, rfl, rfl⟩

/-- What is made under no known type is not put into the table. -/
theorem leaves_makeNamedMaterial (h : ¬ MakesMaterial d.subject d)
    (hd : d.name = .makeNamedMaterial) :
    Leaves materialTable (makeNamedMaterial (K := K) c d) := by
  unfold makeNamedMaterial
  dsimp only
  split
  · exact .warn c d _
  · rename_i type htype
    split
    · rename_i hknown
      exact (h ⟨hd, rfl, type, htype, hknown⟩).elim
    · exact .warn c d _

/-! ## The steps of the tables -/

variable {s : EngineState K}

/-- What a directive does to the table of materials and to those that the open blocks of
attributes saved. -/
inductive MaterialStep (c : EngineContext) (d : Directive) (s : EngineState K) : Prop
  | opened (hd : d.name = .attributeBegin)
      (hg : (execute c d s).state.graphics = s.graphics)
      (hs : (execute c d s).state.savedGraphics = s.graphics :: s.savedGraphics)
  | closed (hd : d.name = .attributeEnd)
      (hs : s.savedGraphics =
        (execute c d s).state.graphics :: (execute c d s).state.savedGraphics)
  /-- A material is declared and put into the table. -/
  | made (hd : MakesMaterial d.subject d) (r : Resource K) (es : List (Event K))
      (hes : (execute c d s).events = es ++ [.declare r]) (hkind : r.kind = .material)
      (hname : r.name = d.subject)
      (ht : materialTable (execute c d s).state = (materialTable s).put d.subject r.id)
      (hs : (execute c d s).state.savedGraphics = s.savedGraphics)
  | level (hbegin : d.name ≠ .attributeBegin) (hend : d.name ≠ .attributeEnd)
      (hmake : ¬ MakesMaterial d.subject d)
      (ht : materialTable (execute c d s).state = materialTable s)
      (hs : (execute c d s).state.savedGraphics = s.savedGraphics)

theorem materialStep_of_opener (hacc : (execute c d s).rejection = none)
    (hd : d.name = .attributeBegin) : MaterialStep c d s := by
  have hopener : d.name = ScopeKind.attributes.opener := hd
  have hstate := state_of_opener hacc (by decide) hopener
  exact .opened hd (by rw [hstate]; rfl) (by rw [hstate]; rfl)

theorem materialStep_of_closer (hs : Consistent s) (hacc : (execute c d s).rejection = none)
    (hd : d.name = .attributeEnd) : MaterialStep c d s := by
  have hcloser : d.name = ScopeKind.attributes.closer := hd
  obtain ⟨scope, rest, es, hscopes, hkind, hc⟩ := closed_of_closer hacc hcloser
  obtain ⟨-, -, hattributes, -⟩ := hc.restores hscopes
  obtain ⟨g, saved, hsaved⟩ := List.exists_cons_of_ne_nil ((hs.restores hscopes).1 hkind)
  obtain ⟨hgraphics, hrest⟩ := hattributes hkind g saved hsaved
  exact .closed hd (by rw [hsaved, hgraphics, hrest])

theorem materialStep_of_makes (hacc : (execute c d s).rejection = none)
    (hd : MakesMaterial d.subject d) : MaterialStep c d s := by
  obtain ⟨-, hstate, hevents⟩ := performed_of_accepted hacc
  obtain ⟨-, es', he, -⟩ := effect_of_accepted hacc
  obtain ⟨r, es, hes, hkind, hname, htable⟩ :=
    run_makeNamedMaterial (c := c) hd { s with begun := true }
  rw [perform, hd.1] at hstate hevents
  dsimp only at hstate hevents
  refine .made hd r (((begin c).run s).events ++ es) ?_ hkind hname ?_
    (kept_of_effect he (by rw [hd.1]; rfl)).savedGraphics
  · rw [hevents, hes, List.append_assoc]
  · rw [hstate, htable]
    rfl

/-- Directives that neither make materials for later use nor open or close blocks of attributes
leave all tables of materials alone. -/
theorem materialStep_of_level (hacc : (execute c d s).rejection = none)
    (hmake : ¬ MakesMaterial d.subject d) (hworld : d.name ≠ .worldEnd)
    (hbegin : d.name ≠ .attributeBegin) (hend : d.name ≠ .attributeEnd) :
    MaterialStep c d s := by
  obtain ⟨-, es, he, -⟩ := effect_of_accepted hacc
  by_cases hd : isStructural d.name = true
  · have hsame : (execute c d s).state.graphics.namedMaterials = s.graphics.namedMaterials ∧
        (execute c d s).state.savedGraphics = s.savedGraphics := by
      by_cases hcloser : ∃ kind, d.name = ScopeKind.closer kind
      · obtain ⟨kind, hn⟩ := hcloser
        have hk : kind ≠ .attributes := by
          rintro rfl
          exact hend hn
        obtain ⟨scope, rest, es, hscopes, rfl, hc⟩ := closed_of_closer hacc hn
        obtain ⟨-, -, -, hplain⟩ := hc.restores hscopes
        obtain ⟨hgraphics, hsaved⟩ := hplain hk
        exact ⟨by rw [hgraphics], hsaved⟩
      · generalize (execute c d s).state = s' at he ⊢
        cases he with
        | worldBegin hn => exact ⟨rfl, rfl⟩
        | worldEnd hn s₁ es hc => exact (hworld hn).elim
        | opened kind hk hn =>
            cases kind with
            | attributes => exact (hbegin hn).elim
            | transform => exact ⟨rfl, rfl⟩
            | object => exact (hk rfl).elim
        | closed kind hn s₁ es hc => exact (hcloser ⟨kind, hn⟩).elim
        | objectBegin hn => exact ⟨rfl, rfl⟩
        | directories hn dirs => exact ⟨rfl, rfl⟩
        | _ => simp_all [isStructural]
    exact .level hbegin hend hmake hsame.1 hsame.2
  · have hsaved := (kept_of_effect he (Bool.eq_false_iff.mpr hd)).savedGraphics
    refine .level hbegin hend hmake ?_ hsaved
    rw [(performed_of_accepted hacc).2.1]
    by_cases hn : d.name = .makeNamedMaterial
    · rw [perform, hn]
      exact leaves_makeNamedMaterial hmake hn _
    · exact leaves_perform (Bool.eq_false_iff.mpr hd) hn _

/-- The steps of the tables, directive by directive. -/
theorem materialStep_of_accepted (hs : Consistent s) (hacc : (execute c d s).rejection = none)
    (hworld : d.name ≠ .worldEnd) : MaterialStep c d s := by
  by_cases hbegin : d.name = .attributeBegin
  · exact materialStep_of_opener hacc hbegin
  · by_cases hend : d.name = .attributeEnd
    · exact materialStep_of_closer hs hacc hend
    · by_cases hmake : MakesMaterial d.subject d
      · exact materialStep_of_makes hacc hmake
      · exact materialStep_of_level hacc hmake hworld hbegin hend

end Actions

/-! ## Levels -/

/-- How many blocks of attributes are closed from a directive on, if `level` of those that are
open behind it are. -/
def levelBefore (d : Directive) (level : Nat) : Nat :=
  match d.name with
  | .attributeBegin => level - 1
  | .attributeEnd => level + 1
  | _ => level

/-- How many of the blocks of attributes that are open before the directives are closed, by
them or by closing `level` blocks behind them. -/
def closedFrom (level : Nat) (ds : List Directive) : Nat := ds.foldr levelBefore level

/-- What a name stands for after `level` blocks of attributes are closed. -/
def meaning? (s : EngineState K) (level : Nat) (name : String) : Option ResourceId :=
  (materialTable s :: s.savedGraphics.map (·.namedMaterials))[level]?.bind (·.get? name)

theorem levelBefore_eq {d : Directive} (hbegin : d.name ≠ .attributeBegin)
    (hend : d.name ≠ .attributeEnd) (level : Nat) : levelBefore d level = level := by
  unfold levelBefore
  split
  · exact absurd ‹_› hbegin
  · exact absurd ‹_› hend
  · rfl

theorem closedFrom_concat (level : Nat) (ds : List Directive) (d : Directive) :
    closedFrom level (ds ++ [d]) = closedFrom (levelBefore d level) ds := by
  simp [closedFrom]

section Steps

variable [Scalar K] {c : EngineContext} {d : Directive} {s : EngineState K} {level : Nat}
  {name : String}

/-- A directive that makes no material of the name changes no more about it than the level at
which it stands for what. -/
theorem MaterialStep.meaning? (h : MaterialStep c d s)
    (hmake : level = 0 → ¬ MakesMaterial name d) :
    Engine.meaning? (execute c d s).state level name =
      Engine.meaning? s (levelBefore d level) name := by
  unfold Engine.meaning?
  cases h with
  | opened hd hg hs =>
      rw [materialTable, hg, hs, levelBefore, hd]
      cases level <;> rfl
  | closed hd hs =>
      rw [hs, levelBefore, hd]
      rfl
  | level hbegin hend hmake ht hs => rw [ht, hs, levelBefore_eq hbegin hend]
  | made hd r es hes hkind hname ht hs =>
      rw [ht, hs, levelBefore_eq (by rw [hd.1]; decide) (by rw [hd.1]; decide)]
      cases level with
      | succ level => rfl
      | zero =>
          have hne : name ≠ d.subject := by
            rintro rfl
            exact hmake rfl hd
          exact Table.get?_put_of_ne _ hne _

/-- As many graphics states are saved as there are open blocks of attributes. -/
theorem MaterialStep.saved_length (h : MaterialStep c d s) :
    levelBefore d (execute c d s).state.savedGraphics.length = s.savedGraphics.length := by
  cases h with
  | opened hd hg hs =>
      rw [hs, levelBefore, hd]
      rfl
  | closed hd hs =>
      rw [hs, levelBefore, hd]
      rfl
  | level hbegin hend hmake ht hs => rw [hs, levelBefore_eq hbegin hend]
  | made hd r es hes hkind hname ht hs =>
      rw [hs, levelBefore_eq (by rw [hd.1]; decide) (by rw [hd.1]; decide)]

theorem levelBefore_mono (d : Directive) {level level' : Nat} (h : level ≤ level') :
    levelBefore d level ≤ levelBefore d level' := by
  unfold levelBefore
  split <;> omega

/-- No more blocks of attributes are closed than are open. -/
theorem closedFrom_le {es : List (Event K)} {ds : List Directive} (hr : Reachable c s es)
    (hacc : (executeAll c ds s).rejection = none) (hworld : ∀ d ∈ ds, d.name ≠ .worldEnd) :
    closedFrom 0 ds ≤ s.savedGraphics.length := by
  induction ds generalizing s es with
  | nil => exact Nat.zero_le _
  | cons d ds ih =>
      obtain ⟨hd, hds⟩ := accepted_cons_iff.mp hacc
      obtain ⟨hone, hall⟩ := List.forall_mem_cons.mp hworld
      have hstep := materialStep_of_accepted (hr.invariant (consistent_invariant c)) hd hone
      rw [← hstep.saved_length]
      exact levelBefore_mono d (ih (hr.executed d) hds hall)

end Steps

/-! ## The latest material of a name -/

/-- No material of the name that the directives make is still there after `level` blocks of
attributes are closed behind them. -/
def IsUnmade (level : Nat) (name : String) (ds : List Directive) : Prop :=
  ∀ before m after, ds = before ++ m :: after → MakesMaterial name m → closedFrom level after ≠ 0

/-- Of the materials of the name that are still there, the one that `m` makes is the latest. -/
structure IsLatest (level : Nat) (name : String) (ds before : List Directive) (m : Directive)
    (after : List Directive) : Prop where
  row : ds = before ++ m :: after
  makes : MakesMaterial name m
  remains : closedFrom level after = 0
  final : IsUnmade level name after

section Rows

variable {level : Nat} {name : String} {d : Directive} {ds : List Directive}

theorem isUnmade_nil : IsUnmade level name [] := by
  intro before m after hrow
  simp at hrow

theorem IsUnmade.concat (h : IsUnmade (levelBefore d level) name ds)
    (hmake : level = 0 → ¬ MakesMaterial name d) : IsUnmade level name (ds ++ [d]) := by
  intro before m after hrow hm
  rcases List.eq_nil_or_concat after with rfl | ⟨rest, x, rfl⟩
  · obtain ⟨-, hlast⟩ := List.append_inj' hrow rfl
    cases hlast
    exact fun hlevel => hmake hlevel hm
  · rw [List.concat_eq_append, ← List.cons_append, ← List.append_assoc] at hrow
    obtain ⟨hds, hlast⟩ := List.append_inj' hrow rfl
    cases hlast
    rw [List.concat_eq_append, closedFrom_concat]
    exact h before m rest hds hm

theorem IsLatest.concat {before after : List Directive} {m : Directive}
    (h : IsLatest (levelBefore d level) name ds before m after)
    (hmake : level = 0 → ¬ MakesMaterial name d) :
    IsLatest level name (ds ++ [d]) before m (after ++ [d]) where
  row := by rw [h.row, List.append_assoc, List.cons_append]
  makes := h.makes
  remains := by rw [closedFrom_concat, h.remains]
  final := h.final.concat hmake

theorem isLatest_concat (hm : MakesMaterial name d) : IsLatest 0 name (ds ++ [d]) ds d [] :=
  ⟨rfl, hm, rfl, isUnmade_nil⟩

end Rows

section Runs

variable [Scalar K] {c : EngineContext} {dirs : DirectoryStack} {level : Nat} {name : String}
  {d : Directive} {ds : List Directive}

/-- A resource is the material of the name that a directive declares after the others, as the
last thing that it reports. -/
def IsMaterialOf (c : EngineContext) (dirs : DirectoryStack) (before : List Directive)
    (m : Directive) (name : String) (r : Resource K) : Prop :=
  r.kind = .material ∧ r.name = name ∧
    ∃ es, (execute c m (started c before dirs).state).events = es ++ [.declare r]

/-- What a name stands for is the latest material that is still there, if there is one. -/
def IsMeaning (K : Type) [Scalar K] (c : EngineContext) (dirs : DirectoryStack) (level : Nat)
    (name : String) (ds : List Directive) : Option ResourceId → Prop
  | none => IsUnmade level name ds
  | some id => ∃ before m after, ∃ r : Resource K, IsLatest level name ds before m after ∧
      IsMaterialOf c dirs before m name r ∧ r.id = id

theorem isMeaning_of_accepted (hacc : (started (K := K) c ds dirs).rejection = none)
    (hworld : ∀ d ∈ ds, d.name ≠ .worldEnd) :
    IsMeaning K c dirs level name ds (meaning? (started (K := K) c ds dirs).state level name) := by
  induction ds using List.reverseRecOn generalizing level with
  | nil =>
      have hnone : meaning? (started (K := K) c [] dirs).state level name = none := by
        cases level <;> rfl
      rw [hnone]
      exact isUnmade_nil
  | append_singleton ds d ih =>
      obtain ⟨hds, hd, hstate⟩ := accepted_of_started_concat hacc
      obtain ⟨hbefore, hone⟩ := List.forall_mem_append.mp hworld
      have hreachable : Reachable c (started (K := K) c ds dirs).state (started c ds dirs).events :=
        reachable_executeAll (Reachable.initial dirs).begun ds
      have hstep := materialStep_of_accepted (hreachable.invariant (consistent_invariant c)) hd
        (hone d List.mem_cons_self)
      rw [hstate]
      by_cases hmake : level = 0 ∧ MakesMaterial name d
      · obtain ⟨rfl, hmake⟩ := hmake
        obtain rfl := hmake.2.1
        cases hstep with
        | opened hn => exact absurd (hn.symm.trans hmake.1) (by decide)
        | closed hn => exact absurd (hn.symm.trans hmake.1) (by decide)
        | level _ _ hnot => exact (hnot hmake).elim
        | made _ r es hes hkind hname ht _ =>
            have hfound : meaning? (execute c d (started (K := K) c ds dirs).state).state 0
                d.subject = some r.id := by
              rw [meaning?, ht]
              exact Table.get?_put_self _ _ _
            rw [hfound]
            exact ⟨ds, d, [], r, isLatest_concat hmake, ⟨hkind, hname, es, hes⟩, rfl⟩
      · have hnot : level = 0 → ¬ MakesMaterial name d := fun hlevel hm => hmake ⟨hlevel, hm⟩
        have hbelow := @ih (levelBefore d level) hds hbefore
        rw [hstep.meaning? hnot]
        generalize meaning? (started (K := K) c ds dirs).state (levelBefore d level) name = found
          at hbelow ⊢
        cases found with
        | none => exact hbelow.concat hnot
        | some id =>
            obtain ⟨before, m, after, r, hlatest, hr⟩ := hbelow
            exact ⟨before, m, after ++ [d], r, hlatest.concat hnot, hr⟩

/-- What is made outside of all blocks of attributes is there until the end of the world. -/
theorem closedFrom_eq_zero {earlier later : List Directive} (hm : MakesMaterial name d)
    (hacc : (started (K := K) c (earlier ++ d :: later) dirs).rejection = none)
    (hworld : ∀ w ∈ earlier ++ d :: later, w.name ≠ .worldEnd)
    (hnone : (started (K := K) c earlier dirs).state.savedGraphics = []) :
    closedFrom 0 later = 0 := by
  have hall : (executeAll (K := K) c (earlier ++ d :: later)
      { EngineState.initial dirs with begun := true }).rejection = none := hacc
  have hle : closedFrom 0 (d :: later) ≤
      (started (K := K) c earlier dirs).state.savedGraphics.length :=
    closedFrom_le (reachable_executeAll (Reachable.initial dirs).begun earlier)
      (accepted_append_iff.mp hall).2 (List.forall_mem_append.mp hworld).2
  have hlevel : closedFrom 0 (d :: later) = closedFrom 0 later :=
    levelBefore_eq (by rw [hm.1]; decide) (by rw [hm.1]; decide) _
  rw [hlevel, hnone] at hle
  exact Nat.le_zero.mp hle

/-! ## The use of a material -/

/-- A name that stands for nothing is noted; any other one replaces the material. -/
theorem execute_namedMaterial {s : EngineState K} (hacc : (execute c d s).rejection = none)
    (hd : d.name = .namedMaterial) (hname : d.subject ≠ "" ∧ d.subject ≠ "none") :
    (execute c d s).state.graphics =
        (match meaning? s 0 d.subject with
          | some id => { s.graphics with material := some id }
          | none => s.graphics) ∧
      (execute c d s).notes =
        match meaning? s 0 d.subject with
        | some _ => []
        | none => [(Caution.undefinedMaterial d.subject).diagnostic (c.whereIs d).1
            (c.whereIs d).2] := by
  have hbound : ¬ Known.unboundMaterials.contains d.subject = true := by
    simp [Known.unboundMaterials, hname]
  have hmeaning : meaning? s 0 d.subject = s.graphics.namedMaterials.get? d.subject := rfl
  obtain ⟨hp, -⟩ := performed_of_accepted hacc
  rw [execute_eq, attempt_eq, hp, hmeaning]
  unfold perform
  rw [hd]
  unfold Progress.ofAction useNamedMaterial
  dsimp only
  rw [if_neg hbound, Action.run_state_bind]
  dsimp only
  cases s.graphics.namedMaterials.get? d.subject <;> exact ⟨rfl, rfl⟩

/-- Where a named material is used, the material becomes the latest one of the name that was
made in a block of attributes that is still open, or outside of all of them.  If there is none,
this is noted and the material stays as it was. -/
theorem namedMaterial_of_accepted {before : List Directive}
    (hacc : (started (K := K) c (before ++ [d]) dirs).rejection = none)
    (hd : d.name = .namedMaterial) (hname : d.subject ≠ "" ∧ d.subject ≠ "none") :
    let s := (started (K := K) c before dirs).state
    let used := execute c d s
    (∀ earlier m later, before = earlier ++ m :: later → MakesMaterial d.subject m →
      closedFrom 0 later = 0 ∨ (started (K := K) c earlier dirs).state.savedGraphics = [] →
      ∃ earlier m later, ∃ r : Resource K, IsLatest 0 d.subject before earlier m later ∧
        IsMaterialOf c dirs earlier m d.subject r ∧
        used.state.graphics = { s.graphics with material := some r.id } ∧ used.notes = []) ∧
    (IsUnmade 0 d.subject before → used.state.graphics = s.graphics ∧ used.notes =
      [(Caution.undefinedMaterial d.subject).diagnostic (c.whereIs d).1 (c.whereIs d).2]) := by
  intro s used
  have hall : (executeAll (K := K) c (before ++ [d])
      { EngineState.initial dirs with begun := true }).rejection = none := hacc
  have hworld : ∀ w ∈ before, w.name ≠ .worldEnd :=
    ne_worldEnd_of_accepted hall (by rw [hd]; rfl)
  obtain ⟨hbefore, hexec, -⟩ := accepted_of_started_concat hacc
  obtain ⟨hgraphics, hnotes⟩ := execute_namedMaterial hexec hd hname
  have hmeaning : IsMeaning K c dirs 0 d.subject before (meaning? s 0 d.subject) :=
    isMeaning_of_accepted hbefore hworld
  cases hfound : meaning? s 0 d.subject with
  | none =>
      rw [hfound] at hmeaning hgraphics hnotes
      refine ⟨fun earlier m later hrow hm hopen => ?_, fun _ => ⟨hgraphics, hnotes⟩⟩
      refine (hmeaning earlier m later hrow hm ?_).elim
      rcases hopen with hopen | hnone
      · exact hopen
      · subst hrow
        exact closedFrom_eq_zero hm hbefore hworld hnone
  | some id =>
      rw [hfound] at hmeaning hgraphics hnotes
      obtain ⟨earlier, m, later, r, hlatest, hr, rfl⟩ := hmeaning
      refine ⟨fun _ _ _ _ _ _ => ⟨earlier, m, later, r, hlatest, hr, hgraphics, hnotes⟩,
        fun hunmade => ?_⟩
      exact (hunmade earlier m later hlatest.row hlatest.makes hlatest.remains).elim

end Runs

/-! ## A name that is made again inside of a block -/

/-- A material of a type for later use. -/
def makeNamed (name type : String) : Directive :=
  ⟨.makeNamedMaterial, [.text name], .mk [⟨"string", "type", .strings ⟨type, []⟩⟩], none⟩

/-- The name is made again in a block of attributes, inside of a block of transforms. -/
def madeInside : List Directive :=
  [bare .worldBegin, makeNamed "m" "matte", bare .attributeBegin, bare .transformBegin,
   makeNamed "m" "plastic", bare .transformEnd, bare .attributeEnd]

/-- The use of the name. -/
def useNamed : Directive := ⟨.namedMaterial, [.text "m"], .empty, none⟩

/-- Behind the blocks the name stands for the material that was made before them. -/
theorem namedMaterial_of_accepted_madeInside :
    ∃ r : Resource Float, IsMaterialOf ⟨.rooted [], [], none⟩ .empty [bare .worldBegin]
        (makeNamed "m" "matte") "m" r ∧
      (execute (K := Float) ⟨.rooted [], [], none⟩ useNamed
        (started ⟨.rooted [], [], none⟩ madeInside .empty).state).state.graphics.material =
          some r.id := by
  have hmatte : MakesMaterial "m" (makeNamed "m" "matte") :=
    ⟨rfl, rfl, "matte", by decide +kernel, by decide +kernel⟩
  have hacc : (started (K := Float) ⟨.rooted [], [], none⟩ (madeInside ++ [useNamed])
      .empty).rejection = none := by decide +kernel
  obtain ⟨hused, -⟩ := namedMaterial_of_accepted hacc rfl (by decide)
  obtain ⟨earlier, m, later, r, hlatest, hr, hgraphics, -⟩ :=
    hused [bare .worldBegin] (makeNamed "m" "matte") _ rfl hmatte (Or.inl rfl)
  refine ⟨r, ?_, by rw [hgraphics]⟩
  -- the only material of the name that is still there is the first one
  obtain ⟨hrow, hmakes, hremains, -⟩ := hlatest
  rcases earlier with _ | ⟨_, _ | ⟨_, _ | ⟨_, _ | ⟨_, _ | ⟨_, _ | ⟨_, _ | ⟨_, earlier⟩⟩⟩⟩⟩⟩⟩
  · cases hrow
    exact absurd hmakes.1 (by decide)
  · cases hrow
    exact hr
  · cases hrow
    exact absurd hmakes.1 (by decide)
  · cases hrow
    exact absurd hmakes.1 (by decide)
  · cases hrow
    exact absurd hremains (by decide)
  · cases hrow
    exact absurd hmakes.1 (by decide)
  · cases hrow
    exact absurd hmakes.1 (by decide)
  · simp [madeInside] at hrow

end Engine
end SceneReader
