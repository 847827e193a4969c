import SceneReader.Proofs.Directive.WrittenParameters
import SceneReader.Proofs.Engine.Declared
import SceneReader.Proofs.Engine.Restoration
import SceneReader.Proofs.Param.Names

/-!
# The names in declared shapes

A shape is declared with the parameters of its directive.  The shape of a mesh file gets the
full path of the file in addition, and the levels of subdivision get the name that they go by.
The latter takes the name as it stands, so a subdivision that has its levels under both names
is declared with two parameters of one name.

**Results.**
* `params_of_declare`: the parameters that a shape is declared with.
* `isKeyed_params_iff`: the shapes that are declared with names that are apart.
* `isKeyed_changes_shapes`: names are kept apart, in rows of changes and in shapes, exactly where
  each new name is one that the parameter can have.
-/

namespace SceneReader
namespace Engine

variable {K : Type}

/-! ## What is declared -/

/-- All resources that the action declares satisfy a condition. -/
def Declares {α : Type} (P : Resource K → Prop) (a : Action K α) : Prop :=
  ∀ s r, .declare r ∈ (a.run s).events → P r

namespace Declares

variable {α β : Type} {P : Resource K → Prop}

theorem silent {a : Action K α} (h : ∀ s, (a.run s).events = []) : Declares P a := by
  intro s r hr
  rw [h s] at hr
  cases hr

theorem bind {x : Action K α} {f : α → Action K β} (hx : Declares P x)
    (hf : ∀ a, Declares P (f a)) : Declares P (x >>= f) := by
  intro s r hr
  rw [Action.run_bind] at hr
  exact (List.mem_append.mp hr).elim (hx s r) (hf _ _ r)

theorem state_bind {f : EngineState K → Action K β} (hf : ∀ s, Declares P (f s)) :
    Declares P (Action.state >>= f) := fun s => hf s s

theorem warn (c : EngineContext) (d : Directive) (w : Caution) :
    Declares P (Engine.warn (K := K) c d w) := silent fun _ => rfl

theorem emit {e : Event K} (h : ∀ r, .declare r = e → P r) : Declares P (Action.emit e) :=
  fun _ r hr => h r (List.mem_singleton.mp hr)

end Declares

/-! ## Shapes -/

/-- What a directive of a shape declares: a shape with the parameters of the directive and, for
a mesh, the path of its file, or the levels of subdivision under their own name. -/
structure IsShapeOf (d : Directive) (r : Resource K) : Prop where
  kind : r.kind = .shape
  mesh : d.subject = "plymesh" →
    ∃ path, r.params = d.params.set ⟨"string", "fullpath", .ofString path⟩
  levels : d.subject = "loopsubdiv" → r.params = (d.params.rename "levels" "nlevels").2
  plain : d.subject ≠ "plymesh" → d.subject ≠ "loopsubdiv" → r.params = d.params

section Shapes

variable {c : EngineContext} {d : Directive}

theorem declares_meshShape (hd : d.subject = "plymesh") :
    Declares (IsShapeOf d) (meshShape (K := K) c d) := by
  unfold meshShape
  split
  · exact Declares.bind (.warn c d _) fun _ => .silent fun _ => rfl
  · refine Declares.bind (.silent fun s => (findFile_run c d _ s).2) fun found => ?_
    split
    · exact .silent fun _ => rfl
    · refine .state_bind fun s => ?_
      split
      · exact .silent fun _ => rfl
      · refine Declares.bind (.silent fun _ => rfl) fun id => ?_
        refine Declares.bind (.silent fun _ => rfl) fun _ => ?_
        refine Declares.bind (.emit ?_) fun _ => .silent fun _ => rfl
        rintro r ⟨⟩
        exact ⟨rfl, fun _ => ⟨_, rfl⟩, fun h => absurd (hd.symm.trans h) (by decide),
          fun h => absurd hd h⟩

theorem declares_plainShape (hd : d.subject ≠ "plymesh") (name : String) :
    Declares (IsShapeOf d) (plainShape (K := K) d.subject name d.params) := by
  refine Declares.bind (.silent fun _ => rfl) fun id => ?_
  refine Declares.bind (.emit ?_) fun _ => .silent fun _ => rfl
  rintro r ⟨⟩
  exact ⟨rfl, fun h => absurd h hd, fun h => if_pos h, fun _ h => if_neg h⟩

variable [Scalar K]

theorem declares_stateShape {P : Resource K → Prop} (r : Resource K) :
    Declares P (stateShape c d r) := by
  have hadd (st : ShapeStatement K) : Declares P (addStatement st) := by
    refine .state_bind fun s => ?_
    split
    · exact .silent fun _ => rfl
    · exact .emit nofun
  refine .state_bind fun s => Declares.bind (.silent fun _ => rfl) fun _ => ?_
  split
  · exact Declares.bind (.warn c d _) fun _ => hadd _
  · exact hadd _

theorem declares_makeShape : Declares (IsShapeOf d) (makeShape (K := K) c d) := by
  have hstated {a : Action K (Option (Resource K))} {f : Option (Resource K) → Action K Unit}
      (ha : Declares (IsShapeOf d) a) (hnone : Declares (IsShapeOf d) (f none))
      (hsome : ∀ r, Declares (IsShapeOf d) (f (some r))) :
      Declares (IsShapeOf d) (a >>= f) := by
    refine ha.bind fun made => ?_
    cases made with
    | none => exact hnone
    | some r => exact hsome r
  unfold makeShape
  dsimp only
  split
  · exact .warn c d _
  · split
    · rename_i hd
      exact hstated (declares_meshShape hd) (.silent fun _ => rfl) declares_stateShape
    · rename_i hd
      exact hstated (declares_plainShape hd _) (.silent fun _ => rfl) declares_stateShape

/-- The directive of a shape declares nothing but this shape, in whatever state it is
executed. -/
theorem isShapeOf_of_declare {s : EngineState K} {r : Resource K} (hd : d.name = .shape)
    (h : .declare r ∈ (execute c d s).events) : IsShapeOf d r := by
  rw [execute_eq] at h
  rcases List.mem_append.mp h with h | h
  · split at h
    · cases h
    · cases List.mem_singleton.mp h
  · rw [attempt_eq] at h
    cases hp : permit c { s with begun := true } d with
    | error f =>
        rw [hp] at h
        cases h
    | ok u =>
        rw [hp] at h
        have hperform : perform (K := K) c d = makeShape c d := by rw [perform, hd]
        refine declares_makeShape (c := c) { s with begun := true } r ?_
        rw [← hperform]
        exact h

/-! ## Names of their parameters -/

/-- A subdivision has its levels under both of their names. -/
def NamesLevelsTwice (d : Directive) : Prop :=
  d.subject = "loopsubdiv" ∧ "levels" ∈ d.params.names ∧ "nlevels" ∈ d.params.names

omit [Scalar K] in
/-- A shape of a parsed directive is declared with names that are apart, except for a
subdivision with its levels under both of their names. -/
theorem IsShapeOf.isKeyed_params_iff {r : Resource K} (h : IsShapeOf d r) (hparsed : d.Parsed) :
    r.params.IsKeyed ↔ ¬ NamesLevelsTwice d := by
  obtain ⟨hnames, htypes⟩ := hparsed.wellDeclared.1.wellNamed
  by_cases hmesh : d.subject = "plymesh"
  · obtain ⟨path, hparams⟩ := h.mesh hmesh
    have hnot : ¬ NamesLevelsTwice d := fun hd => absurd (hmesh.symm.trans hd.1) (by decide)
    have htype : Text.IsSolid "string" := by decide
    have hname : Text.IsWord "fullpath" := by decide
    rw [hparams]
    exact ⟨fun _ => hnot, fun _ => (hnames.set hname).isKeyed (htypes.set htype)⟩
  · by_cases hlevels : d.subject = "loopsubdiv"
    · have hsubject : NamesLevelsTwice d ↔
          "levels" ∈ d.params.names ∧ "nlevels" ∈ d.params.names := and_iff_right hlevels
      have htypes' : (d.params.rename "levels" "nlevels").2.WellTyped :=
        htypes.changed (.rename "levels" "nlevels")
      rw [h.levels hlevels, hsubject, ParamMap.isKeyed_iff htypes',
        ParamMap.wellNamed_rename_iff hnames,
        ParamMap.takes_iff (by decide) (by decide) (by decide)]
    · rw [h.plain hmesh hlevels]
      exact ⟨fun _ hd => hlevels hd.1, fun _ => hnames.isKeyed htypes⟩

/-- Names are apart all along a row of changes exactly if each new name that is given is a
word that no other parameter has.  A shape is declared with names that are apart exactly if its
directive is no subdivision with its levels under both of their names. -/
theorem isKeyed_changes_shapes :
    (∀ (es : List (String × Property)) (m : ParamMap), ParamMap.ofEntries es = .ok m →
      ∀ changes : List ParamMap.Change,
        (∀ before, before <+: changes → (m.changedAll before).IsKeyed) ↔
          ∀ before key new, before ++ [.rename key new] <+: changes →
            (m.changedAll before).Takes key new) ∧
    ∀ (c : EngineContext) (d : Directive) (s : EngineState K) (r : Resource K),
      d.Parsed → d.name = .shape → .declare r ∈ (execute c d s).events →
        r.kind = .shape ∧ (r.params.IsKeyed ↔ ¬ NamesLevelsTwice d) :=
  ⟨fun _ _ h changes => ParamMap.isKeyed_changedAll_iff h changes, fun _ _ _ _ hparsed hd h =>
    ⟨(isShapeOf_of_declare hd h).kind, (isShapeOf_of_declare hd h).isKeyed_params_iff hparsed⟩⟩

end Shapes

/-! ## A subdivision with its levels under both names -/

/-- A resource that is read off among events is declared by one of them. -/
theorem exists_declare {α : Type} {es : List (Event K)} {f : Resource K → α} {a : α}
    (h : some a ∈ es.map fun e => e.declared?.map f) : ∃ r, .declare r ∈ es ∧ f r = a := by
  obtain ⟨e, he, hsome⟩ := List.mem_map.mp h
  obtain ⟨r, hr, rfl⟩ := Option.map_eq_some_iff.mp hsome
  cases e with
  | declare r' =>
      cases hr
      exact ⟨r, he, rfl⟩
  | _ => cases hr

/-- A directive of a shape without parameters. -/
def plainSphere : Directive := ⟨.shape, [.text "sphere"], .empty, some .unknown⟩

theorem parsed_plainSphere : plainSphere.Parsed := by
  refine ⟨⟨none, false⟩, [⟨.identifier, "Shape", .unknown⟩, ⟨.string "sphere", "", .unknown⟩],
    .mk 0 0 0, [], congrArg Reported.result (?_ : _ = pure _)⟩
  change Parser.parameters _ _ _ [] >>= _ = _
  rw [Parser.parameters]
  rfl

/-- Levels that get another name, which is then given another type. -/
def levelChanges : List ParamMap.Change :=
  [.rename "levels" "nlevels", .insert "float nlevels" (.floats ⟨2.0, []⟩), .remove "levels"]

/-- The new name is free, so it is one that the levels can have. -/
theorem isKeyed_changes_shapes_levels :
    ∃ m, ParamMap.ofEntries [("integer levels", .ints ⟨3, []⟩), ("bool flat", .bools ⟨true, []⟩)] =
        .ok m ∧
      (∀ before, before <+: levelChanges → (m.changedAll before).IsKeyed) ∧
      ∃ r, .declare r ∈ (execute ⟨.rooted [], [], none⟩ plainSphere worldStart).events ∧
        r.params.IsKeyed := by
  have hentries : ParamMap.ofEntries
      [("integer levels", .ints ⟨3, []⟩), ("bool flat", .bools ⟨true, []⟩)] =
      .ok ⟨[⟨"integer", "levels", .ints ⟨3, []⟩⟩, ⟨"bool", "flat", .bools ⟨true, []⟩⟩]⟩ := by
    have hlevels : splitKey "integer levels" = .ok ("integer", "levels") := by
      have hkey : makeKey "integer" "levels" = "integer levels" := by decide +kernel
      rw [← hkey]
      exact splitKey_makeKey (by decide) (by decide)
    have hflat : splitKey "bool flat" = .ok ("bool", "flat") := by
      have hkey : makeKey "bool" "flat" = "bool flat" := by decide +kernel
      rw [← hkey]
      exact splitKey_makeKey (by decide) (by decide)
    simp only [ParamMap.ofEntries, List.foldlM_cons, ParamMap.insert, hlevels, hflat]
    rfl
  obtain ⟨hchanges, hshapes⟩ := isKeyed_changes_shapes (K := Float)
  refine ⟨_, hentries, (hchanges _ _ hentries levelChanges).mpr ?_, ?_⟩
  · rintro before key new ⟨after, hrow⟩
    rcases before with _ | ⟨_, _ | ⟨_, _ | ⟨_, before⟩⟩⟩
    · cases hrow
      exact (ParamMap.takes_iff (by decide) (by decide) (by decide)).mpr (by decide)
    · cases hrow
    · cases hrow
    · simp [levelChanges] at hrow
  · have hkinds : (execute (K := Float) ⟨.rooted [], [], none⟩ plainSphere worldStart).events.map
        (fun e => e.declared?.map (·.kind)) = [some .shape, none] := by decide +kernel
    obtain ⟨r, hr⟩ := exists_declare (hkinds ▸ List.mem_cons_self)
    exact ⟨r, hr.1, (hshapes _ _ _ _ parsed_plainSphere rfl hr.1).2.mpr
      fun h => absurd h.1 (by decide)⟩

/-- A subdivision with its levels under both of their names. -/
def twoLevels : Directive :=
  ⟨.shape, [.text "loopsubdiv"],
    ⟨[⟨"integer", "levels", .ints ⟨3, []⟩⟩, ⟨"integer", "nlevels", .ints ⟨4, []⟩⟩]⟩,
    some .unknown⟩

theorem parsed_twoLevels : twoLevels.Parsed := by
  have hlevels : Parser.declaration? "integer levels" = some ("integer", "levels") := by
    decide +kernel
  have hnlevels : Parser.declaration? "integer nlevels" = some ("integer", "nlevels") := by
    decide +kernel
  have hbuild {ctx : Parser.Context} {key lexeme : String} {x : Float} {i : Int}
      (h : Number.integer? x = some i) :
      buildProperty (Parser.misfit ctx key) "integer" ⟨⟨.number x, lexeme, .unknown⟩, []⟩ =
        pure (.ints ⟨i, []⟩) :=
    Parser.buildProperty_eq_pure_iff.mpr ⟨rfl, .cons h .nil⟩
  have hthree : Number.integer? 3.0 = some 3 := by decide +kernel
  have hfour : Number.integer? 4.0 = some 4 := by decide +kernel
  have hnew : "nlevels" ∉
      (ParamMap.empty.set ⟨"integer", "levels", .ints ⟨3, []⟩⟩).names := by decide
  refine ⟨⟨none, false⟩, [⟨.identifier, "Shape", .unknown⟩, ⟨.string "loopsubdiv", "", .unknown⟩,
   ⟨.string "integer levels", "", .unknown⟩, ⟨.number 3.0, "3", .unknown⟩,
   ⟨.string "integer nlevels", "", .unknown⟩, ⟨.number 4.0, "4", .unknown⟩],
    .mk 0 0 0, [], congrArg Reported.result (?_ : _ = pure _)⟩
  change Parser.parameters _ _ _ (_ :: _) >>= _ = _
  rw [Parser.parameters_cons rfl hlevels List.not_mem_nil rfl, hbuild hthree, pure_bind]
  change Parser.parameters _ _ _ (_ :: _) >>= _ = _
  rw [Parser.parameters_cons rfl hnlevels hnew rfl, hbuild hfour, pure_bind]
  change Parser.parameters _ _ _ [] >>= _ = _
  rw [Parser.parameters]
  rfl

/-- Its shape is declared with two parameters of one name. -/
theorem not_isKeyed_twoLevels :
    twoLevels.Parsed ∧ ∃ r, .declare r ∈ (run (K := Float) ⟨.rooted [], [], none⟩
        [bare .worldBegin, twoLevels] (.initial .empty)).events ∧ r.kind = .shape ∧
      r.params.names = ["nlevels", "nlevels"] ∧ ¬ r.params.IsKeyed := by
  refine ⟨parsed_twoLevels, ?_⟩
  have hdeclared : (some (.shape, ["nlevels", "nlevels"]) : Option (ResourceKind × List String)) ∈
      (run (K := Float) ⟨.rooted [], [], none⟩ [bare .worldBegin, twoLevels]
        (.initial .empty)).events.map
        fun e => e.declared?.map fun r => (r.kind, r.params.names) := by decide +kernel
  obtain ⟨r, hr, hsame⟩ := exists_declare hdeclared
  obtain ⟨hkind, hnames⟩ := Prod.mk.inj hsame
  refine ⟨r, hr, hkind, hnames, fun h => ?_⟩
  have hdistinct := h.distinct
  rw [hnames] at hdistinct
  exact absurd hdistinct (by decide)

end Engine
end SceneReader
