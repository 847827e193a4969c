import Mathlib.Data.List.Pairwise
import SceneReader.Proofs.Engine.NamedFiles
import SceneReader.Proofs.Param.Names

/-!
# One resource for each file

A file goes by many names: relative to different directories, and in different parameters.  What
counts is the place where it is found.  So all meshes of one file are one shape, and a file that
parameters name is declared for the first of them.  A parameter with the full path of a file is
added only when the file has been declared.

**Results.**
* `registered_of_foldlM`: the parameters that are added for files.
* `mesh_of_execute`: the shape that a directive of a mesh states.
* `files_declared_once`: the files of a run.
-/

namespace SceneReader
namespace Engine

variable {K : Type} [Scalar K] {c : EngineContext} {d : Directive} {s : EngineState K}
  {es : List (Event K)}

/-! ## Parameters with full paths -/

/-- The file that a parameter names, where it is found. -/
def registeredFile? (c : EngineContext) (dirs : DirectoryStack) (exempt : List String)
    (p : Param) : Option String :=
  (namedFile? exempt p).bind fun name =>
    (dirs.find? c.files (Path.ofText name)).map Location.text

/-- The parameter that is added for a file. -/
def fullPath (p : Param) (path : String) : Param :=
  ⟨"string", p.name ++ "_fullpath", .ofString path⟩

/-- The parameter is the full path of a file that one of the parameters names, and the file was
declared among the events. -/
def IsFullPath (c : EngineContext) (dirs : DirectoryStack) (exempt : List String)
    (ps : List Param) (es : List (Event K)) (e : Param) : Prop :=
  ∃ p ∈ ps, ∃ path, registeredFile? c dirs exempt p = some path ∧ e = fullPath p path ∧
    ∃ r ∈ declaredIn es, r.StandsFor path

theorem mem_declareFile (parameter path : String) (s : EngineState K) :
    path ∈ ((declareFile parameter path).run s).state.declaredFiles := by
  unfold declareFile
  rw [Action.run_state_bind]
  split
  · rename_i hold
    exact List.contains_iff_mem.mp hold
  · exact List.mem_cons_self

omit [Scalar K] in
theorem findFile_found {name : String} {l : Location}
    (h : s.dirs.find? c.files (Path.ofText name) = some l) :
    (findFile c d name).run s = ⟨some (Location.text l), s, [], []⟩ := by
  unfold findFile
  rw [Action.run_state_bind, h]
  rfl

omit [Scalar K] in
theorem findFile_missing {name : String}
    (h : s.dirs.find? c.files (Path.ofText name) = none) :
    ((findFile c d name).run s).value = none := by
  rw [value_findFile, h]
  rfl

/-- A parameter that names no file adds nothing. -/
theorem registerFile_none {exempt : List String} {p : Param} (m : ParamMap)
    (h : registeredFile? c s.dirs exempt p = none) :
    ((registerFile c d exempt m p).run s).value = m := by
  unfold registerFile
  cases hname : namedFile? exempt p with
  | none => rfl
  | some name =>
      have hmissing : s.dirs.find? c.files (Path.ofText name) = none := by
        simpa [registeredFile?, hname] using h
      dsimp only
      rw [Action.run_bind, findFile_missing hmissing]
      rfl

/-- A parameter that names a file adds its full path, when the file has been declared. -/
theorem registerFile_some {exempt : List String} {p : Param} {path : String} (m : ParamMap)
    (h : registeredFile? c s.dirs exempt p = some path) :
    (registerFile c d exempt m p).run s =
      let a := (declareFile p.name path).run s
      ⟨m.set (fullPath p path), a.state, a.events, a.notes⟩ := by
  obtain ⟨name, hname, hfile⟩ := Option.bind_eq_some_iff.mp h
  obtain ⟨l, hl, rfl⟩ := Option.map_eq_some_iff.mp hfile
  unfold registerFile
  rw [hname]
  dsimp only
  rw [Action.run_bind, findFile_found hl]
  simp only [Action.run_bind, Action.run_pure, List.nil_append, List.append_nil, fullPath]

omit [Scalar K] in
theorem Recorded.dirs_eq {s' : EngineState K} (h : Recorded s s' es) : s'.dirs = s.dirs := by
  obtain ⟨⟩ := h
  rfl

/-- Parameters with those that are added for the files that some of them name. -/
structure Registered (c : EngineContext) (dirs : DirectoryStack) (exempt : List String)
    (ps : List Param) (es : List (Event K)) (before after : ParamMap) : Prop where
  /-- What is added is the full path of a file that was declared. -/
  added : ∀ e ∈ after.entries, e ∈ before.entries ∨ IsFullPath c dirs exempt ps es e
  /-- For each file that is found a full path is added. -/
  complete : ∀ p ∈ ps, (registeredFile? c dirs exempt p).isSome →
    p.name ++ "_fullpath" ∈ after.names
  kept : before.names ⊆ after.names

theorem IsFullPath.mono {dirs : DirectoryStack} {exempt : List String} {ps ps' : List Param}
    {es' : List (Event K)} {e : Param} (h : IsFullPath c dirs exempt ps es e) (hps : ps ⊆ ps')
    (hes : es <+: es') : IsFullPath c dirs exempt ps' es' e := by
  obtain ⟨p, hp, path, hpath, he, r, hr, hstands⟩ := h
  refine ⟨p, hps hp, path, hpath, he, r, ?_, hstands⟩
  rw [mem_declaredIn] at hr ⊢
  exact hes.subset hr

namespace Registered

variable {dirs : DirectoryStack} {exempt : List String} {ps ps' : List Param}
  {es' : List (Event K)} {m m₁ m₂ : ParamMap}

theorem trans (h : Registered c dirs exempt ps es m m₁)
    (h' : Registered c dirs exempt ps' es' m₁ m₂) (hes : es <+: es') :
    Registered c dirs exempt (ps ++ ps') es' m m₂ := by
  refine ⟨fun e he => ?_, fun p hp hfound => ?_, List.Subset.trans h.kept h'.kept⟩
  · rcases h'.added e he with he | he
    · exact (h.added e he).imp_right fun he => he.mono (List.subset_append_left _ _) hes
    · exact Or.inr (he.mono (List.subset_append_right _ _) (List.prefix_refl _))
  · rcases List.mem_append.mp hp with hp | hp
    · exact h'.kept (h.complete p hp hfound)
    · exact h'.complete p hp hfound

/-- One parameter. -/
theorem of_registerFile (h : FilesKnown s es) (exempt : List String) (m : ParamMap) (p : Param) :
    Registered c s.dirs exempt [p] (es ++ ((registerFile c d exempt m p).run s).events) m
      ((registerFile c d exempt m p).run s).value := by
  have hknown := tracks_registerFile c d exempt m p s es h
  cases hfile : registeredFile? c s.dirs exempt p with
  | none =>
      rw [registerFile_none m hfile]
      refine ⟨fun e he => Or.inl he, fun p' hp' hfound => ?_, List.Subset.refl _⟩
      rw [List.mem_singleton.mp hp', hfile] at hfound
      cases hfound
  | some path =>
      rw [registerFile_some m hfile] at hknown ⊢
      have hdeclared := hknown.exists_standsFor (mem_declareFile p.name path s)
      refine ⟨fun e he => ?_, fun p' hp' _ => ?_, fun name hname => ?_⟩
      · rcases ParamMap.mem_setIn he with rfl | he
        · exact Or.inr ⟨p, List.mem_cons_self, path, hfile, rfl, hdeclared⟩
        · exact Or.inl he
      · rw [List.mem_singleton.mp hp']
        exact ParamMap.mem_names_set m (fullPath p path)
      · by_cases hnew : (fullPath p path).name ∈ m.names
        · rwa [ParamMap.names_set_of_mem hnew]
        · rw [ParamMap.names_set_of_not_mem hnew]
          exact List.mem_append_left _ hname

end Registered

/-- A row of parameters, each with the file that it names. -/
theorem registered_of_foldlM (exempt : List String) (ps : List Param) (m : ParamMap)
    (h : FilesKnown s es) :
    Registered c s.dirs exempt ps
      (es ++ ((ps.foldlM (registerFile c d exempt) m).run s).events) m
      ((ps.foldlM (registerFile c d exempt) m).run s).value := by
  induction ps generalizing m s es with
  | nil => exact ⟨fun e he => Or.inl he, nofun, List.Subset.refl _⟩
  | cons p ps ih =>
      have hfirst := Registered.of_registerFile (c := c) (d := d) h exempt m p
      have hrest := ih ((registerFile c d exempt m p).run s).value
        (tracks_registerFile c d exempt m p s es h)
      rw [(records_registerFile c d exempt m p s).dirs_eq] at hrest
      rw [List.foldlM_cons, Action.run_bind, ← List.append_assoc]
      exact hfirst.trans hrest (List.prefix_append _ _)

/-! ## Meshes -/

/-- The file of a mesh, where it is found. -/
def meshFile? (c : EngineContext) (dirs : DirectoryStack) (d : Directive) : Option String :=
  (d.params.strings "filename").head?.bind fun name =>
    (dirs.find? c.files (Path.ofText name)).map Location.text

omit [Scalar K] in
theorem meshShape_none (h : meshFile? c s.dirs d = none) :
    ((meshShape c d).run s).value = none := by
  have hsome := isSome_value_meshShape c d s
  rw [← Option.not_isSome_iff_eq_none, hsome]
  cases hname : (d.params.strings "filename").head? with
  | none => exact Bool.false_ne_true
  | some name =>
      have hmissing : s.dirs.find? c.files (Path.ofText name) = none := by
        simpa [meshFile?, hname] using h
      simp [hmissing]

/-- The shape of a mesh is the one that was declared for its file. -/
theorem meshShape_some (hknown : FilesKnown s es) {path : String}
    (h : meshFile? c s.dirs d = some path) :
    ∃ r, ((meshShape c d).run s).value = some r ∧
      r ∈ declaredIn (es ++ ((meshShape c d).run s).events) ∧ r.IsMesh ∧
      r.detail.file? = some path := by
  obtain ⟨name, hname, hfile⟩ := Option.bind_eq_some_iff.mp h
  obtain ⟨l, hl, rfl⟩ := Option.map_eq_some_iff.mp hfile
  unfold meshShape
  rw [hname]
  dsimp only
  rw [Action.run_bind, findFile_found hl]
  dsimp only
  rw [Action.run_state_bind]
  cases hmesh : s.meshes.get? (Location.text l) with
  | some r =>
      obtain ⟨hdeclared, hmesh⟩ := hknown.mesh_of_get? hmesh
      refine ⟨r, rfl, ?_, hmesh⟩
      rw [declaredIn_append]
      exact List.mem_append_left _ hdeclared
  | none =>
      dsimp only
      rw [run_fresh_bind, Action.run_change_bind, run_declare_bind]
      refine ⟨_, rfl, mem_declaredIn.mpr ?_, ⟨rfl, rfl⟩, rfl⟩
      simp

theorem statementsOf_addStatement (st : ShapeStatement K) :
    ∃ st', st'.shape = st.shape ∧
      statementsOf ((addStatement st).run s).events ((addStatement st).run s).state =
        s.openStatements ++ [st'] := by
  unfold addStatement statementsOf EngineState.openStatements
  rw [Action.run_state_bind]
  cases ho : s.openObject with
  | some o => exact ⟨{ st with transform := st.transform.relativeTo (objectBase s) }, rfl, rfl⟩
  | none =>
      refine ⟨st, rfl, ?_⟩
      simp [Event.statements, ho]

/-- A shape is stated once. -/
theorem statementsOf_stateShape (r : Resource K) :
    ∃ st, st.shape = r ∧
      statementsOf ((stateShape c d r).run s).events ((stateShape c d r).run s).state =
        s.openStatements ++ [st] := by
  unfold stateShape
  rw [Action.run_state_bind]
  dsimp only
  rw [Action.run_change_bind]
  split
  · exact statementsOf_addStatement { statementOf s r d.span with areaLight := none }
  · exact statementsOf_addStatement (statementOf s r d.span)

/-- A mesh is made and then stated. -/
theorem makeShape_eq (hmesh : d.subject = "plymesh") :
    makeShape (K := K) c d = (do
      let made ← meshShape c d
      match made with
      | none => return
      | some r => stateShape c d r) := by
  obtain ⟨name, hname⟩ : ∃ name, Known.shapeName? "plymesh" = some name :=
    Option.isSome_iff_exists.mp (by decide)
  unfold makeShape
  dsimp only
  rw [hmesh, hname]
  rfl

/-- What a directive of a mesh does in a state whose files are known. -/
theorem makeShape_mesh (hknown : FilesKnown s es) (hmesh : d.subject = "plymesh") :
    match meshFile? c s.dirs d with
    | none => statementsOf ((makeShape c d).run s).events ((makeShape c d).run s).state =
        s.openStatements
    | some path => ∃ st,
        statementsOf ((makeShape c d).run s).events ((makeShape c d).run s).state =
          s.openStatements ++ [st] ∧
        st.shape ∈ declaredIn (es ++ ((makeShape c d).run s).events) ∧ st.shape.IsMesh ∧
        st.shape.detail.file? = some path := by
  have hrecorded := records_meshShape c d s
  have hopen := openStatements_of_recorded hrecorded
  rw [makeShape_eq hmesh, Action.run_bind]
  dsimp only
  rw [statementsOf_recorded hrecorded]
  cases hfile : meshFile? c s.dirs d with
  | none =>
      rw [meshShape_none hfile]
      exact hopen
  | some path =>
      obtain ⟨r, hvalue, hdeclared, hr⟩ := meshShape_some hknown hfile
      obtain ⟨st, rfl, hst⟩ := statementsOf_stateShape (c := c) (d := d)
        (s := ((meshShape c d).run s).state) r
      rw [hvalue]
      refine ⟨st, hst.trans (by rw [hopen]), ?_, hr⟩
      rw [← List.append_assoc, declaredIn_append]
      exact List.mem_append_left _ hdeclared

/-- The directive of a mesh states the shape that was declared for its file, if the file is found,
and otherwise nothing. -/
theorem mesh_of_execute (h : Reachable c s es) (haccepted : (execute c d s).rejection = none)
    (hd : d.name = .shape) (hmesh : d.subject = "plymesh") :
    match meshFile? c s.dirs d with
    | none => statementsOf (execute c d s).events (execute c d s).state = s.openStatements
    | some path => ∃ st,
        statementsOf (execute c d s).events (execute c d s).state = s.openStatements ++ [st] ∧
        st.shape ∈ declaredIn (es ++ (execute c d s).events) ∧ st.shape.IsMesh ∧
        st.shape.detail.file? = some path := by
  obtain ⟨hbegun, hbegin⟩ := begin_run c s
  have hknown := filesKnown_of_reachable h.begun
  have hsilent : ((begin c).run s).events.flatMap Event.statements = [] := by
    rw [hbegin]
    split <;> rfl
  obtain ⟨-, hstate, hevents⟩ := performed_of_accepted haccepted
  have hperform : perform (K := K) c d = makeShape c d := by rw [perform, hd]
  rw [hbegun] at hknown
  have hmade := makeShape_mesh (c := c) hknown hmesh
  rw [hstate, hevents, hperform, statementsOf_append, hsilent, List.nil_append,
    ← List.append_assoc]
  exact hmade

/-! ## Runs -/

/-- All meshes of a file are one shape, and a file is declared for parameters only once. -/
structure FilesApart (rs : List (Resource K)) : Prop where
  meshes : rs.Pairwise fun r r' => r.IsMesh → r'.IsMesh → r.detail.file? ≠ r'.detail.file?
  /-- A mesh has a file. -/
  located : ∀ r ∈ rs, r.IsMesh → r.detail.file?.isSome
  named : rs.Pairwise fun r r' =>
    ∀ path path', r.StandsFor path → r'.StandsFor path' → path ≠ path'

theorem FilesKnown.filesApart (h : FilesKnown s es) : FilesApart (declaredIn es) := by
  have hfiles : s.meshes.values.map (fun r => r.detail.file?) = s.meshes.names.map some := by
    rw [Table.values, Table.names, List.map_map, List.map_map]
    refine List.map_congr_left fun e he => ?_
    rw [Function.comp_apply, h.paths e he]
    rfl
  refine ⟨?_, fun r hr hmesh => ?_, ?_⟩
  · have hnodup : (s.meshes.values.map fun r => r.detail.file?).Nodup := by
      rw [hfiles]
      exact h.names.map (Option.some_injective _)
    rw [← h.meshes, List.Nodup, List.pairwise_map, List.pairwise_filter] at hnodup
    simpa using hnodup
  · have hmem : r ∈ s.meshes.values := by
      rw [← h.meshes]
      exact List.mem_filter.mpr ⟨hr, decide_eq_true hmesh⟩
    have hfile : r.detail.file? ∈ s.meshes.names.map some := by
      rw [← hfiles]
      exact List.mem_map_of_mem hmem
    obtain ⟨path, -, hpath⟩ := List.mem_map.mp hfile
    rw [← hpath]
    rfl
  · have hnodup : ((declaredIn es).filterMap Resource.namedFile?).Nodup := by
      rw [h.files]
      exact List.nodup_reverse.mpr h.apart
    rw [List.Nodup, List.pairwise_filterMap] at hnodup
    exact hnodup.imp fun hne path path' hr hr' =>
      hne path hr.namedFile?_eq.1 path' hr'.namedFile?_eq.1

/-- There is one mesh for each file. -/
theorem FilesApart.eq_of_mesh {rs : List (Resource K)} (h : FilesApart rs) {r r' : Resource K}
    (hr : r ∈ rs) (hr' : r' ∈ rs) (hmesh : r.IsMesh) (hmesh' : r'.IsMesh)
    (hfile : r.detail.file? = r'.detail.file?) : r = r' := by
  by_contra hne
  have hsymm : Std.Symm fun r r' : Resource K =>
      r.IsMesh → r'.IsMesh → r.detail.file? ≠ r'.detail.file? :=
    ⟨fun _ _ happart hmesh hmesh' => (happart hmesh' hmesh).symm⟩
  exact h.meshes.forall hr hr' hne hmesh hmesh' hfile

/-- What a directive makes of the files that it names, behind some progress and among all that a
run declares. -/
structure FindsFiles (c : EngineContext) (before : Progress K) (d : Directive)
    (all : List (Resource K)) : Prop where
  /-- A mesh whose file is found refers to the one shape of this file. -/
  mesh : d.name = .shape → d.subject = "plymesh" → (execute c d before.state).rejection = none →
    let p := execute c d before.state
    match meshFile? c before.state.dirs d with
    | none => statementsOf p.events p.state = before.state.openStatements
    | some path => ∃ st,
        statementsOf p.events p.state = before.state.openStatements ++ [st] ∧
        ∀ r, r ∈ all ∧ r.IsMesh ∧ r.detail.file? = some path ↔ r = st.shape
  /-- What is added to the parameters holds files that were declared. -/
  params : ∀ exempt,
    let a := (registerFiles c d exempt).run before.state
    Registered c before.state.dirs exempt d.params.entries (before.events ++ a.events) d.params
      a.value

/-- What is told up to a directive and by it is told by the run. -/
theorem events_prefix_run {as bs : List Directive} {dirs : DirectoryStack}
    (h : (started (K := K) c as dirs).rejection = none) :
    (started (K := K) c as dirs).events ++
        (execute c d (started (K := K) c as dirs).state).events <+:
      (run (K := K) c (as ++ d :: bs) (.initial dirs)).events := by
  have hmore (p : Progress K) (f : EngineState K → Progress K) :
      p.events <+: (p.andThen f).events := by
    unfold Progress.andThen
    split
    · exact List.prefix_refl _
    · exact List.prefix_append _ _
  have hone : (started (K := K) c (as ++ [d]) dirs).events =
      (started (K := K) c as dirs).events ++
        (execute c d (started (K := K) c as dirs).state).events := by
    rw [started_concat]
    unfold Progress.andThen
    rw [h]
  have hrun : run (K := K) c (as ++ d :: bs) (.initial dirs) =
      ((started c (as ++ [d]) dirs).andThen (executeAll c bs)).andThen
        (Progress.ofAction finish) := by
    rw [← started_append, List.append_assoc]
    rfl
  rw [hrun, ← hone]
  exact (hmore _ _).trans (hmore _ _)

/-- In every run all meshes of a file are one shape, a file is declared for parameters only once,
meshes refer to the shapes of their files, and full paths that are added to parameters are those of
files that were declared. -/
theorem files_declared_once (c : EngineContext) (ds : List Directive) (dirs : DirectoryStack) :
    let all := declaredIn (run (K := K) c ds (.initial dirs)).events
    FilesApart all ∧ ∀ as d bs, ds = as ++ d :: bs →
      (started (K := K) c as dirs).rejection = none → FindsFiles c (started c as dirs) d all := by
  have happart := (filesKnown_of_reachable (reachable_run (K := K) c ds dirs)).filesApart
  refine ⟨happart, ?_⟩
  rintro as d bs rfl haccepted
  have hreachable : Reachable c (started (K := K) c as dirs).state
      (started (K := K) c as dirs).events :=
    reachable_executeAll (Reachable.initial dirs).begun as
  refine ⟨fun hd hmesh hnone => ?_, fun exempt => ?_⟩
  · have hstated := mesh_of_execute hreachable hnone hd hmesh
    dsimp only
    cases hfile : meshFile? c (started (K := K) c as dirs).state.dirs d with
    | none =>
        rw [hfile] at hstated
        exact hstated
    | some path =>
        rw [hfile] at hstated
        obtain ⟨st, hst, hdeclared, hshape, hpath⟩ := hstated
        have hall : st.shape ∈ declaredIn (run (K := K) c (as ++ d :: bs) (.initial dirs)).events :=
          mem_declaredIn.mpr ((events_prefix_run haccepted).subset (mem_declaredIn.mp hdeclared))
        refine ⟨st, hst, fun r => ⟨?_, ?_⟩⟩
        · rintro ⟨hr, hmesh', hpath'⟩
          exact happart.eq_of_mesh hr hall hmesh' hshape (hpath'.trans hpath.symm)
        · rintro rfl
          exact ⟨hall, hshape, hpath⟩
  · exact registered_of_foldlM exempt d.params.entries d.params (filesKnown_of_reachable hreachable)

/-- A file beside a directory. -/
def lonelyFile : FileTree :=
  ⟨[([], .directory), (["m"], .file []), (["d"], .directory)], []⟩

/-- A mesh of a file. -/
def meshOf (name : String) : Directive :=
  ⟨.shape, [.text "plymesh"], ⟨[⟨"string", "filename", .ofString name⟩]⟩, none⟩

/-- A light with a map. -/
def lightOf (name : String) : Directive :=
  ⟨.lightSource, [.text "infinite"], ⟨[⟨"string", "mapname", .ofString name⟩]⟩, none⟩

/-- A mesh and a light of the file, named from beside it. -/
def namedBeside : List Directive :=
  [⟨.workDirBegin, [.text "/"], .empty, none⟩, ⟨.worldBegin, [], .empty, none⟩, meshOf "m",
    lightOf "m", ⟨.workDirBegin, [.text "/d"], .empty, none⟩]

/-- A mesh and a light of the same file are named from the directory once more.  There is one shape
of the file and one map, and the second mesh refers to the shape. -/
theorem files_declared_once_namedTwice :
    let c : EngineContext := ⟨lonelyFile, [], none⟩
    let s := (started (K := Float) c namedBeside .empty).state
    let all := declaredIn (run (K := Float) c
      (namedBeside ++ meshOf "../m" :: [lightOf "../m"]) (.initial .empty)).events
    all.map (fun r => (r.kind, r.type, r.detail.file?)) =
        [(.material, "matte", none), (.shape, "plymesh", some "/m"),
          (.texture, "imagemap", some "/m"), (.light, "infinite", none),
          (.light, "infinite", none)] ∧
      FilesApart all ∧
      ∃ st, statementsOf (execute c (meshOf "../m") s).events (execute c (meshOf "../m") s).state =
          s.openStatements ++ [st] ∧
        ∀ r, r ∈ all ∧ r.IsMesh ∧ r.detail.file? = some "/m" ↔ r = st.shape := by
  intro c s all
  obtain ⟨happart, hfinds⟩ := files_declared_once (K := Float) c
    (namedBeside ++ meshOf "../m" :: [lightOf "../m"]) .empty
  have hbeside : (started (K := Float) c namedBeside .empty).rejection = none :=
    Option.isNone_iff_eq_none.mp (by decide +kernel)
  have haccepted : (execute c (meshOf "../m") s).rejection = none :=
    Option.isNone_iff_eq_none.mp (by decide +kernel)
  have hmesh := (hfinds namedBeside (meshOf "../m") [lightOf "../m"] rfl hbeside).mesh rfl rfl
    haccepted
  have hfile : meshFile? c s.dirs (meshOf "../m") = some "/m" := by decide +kernel
  dsimp only at hmesh
  rw [hfile] at hmesh
  exact ⟨by decide +kernel, happart, hmesh⟩

end Engine
end SceneReader
