import SceneReader.Proofs.Include.Again
import SceneReader.Proofs.Scene.Directories
import SceneReader.Proofs.Scene.Places

/-!
# Flattened scenes

The expansion of a scene file is the text of a scene that needs no other scene file.  Loaded as a
text at hand, in the directory of the file, it is expanded once more, which puts it between two
more marks of that directory.

**Invariant.**  Where a directive of a file is executed, the directory of the first file is
entered already, so that entering it before all others makes no name be found elsewhere.

Like the agreement of the directories, this needs that lists of values are closed in the text in
which they were opened.

**Results.**
* `allSee_of_blocks`: the directory of the first file is entered everywhere.
* `repeats_directivesOf`: the flattened text has the directives of the file, and two more marks.
* `repeats_sceneOf`: the marks change nothing in the scene.
* `loadText_of_loadScene`: a flattened scene is the same scene.
-/

namespace SceneReader

open Lexer Include Engine

variable {K : Type} [Scalar K]

/-! ## Directories -/

namespace Engine

variable {c : EngineContext} {s : EngineState K} {ss : List Standing} {row : List Sited}

/-- Directives that are parsed from pieces of files see a directory that these files are looked up
in. -/
theorem allSee_of_blocks {root : Path} {blocks : List (List Sited)} {ds : List Directive}
    (h : List.Forall₂ IsFrom blocks ds) (hwalk : Walk ss (blocks.flatten ++ row))
    (hclosed : closesLists none (blocks.flatten ++ row) = true) (hs : s.dirs = dirsOf ss)
    (hroot : ∀ s p, .own s p ∈ blocks.flatten → root ∈ s.dirs.dirs) : AllSee [root] c ds s := by
  induction h generalizing ss s with
  | nil => trivial
  | @cons block d blocks ds hblock _ ih =>
      rw [List.flatten_cons] at hwalk hclosed hroot
      rw [List.append_assoc] at hwalk hclosed
      refine ⟨List.forall_mem_singleton.mpr ?_, fun hacc => ?_⟩
      · obtain ⟨x, part, rfl, hx, -⟩ := hblock.front
        rcases hwalk.cons_cases with ⟨s', rest, p, rfl, rfl, -⟩ | ⟨_, _, _, rfl, -⟩ |
          ⟨s', rest, p, rfl, rfl, hdirs, -⟩
        · refine Or.inr (Or.inr ?_)
          rw [hs]
          exact hroot s' p List.mem_cons_self
        · exact Or.inl (name_of_text (congrArg Piece.lexeme hx).symm)
        · refine Or.inr (Or.inl ⟨name_of_text (congrArg Piece.lexeme hx).symm, ?_⟩)
          rw [hs, dirsOf, hdirs]
          exact List.cons_ne_nil _ _
      · obtain ⟨ss', hwalk', hclosed', hs'⟩ := dirs_of_block hblock hwalk hclosed hs hacc
        exact ih hwalk' hclosed' hs' fun s p hmem => hroot s p (List.mem_append_right _ hmem)

end Engine

/-! ## The stages of loading -/

/-- The tokens of a text between two more marks are read as its directives between two more. -/
theorem repeats_directivesOf {o : Options} {file : Option String} {text again : String}
    {ps : List Piece} {l : Location} (htext : Spells text.toList ps)
    (hagain : Spells again.toList (frame l ps)) :
    Reported.Repeats (Parser.IsEnclosed l.text) (directivesOf o file text)
      (directivesOf o file again) := by
  obtain ⟨ts, hts, hpieces⟩ := (spells_iff file).mp htext
  obtain ⟨ts', hts', hpieces'⟩ := (spells_iff file).mp hagain
  rw [String.ofList_toList] at hts hts'
  obtain ⟨body, last, rfl, hlast, hbody⟩ := Parser.exists_body_of_tokenize hts
  rw [List.map_append] at hpieces
  obtain ⟨hbodyPieces, -⟩ := List.append_inj' hpieces rfl
  rw [frame, List.cons_append, List.cons_append, List.append_assoc] at hpieces'
  obtain ⟨b, ts', rfl, hb, hpieces'⟩ := List.map_eq_cons_iff.mp hpieces'
  obtain ⟨q, ts', rfl, hq, hpieces'⟩ := List.map_eq_cons_iff.mp hpieces'
  obtain ⟨body', ts', rfl, hbody', hpieces'⟩ := List.map_eq_append_iff.mp hpieces'
  obtain ⟨e, ts', rfl, he, hpieces'⟩ := List.map_eq_cons_iff.mp hpieces'
  obtain ⟨last', ts', rfl, hlast', hnil⟩ := List.map_eq_cons_iff.mp hpieces'
  obtain rfl := List.map_eq_nil_iff.mp hnil
  unfold directivesOf
  rw [hts, hts', Reported.ofExcept_ok, Reported.ofExcept_ok, pure_bind, pure_bind]
  have hstrict : (Parser.Context.ofSource (some again) o.strictNumbers).strict =
      (Parser.Context.ofSource (some text) o.strictNumbers).strict := rfl
  exact Parser.repeats_parse hstrict hbody hlast hb (congrArg Piece.kind hq)
    (hbody'.trans hbodyPieces.symm) he (congrArg Piece.kind hlast')

section Scenes

variable {files : FileTree} {source : Option String} {text again : String}
  {ds ds' : List Directive} {dir : String}

/-- The context in which the directives of a text are executed. -/
def contextOf (files : FileTree) (source : Option String) (text : String) : EngineContext :=
  ⟨files, Text.splitLines text, source⟩

theorem repeats_eventsOf (hds : Parser.IsEnclosed dir ds ds')
    (hsee : AllSee [Path.ofText dir] (contextOf files source text) ds
      { EngineState.initial (K := K) .empty with begun := true })
    (hends : (run (K := K) (contextOf files source text) ds (.initial .empty)).rejection = none →
      (run (K := K) (contextOf files source text) ds (.initial .empty)).state.dirs = .empty) :
    Reported.Repeats (fun es es' => es'.map Event.unplaced = es.map Event.unplaced)
      (eventsOf (K := K) (contextOf files source text) ds)
      (eventsOf (contextOf files source again) ds') := by
  obtain ⟨b, inner, e, rfl, ⟨hb, rfl⟩, he, hinner⟩ := hds
  intro es hes
  unfold eventsOf at hes
  dsimp only at hes
  split at hes
  · cases hes
  · rename_i hacc
    cases hes
    have hcontext : (contextOf files source again).unplaced =
        (contextOf files source text).unplaced := rfl
    have hrun := run_enclosed hcontext hinner hb rfl he hsee hacc (hends hacc)
    obtain ⟨-, hevents, hnotes, hrejection⟩ := Progress.mk.inj hrun
    rw [hacc, Option.map_none, Option.map_eq_none_iff] at hrejection
    refine ⟨_, ?_, hevents, hnotes⟩
    unfold eventsOf
    dsimp only
    rw [hrejection]

/-- Two more marks of a directory that is seen everywhere change nothing in the scene. -/
theorem repeats_sceneOf (hds : Parser.IsEnclosed dir ds ds')
    (hsee : AllSee [Path.ofText dir] (contextOf files source text) ds
      { EngineState.initial (K := K) .empty with begun := true })
    (hends : (run (K := K) (contextOf files source text) ds (.initial .empty)).rejection = none →
      (run (K := K) (contextOf files source text) ds (.initial .empty)).state.dirs = .empty) :
    Reported.Repeats (fun loaded loaded' => loaded'.unplaced = loaded.unplaced)
      (sceneOf (K := K) files source text ds) (sceneOf files source again ds') := by
  refine (repeats_eventsOf hds hsee hends).bind fun es es' _ hes => ?_
  have hscene : ∀ scene, Scene.ofEvents files.here es = .ok scene →
      ∃ scene', Scene.ofEvents files.here es' = .ok scene' ∧
        scene'.unplaced = scene.unplaced := by
    intro scene hscene
    have hboth := Scene.ofEvents_unplaced files.here es'
    rw [hes, Scene.ofEvents_unplaced, hscene] at hboth
    exact Success.of_map hboth.symm
  have hrepeats := (Reported.Repeats.ofExcept hscene).mapError (LoadFault.build (K := K))
  refine hrepeats.bind fun scene scene' _ hsame => .pure ?_
  have hstatistics : Statistics.ofEvents es' = Statistics.ofEvents es := by
    rw [← statistics_unplaced, hes, statistics_unplaced]
  unfold LoadedScene.unplaced
  rw [hsame, hstatistics]

end Scenes

/-! ## Loading -/

section Loading

variable {files : FileTree} {o : Options}

/-- The scene of a text in which there is nothing to include. -/
def sceneOfText (files : FileTree) (o : Options) (file : Option String) (text : String) :
    Reported (LoadFault K) (LoadedScene K) :=
  (directivesOf o file text).mapError (fun e => LoadFault.read (.scene e)) >>=
    sceneOf files file text

theorem loadText_eq (base : Path) (file : Option String) (text : String) :
    loadText (K := K) files o base file text =
      (expandText files o base file text).mapError LoadFault.read >>=
        sceneOfText files o file :=
  rfl

theorem loadScene_eq {path : String} (hfile : Archive.isArchiveName path = false)
    (fresh : Location) :
    loadScene (K := K) files o fresh path =
      (expandFile files o (Path.ofText path).text).mapError LoadFault.read >>=
        sceneOfText files o (some (Path.ofText path).text) := by
  have hsceneFile : sceneFile files path fresh = .ok ((Path.ofText path).text, files) :=
    if_neg (Bool.eq_false_iff.mp hfile)
  unfold loadScene readDirectives
  rw [hsceneFile]
  simp only [Except.mapError, Reported.ofExcept_ok, pure_bind, Reported.mapError_bind, bind_assoc,
    Reported.mapError_mapError, Reported.mapError_pure]
  refine bind_congr fun text => ?_
  rfl

/-- A scene file and its flattened text have the same scene, and so have their directives, each
executed. -/
theorem repeats_sceneOfText (hhere : Path.HasNames files.here) (hclear : ClearDirectories files)
    (hmarks : Unmarked files o) {path text again : String}
    (hclosed : ∀ row, IsTrace files o path row → closesLists none row = true)
    (hexpand : (expandFile files o path).result = .ok text) {ps : List Piece}
    (htext : Spells text.toList ps)
    (hagain : Spells again.toList (frame (files.resolve (Path.ofText path)).dropLast ps)) :
    Reported.Repeats (fun loaded loaded' => loaded'.unplaced = loaded.unplaced)
      (sceneOfText (K := K) files o (some path) text) (sceneOfText files o (some path) again) := by
  refine ((repeats_directivesOf htext hagain).mapError _).bind fun ds ds' hds henclosed => ?_
  have hread : (readDirectives files o path).result = .ok (ds, text) := by
    have hds := congrArg (Except.mapError ReadError.scene) (Success.of_result_mapError hds)
    unfold readDirectives
    rw [Reported.result_bind hexpand, Reported.result_bind hds]
    rfl
  obtain ⟨blocks, htrace, hblocks⟩ := exists_blocks_of_readDirectives hclear.plain hread
  have hwalk : Walk [] blocks.flatten :=
    htrace.walk hhere fun s p hmem => (htrace.stands s p hmem).ne_marks hmarks
  have hends := (goesThroughFiles hblocks hwalk (hclosed _ htrace) (K := K)
    (contextOf files (some path) text)).ends
  have hnames : Path.HasNames (files.resolve (Path.ofText path)).dropLast :=
    Path.hasNames_dropLast (Path.hasNames_resolve hhere (Path.hasNames_ofText path))
  have hroot : ∀ s p, .own s p ∈ blocks.flatten →
      Path.ofText (Location.text (files.resolve (Path.ofText path)).dropLast) ∈ s.dirs.dirs := by
    intro s p hmem
    rw [Path.ofText_text hnames]
    cases htrace.arises _ hmem with
    | own _ hdirs => exact hdirs List.mem_cons_self
  have hclosed := hclosed _ htrace
  rw [← List.append_nil blocks.flatten] at hwalk hclosed
  have hstart : (EngineState.initial (K := K) .empty).dirs = dirsOf [] := rfl
  exact repeats_sceneOf henclosed (allSee_of_blocks hblocks hwalk hclosed hstart hroot) hends

/-- A flattened scene is the same scene, if no list of values goes on from one file to another:
its text can be loaded from the directory of the file, and the nodes with what is attached to
them, the resources and the objects are those of the scene, and so are the diagnostics behind
those of the expansion, which are warnings of parameters behind includes. -/
theorem loadText_of_loadScene {path : String} {fresh : Location} {loaded : LoadedScene K}
    (hfile : Archive.isArchiveName path = false) (hhere : Path.HasNames files.here)
    (hup : ".." ∉ files.here) (hclear : ClearDirectories files) (htwins : Untwinned files o)
    (hmarks : Unmarked files o)
    (hclosed : ∀ row, IsTrace files o path row → closesLists none row = true)
    (h : (loadScene files o fresh path).result = .ok loaded) :
    ∃ text rest again, (expandFile files o path).result = .ok text ∧
      (loadScene (K := K) files o fresh path).notes = (expandFile files o path).notes ++ rest ∧
      (∀ n ∈ (expandFile files o path).notes, n.code = "W212") ∧
      let flat := loadText (K := K) files o
        (.ofLocation (files.resolve (Path.ofText path)).dropLast) (some (Path.ofText path).text) text
      flat.result = .ok again ∧ again.unplaced = loaded.unplaced ∧
        flat.notes.map Diagnostic.unplaced = rest.map Diagnostic.unplaced := by
  have hpath : Path.ofText (Path.ofText path).text = Path.ofText path :=
    Path.ofText_text_path (Path.hasNames_ofText path)
  have hclosed' : ∀ row, IsTrace files o (Path.ofText path).text row →
      closesLists none row = true := by
    unfold IsTrace at hclosed ⊢
    rwa [hpath]
  rw [loadScene_eq hfile] at h ⊢
  obtain ⟨text, hexpand, hscene⟩ := Success.of_result_bind h
  replace hexpand := Success.of_result_mapError hexpand
  obtain ⟨ds, hds, -⟩ := Success.of_result_bind hscene
  obtain ⟨ts, hts, -⟩ := Success.of_result_bind (Success.of_result_mapError hds)
  obtain ⟨row, htrace, hpieces⟩ := exists_trace hclear.plain hexpand hts
  have htext : Spells text.toList (row.map Sited.piece) :=
    (spells_iff _).mpr ⟨ts, by rwa [String.ofList_toList], hpieces⟩
  obtain ⟨_, _, _, hisFile, -⟩ := id htrace
  rw [hpath] at hisFile
  have hplace : ".." ∉ (files.resolve (Path.ofText path)).dropLast := fun hmem =>
    Path.resolve_not_mem_dotDot _ _ hup ((List.dropLast_sublist _).subset hmem)
  have hbase : files.resolve (.ofLocation (files.resolve (Path.ofText path)).dropLast) =
      (files.resolve (Path.ofText (Path.ofText path).text)).dropLast := by
    rw [hpath]
    exact Path.resolve_ofLocation hplace files.here
  obtain ⟨again, hagain, hspells⟩ := expandText_of_trace htwins hclear htrace htext hbase
    (some (Path.ofText path).text)
  obtain ⟨loaded', hloaded, hsame, hnotes⟩ :=
    repeats_sceneOfText hhere hclear hmarks hclosed' hexpand htext hspells loaded hscene
  rw [expandFile_congr hpath hisFile] at hexpand ⊢
  have hwarnings : (expandFile files o path).Notes OfInclude := notes_expandFile path
  refine ⟨text, (sceneOfText (K := K) files o (some (Path.ofText path).text) text).notes, loaded',
    hexpand, ?_, hwarnings, ?_⟩
  · rw [Reported.notes_bind (congrArg (Except.mapError LoadFault.read) hexpand)]
    rfl
  · rw [loadText_eq, hagain, Reported.mapError_pure, pure_bind]
    exact ⟨hloaded, hsame, hnotes⟩

/-- A scene in three files, flattened. -/
theorem loadText_of_loadScene_nestedFiles :
    Archive.isArchiveName "a" = false ∧ Path.HasNames nestedFiles.here ∧
      ".." ∉ nestedFiles.here ∧ ClearDirectories nestedFiles ∧ Untwinned nestedFiles .standard ∧
      Unmarked nestedFiles .standard ∧ closesLists none nestedRow = true ∧
      ∃ loaded text rest again,
        (loadScene (K := Float) nestedFiles .standard [] "a").result = .ok loaded ∧
        (expandFile nestedFiles .standard "a").result = .ok text ∧
        (loadScene (K := Float) nestedFiles .standard [] "a").notes =
          (expandFile nestedFiles .standard "a").notes ++ rest ∧
        (loadText nestedFiles .standard (.ofLocation []) (some "a") text).result = .ok again ∧
        again.unplaced = loaded.unplaced := by
  have hfile : Archive.isArchiveName "a" = false := by decide +kernel
  have hhere : Path.HasNames nestedFiles.here := List.forall_mem_nil _
  have hclear : ClearDirectories nestedFiles := clearDirectories_of_nodes (by decide)
  have htwins : Untwinned nestedFiles .standard := untwinned_of_nodes (by decide +kernel)
  have hclosed : ∀ row, IsTrace nestedFiles .standard "a" row → closesLists none row = true := by
    intro row hrow
    rw [hrow.unique isTrace_nestedRow]
    rfl
  have hload : (loadScene (K := Float) nestedFiles .standard [] "a").result.toOption.isSome := by
    decide +kernel
  cases h : (loadScene (K := Float) nestedFiles .standard [] "a").result with
  | error e =>
      rw [h] at hload
      cases hload
  | ok loaded =>
      obtain ⟨text, rest, again, htext, hnotes, -, hagain, hsame, -⟩ :=
        loadText_of_loadScene hfile hhere List.not_mem_nil hclear htwins unmarked_nestedFiles
          hclosed h
      exact ⟨hfile, hhere, List.not_mem_nil, hclear, htwins, unmarked_nestedFiles, rfl, loaded,
        text, rest, again, rfl, htext, hnotes, hagain, hsame⟩

end Loading

/-- A list of values that is closed in another file, and one that is opened in another file; a
file beside the first one is named between them. -/
def crossedFiles : FileTree :=
  ⟨[([], .directory),
    (["a"], .file ("Film\"x\"\"string t\"[Include\"d/b\"\n" ++
      "Film\"x\"\"filename\"\"m\"Include\"d/c\"]").toUTF8.toList),
    (["m"], .file []), (["d"], .directory), (["d", "b"], .file "]".toUTF8.toList),
    (["d", "c"], .file "Film\"x\"\"string t\"[".toUTF8.toList)], []⟩

/-- The first file flattened. -/
def crossedText : String :=
  "WorkDirBegin \"/\"\nFilm\"x\"\"string t\"[\nWorkDirBegin \"/d\"\n]\nWorkDirEnd\n\n" ++
    "Film\"x\"\"filename\"\"m\"\nWorkDirBegin \"/d\"\nFilm\"x\"\"string t\"[\nWorkDirEnd\n]\n" ++
    "WorkDirEnd\n"

theorem unmarked_crossedFiles : Unmarked crossedFiles .standard := by
  have houter : Holds crossedFiles .standard ["a"] [word "Film", quoted "x", quoted "string t",
      ⟨.leftBracket, "["⟩, .include, quoted "d/b", word "Film", quoted "x",
      quoted "filename", quoted "m", .include, quoted "d/c", ⟨.rightBracket, "]"⟩] :=
    holds_of_spells
      (by decide +kernel :
        _ = some ("Film\"x\"\"string t\"[Include\"d/b\"\n" ++
          "Film\"x\"\"filename\"\"m\"Include\"d/c\"]").toList)
      ⟨[], .cons rfl rfl (.cons rfl rfl (.cons rfl rfl (.cons rfl rfl (.cons rfl rfl
        (.cons rfl rfl (.cons rfl rfl (.cons rfl rfl (.cons rfl rfl (.cons rfl rfl
        (.cons rfl rfl (.cons rfl rfl (.cons rfl rfl (.nil []))))))))))))), rfl⟩
  have hempty : Holds crossedFiles .standard ["m"] [] :=
    holds_of_spells (by decide +kernel : _ = some []) ⟨[], .nil [], rfl⟩
  have hcloses : Holds crossedFiles .standard ["d", "b"] [⟨.rightBracket, "]"⟩] :=
    holds_of_spells (by decide +kernel : _ = some "]".toList) ⟨[], .cons rfl rfl (.nil []), rfl⟩
  have hopens : Holds crossedFiles .standard ["d", "c"]
      [word "Film", quoted "x", quoted "string t", ⟨.leftBracket, "["⟩] :=
    holds_of_spells (by decide +kernel : _ = some "Film\"x\"\"string t\"[".toList)
      ⟨[], .cons rfl rfl (.cons rfl rfl (.cons rfl rfl (.cons rfl rfl (.nil [])))), rfl⟩
  refine unmarked_of_nodes fun e he bytes hbytes => ?_
  simp only [crossedFiles, List.mem_cons, List.not_mem_nil, or_false] at he
  rcases he with rfl | rfl | rfl | rfl | rfl | rfl
  · cases hbytes
  · exact ⟨_, houter, by simp [word, quoted, Piece.include, Piece.dirBegin, Piece.dirEnd]⟩
  · exact ⟨_, hempty, List.not_mem_nil, List.not_mem_nil⟩
  · cases hbytes
  · exact ⟨_, hcloses, by simp [Piece.dirBegin, Piece.dirEnd]⟩
  · exact ⟨_, hopens, by simp [word, quoted, Piece.dirBegin, Piece.dirEnd]⟩

theorem eq_pure_of_codes {ε α : Type} {x : Reported ε α} {a : α}
    (h : x.notes.codes = [] ∧ x.result.toOption = some a) : x = pure a := by
  obtain ⟨hnotes, hresult⟩ := h
  obtain ⟨notes, _ | b⟩ := x
  · cases hresult
  · cases hresult
    obtain rfl : notes = [] := List.map_eq_nil_iff.mp hnotes
    rfl

/-- The marks that are values of the two lists leave no directory in which the file could be
found.  In the flattened scene there is one more directory, and it is found there. -/
theorem fileFound_of_crossedFiles :
    Archive.isArchiveName "a" = false ∧ Path.HasNames crossedFiles.here ∧
      ".." ∉ crossedFiles.here ∧ ClearDirectories crossedFiles ∧
      Untwinned crossedFiles .standard ∧ Unmarked crossedFiles .standard ∧
      (expandFile crossedFiles .standard "a").result.toOption = some crossedText ∧
      (expandFile crossedFiles .standard "a").notes.codes = [] ∧
      ((loadScene (K := Float) crossedFiles .standard [] "a").result.toOption.isSome ∧
        (loadScene (K := Float) crossedFiles .standard [] "a").notes.codes = ["W307", "W314"]) ∧
      (loadText (K := Float) crossedFiles .standard (.ofLocation []) (some "a")
          crossedText).result.toOption.isSome ∧
        (loadText (K := Float) crossedFiles .standard (.ofLocation []) (some "a")
          crossedText).notes.codes = ["W314"] := by
  have hfile : Archive.isArchiveName "a" = false := by decide +kernel
  have hexpand : expandFile crossedFiles .standard "a" = pure crossedText :=
    eq_pure_of_codes (by decide +kernel)
  have hagain : expandText crossedFiles .standard (.ofLocation []) (some "a") crossedText =
      pure ("WorkDirBegin \"/\"\n" ++ crossedText ++ "WorkDirEnd\n") :=
    eq_pure_of_codes (by decide +kernel)
  have hpath : (Path.ofText "a").text = "a" := by decide +kernel
  refine ⟨hfile, List.forall_mem_nil _, List.not_mem_nil, clearDirectories_of_nodes (by decide),
    untwinned_of_nodes (by decide +kernel), unmarked_crossedFiles, ?_, ?_, ?_, ?_⟩
  · rw [hexpand]
    rfl
  · rw [hexpand]
    rfl
  · rw [loadScene_eq hfile, hpath, hexpand, Reported.mapError_pure, pure_bind]
    decide +kernel
  · rw [loadText_eq, hagain, Reported.mapError_pure, pure_bind]
    decide +kernel

end SceneReader
