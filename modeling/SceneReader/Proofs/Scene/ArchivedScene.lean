import SceneReader.Proofs.Directive.Complaints
import SceneReader.Proofs.File.SceneChoice
import SceneReader.Proofs.Include.OwnFaults
import SceneReader.Proofs.Include.TextAtHand
import SceneReader.Scene.Loading

/-!
# Scenes from archives

The scene of an archive is a file, unless a directory that is named like a scene comes first in path
order.  Then the directory is taken for the scene, and loading the archive fails: the scene is
said to be missing, although the archive has one.

Nothing else says so.  A file that an include does not find is told of together with the places that
were searched, and a file that was found is not missing when it is read.

**Results.**
* `expandFile_ne_missing`: a file that is there is not said to be missing.
* `loadScene_missing_iff`: the scene of an archive is missing exactly if it is no file.
* `scene_isRegular_iff`: when the scene of an archive is the first of its files.
-/

namespace SceneReader

/-- The error of a scene file that is not there. -/
def missing (l : Location) : SceneError := .unplaced (.fileNotFound (Location.text l) [])

namespace Include

open Lexer (tokenize fault_of_tokenize)

variable {files : FileTree} {o : Options} {l : Location}

/-! ## Files that are there -/

theorem text_ofLocation (k : Location) : (Path.ofLocation k).text = Location.text k := by
  have hrooted : ¬ ((Path.ofLocation k).root = .relative ∧ (Path.ofLocation k).parts = []) := by
    simp [Path.ofLocation]
  rw [Path.text, if_neg hrooted]
  rfl

theorem decodeFile_ne_missing (path encoding : String) (bytes : List UInt8) (l : Location) :
    decodeFile path encoding bytes ≠ .error (.scene (missing l)) := by
  unfold decodeFile
  split
  · simp
  · split <;> simp [missing, SceneError.unplaced]

/-- Reading another file does not say that a file is missing which is there. -/
theorem readStripped_ne_missing (hl : Path.HasNames l) (hfile : files.isFile (.ofLocation l) = true)
    {k : Location} (hk : Path.HasNames k) :
    readStripped files o k ≠ .error (.scene (missing l)) := by
  intro h
  rw [readStripped, Success.map_eq_error_iff, FileTree.readScene] at h
  split at h
  · rename_i hfind
    -- The file that is missing would be the one that is there.
    obtain ⟨hpath, -⟩ := Fault.fileNotFound.inj
      (congrArg SceneError.fault (ReadError.scene.inj (Except.error.inj h)))
    rw [text_ofLocation] at hpath
    have hsame : Path.ofLocation k = Path.ofLocation l := by
      rw [← Path.ofText_text hk, ← Path.ofText_text hl, hpath]
    rw [FileTree.isFile, ← hsame, hfind] at hfile
    cases hfile
  · cases h
  · cases h
  · split at h
    · split at h
      · cases h
      · cases h
      · cases h
      · exact decodeFile_ne_missing _ _ _ l h
    · exact decodeFile_ne_missing _ _ _ l h

/-- There is a directory to search, and all of them have names. -/
structure Searches (s : Standing) : Prop where
  some : s.dirs.dirs ≠ []
  names : ∀ p ∈ s.dirs.dirs, Path.HasNames p.parts

theorem Searches.root (hl : Path.HasNames l) : Searches (.root l) :=
  ⟨nofun, List.forall_mem_singleton.mpr (Path.hasNames_dropLast hl)⟩

theorem Searches.enter {s : Standing} (h : Searches s) (hl : Path.HasNames l) :
    Searches (s.enter l) :=
  ⟨nofun, List.forall_mem_cons.mpr ⟨Path.hasNames_dropLast hl, h.names⟩⟩

/-- An include that finds no file tells where it searched. -/
theorem locate_ne_missing {s : Standing} (hs : Searches s) (r : Request) :
    locate files o s r ≠ .error (.scene (missing l)) := by
  intro h
  unfold locate at h
  split at h
  · obtain ⟨-, hsearched⟩ := Fault.fileNotFound.inj
      (congrArg SceneError.fault (ReadError.scene.inj (Except.error.inj h)))
    rw [List.map_eq_nil_iff, DirectoryStack.candidates] at hsearched
    split at hsearched
    · cases hsearched
    · exact hs.some (List.map_eq_nil_iff.mp hsearched)
  · split at h <;> cases h

/-- No include on the way says that a file is missing which is there. -/
theorem expansion_ne_missing (hl : Path.HasNames l) (hhere : Path.HasNames files.here)
    (hfile : files.isFile (.ofLocation l) = true) (p : Opened) (hp : Searches p.standing) :
    (expansion files o p).result ≠ .error (.scene (missing l)) := by
  induction p using (enters_wf files o).induction with
  | h p ih =>
      intro h
      rw [expansion_eq] at h
      unfold pass at h
      cases htokens : tokenize (String.ofList p.text) p.standing.file with
      | error e =>
          rw [htokens] at h
          obtain rfl : e = missing l := ReadError.scene.inj (Except.error.inj h)
          exact absurd (fault_of_tokenize htokens).1 nofun
      | ok ts =>
          rw [htokens] at h
          rcases splice_error_cases h with ⟨r, hr, h⟩ | ⟨t, -, -, heq⟩
          · have hr : r ∈ p.requests := by
              unfold Opened.requests
              rw [htokens]
              exact hr
            unfold inclusion at h
            rcases Success.result_bind_eq_error_iff.mp h with h | ⟨k, hk, h⟩
            · exact locate_ne_missing hp r h
            have hnames := DirectoryStack.hasNames_of_find? hhere hp.names (find?_of_locate hk)
            split at h
            · cases h
            · rename_i hroom
              rcases Success.result_bind_eq_error_iff.mp h with h | ⟨text, htext, h⟩
              · exact readStripped_ne_missing hl hfile hnames h
              rcases Success.result_bind_eq_error_iff.mp h with h | ⟨body, -, h⟩
              · exact ih _ (.intro hr hk (by omega) htext) (hp.enter hnames) h
              · cases h
          · cases heq

/-- A file that is there is not said to be missing when its includes are expanded. -/
theorem expandFile_ne_missing (hup : ".." ∉ l) (hl : Path.HasNames l)
    (hhere : Path.HasNames files.here) (hfile : files.isFile (.ofLocation l) = true) :
    (expandFile files o (Location.text l)).result ≠ .error (.scene (missing l)) := by
  intro h
  have hpath := Path.ofText_text hl
  have hresolve : files.resolve (.ofLocation l) = l := Path.resolve_ofLocation hup files.here
  rw [expandFile_eq (by rwa [hpath]), hpath, hresolve] at h
  rcases Success.result_bind_eq_error_iff.mp h with h | ⟨text, -, h⟩
  · exact readStripped_ne_missing hl hfile hl h
  unfold whole at h
  split at h
  · rcases Success.result_bind_eq_error_iff.mp h with h | ⟨body, -, h⟩
    · -- The chain holds the scene file alone, and so this is a call of the recursion.
      exact expansion_ne_missing hl hhere hfile ⟨.root l, text⟩ (.root hl) h
    · cases h
  · cases h

theorem expandFile_missing (hl : Path.HasNames l) (hfile : files.isFile (.ofLocation l) = false) :
    (expandFile files o (Location.text l)).result = .error (.scene (missing l)) := by
  unfold expandFile
  rw [Path.ofText_text hl]
  simp only [hfile, Bool.not_false, if_true]
  rfl

end Include

/-! ## Loading -/

/-- Directives that cannot be read are no missing file. -/
theorem directivesOf_ne_missing (o : Options) (file : Option String) (text : String)
    (l : Location) : (directivesOf o file text).result ≠ .error (missing l) := by
  intro h
  rcases Success.result_bind_eq_error_iff.mp h with h | ⟨ts, -, h⟩
  · exact absurd (Lexer.fault_of_tokenize h).1 nofun
  · exact absurd ((Parser.tells_parse _ ts).error _ h).grammatical nofun

section Loading

variable {K : Type} [Scalar K] {files : FileTree} {o : Options}

/-- An archive is loaded from its scene. -/
theorem loadScene_of_archive {name : String} {fresh scene : Location}
    (harchive : Archive.isArchiveName name = true)
    (hscene : (Archive.extract (files.place fresh .directory) (.ofText name) fresh).scene =
      .ok scene) :
    let unpacked := (Archive.extract (files.place fresh .directory) (.ofText name) fresh).files
    loadScene (K := K) files o fresh name =
      (readDirectives unpacked o (Location.text scene)).mapError LoadFault.read >>= fun read =>
        sceneOf unpacked (some (Location.text scene)) read.2 read.1 := by
  intro unpacked
  have hfile : sceneFile files name fresh = .ok (Location.text scene, unpacked) := by
    unfold sceneFile
    rw [if_pos harchive]
    dsimp only
    rw [hscene]
    rfl
  unfold loadScene
  rw [hfile]
  rfl

/-- The scene of an archive is said to be missing exactly if it is no file. -/
theorem loadScene_missing_iff {name : String} {fresh scene : Location}
    (harchive : Archive.isArchiveName name = true)
    (hscene : (Archive.extract (files.place fresh .directory) (.ofText name) fresh).scene =
      .ok scene)
    (hup : ".." ∉ scene) (hnames : Path.HasNames scene) :
    let unpacked := (Archive.extract (files.place fresh .directory) (.ofText name) fresh).files
    Path.HasNames unpacked.here →
    ((loadScene (K := K) files o fresh name).result = .error (.read (.scene (missing scene))) ↔
      unpacked.isFile (.ofLocation scene) = false) := by
  intro unpacked hhere
  rw [loadScene_of_archive harchive hscene]
  constructor
  · intro h
    by_contra hfile
    rw [Bool.not_eq_false] at hfile
    rcases Success.result_bind_eq_error_iff.mp h with h | ⟨read, -, h⟩
    · obtain ⟨e, h, heq⟩ := Success.mapError_eq_error_iff.mp h
      cases heq
      rcases Success.result_bind_eq_error_iff.mp h with h | ⟨text, -, h⟩
      · exact Include.expandFile_ne_missing hup hnames hhere hfile h
      rcases Success.result_bind_eq_error_iff.mp h with h | ⟨ds, -, h⟩
      · obtain ⟨e, h, heq⟩ := Success.mapError_eq_error_iff.mp h
        cases heq
        exact directivesOf_ne_missing _ _ _ _ h
      · cases h
    · -- Later faults are faults of the engine or of the scene.
      rcases Success.result_bind_eq_error_iff.mp h with h | ⟨events, -, h⟩
      · unfold eventsOf at h
        dsimp only at h
        split at h <;> cases h
      rcases Success.result_bind_eq_error_iff.mp h with h | ⟨made, -, h⟩
      · obtain ⟨e, -, heq⟩ := Success.mapError_eq_error_iff.mp h
        cases heq
      · cases h
  · intro hfile
    refine Success.result_bind_eq_error_iff.mpr (Or.inl ?_)
    refine Success.mapError_eq_error_iff.mpr ⟨.scene (missing scene), ?_, rfl⟩
    exact Success.result_bind_eq_error_iff.mpr (Or.inl (Include.expandFile_missing hnames hfile))

end Loading

/-! ## Fresh directories -/

namespace FileTree

theorem node?_ensureAbove {t : FileTree} {l k : Location} (h : k ∉ initials l.dropLast) :
    (t.ensureAbove l).node? k = t.node? k := by
  unfold ensureAbove
  generalize initials l.dropLast = ds at h
  induction ds generalizing t with
  | nil => rfl
  | cons d ds ih =>
      obtain ⟨hd, hds⟩ := List.ne_and_not_mem_of_not_mem_cons h
      rw [List.foldl_cons, ih hds]
      split
      · rfl
      · rw [node?_put, if_neg hd]

theorem length_le_of_mem_initials {l k : Location} (h : k ∈ initials l) : k.length ≤ l.length := by
  obtain ⟨n, -, rfl⟩ := List.mem_map.mp h
  exact List.length_take_le' n l

end FileTree

/-! ## The scene of an archive -/

namespace Archive

/-- A new directory is empty. -/
theorem isFree_place {files : FileTree} {dest : Location}
    (h : ∀ l, dest <+: l → files.node? l = none) : IsFree (files.place dest .directory) dest := by
  intro l hl
  rw [FileTree.place, FileTree.node?_put]
  split
  · rename_i heq
    exact Or.inr ⟨heq, rfl⟩
  · rename_i hne
    refine Or.inl ((FileTree.node?_ensureAbove fun hmem => hne ?_).trans (h l hl))
    have hlength := FileTree.length_le_of_mem_initials hmem
    rw [List.length_dropLast] at hlength
    exact (hl.eq_of_length_le (by omega)).symm

variable {t : FileTree} {path : Path} {dest place : Location} {bytes : List UInt8}
  {ms : List Member}

/-- Whether the scene leads to a file. -/
theorem isFile_scene_iff (hfree : IsFree t dest) (hdest : ".." ∉ dest)
    (hall : (extractAll dest t ms).2 = true) {scene : Location}
    (h : IsFirst (IsCandidate dest ms) scene) :
    (extractAll dest t ms).1.isFile (.ofLocation scene) = true ↔
      IsFirst (fun l => ∃ m ∈ ms, IsScene dest m ∧ target dest m = l) scene := by
  obtain ⟨⟨⟨hbelow, hname⟩, m, hm, hstands⟩, hleast⟩ := h
  constructor
  · intro hfile
    have hup : ".." ∉ scene := by
      rcases hstands with hway | ⟨-, rfl⟩
      · exact hway.not_mem_dotDot
      · exact Path.resolve_not_mem_dotDot _ _ hdest
    obtain ⟨bytes, hnode⟩ := Include.node?_of_isFile hfile
    rw [FileTree.resolve, Path.resolve_ofLocation hup] at hnode
    obtain ⟨k, hk, hregular, rfl⟩ := (isFile_below_iff hfree hdest hall hbelow).mp ⟨bytes, hnode⟩
    refine ⟨⟨k, hk, ⟨hregular, hbelow, hname⟩, rfl⟩, ?_⟩
    rintro _ ⟨j, hj, hscene, rfl⟩
    exact hleast _ ⟨hscene.2, j, hj, Or.inr ⟨hscene.1, rfl⟩⟩
  · rintro ⟨⟨k, hk, hscene, rfl⟩, -⟩
    exact isFile_of_extractAll hdest hall hk hscene.1 hscene.2.1

/-- An archive that is accepted into an empty directory, and has a regular member with a name like
that of a scene, gives a scene: the first in path order of all that is named like a scene.  This
is the first of the regular members exactly if each directory that is named like a scene, whether
it is a member or is made on the way to one, has a regular member before it.  Loading the archive
fails with the error that this very scene is missing exactly if it is not. -/
theorem scene_isRegular_iff (hfile : t.find path = .file place bytes)
    (hms : members? bytes = some ms) (hfree : IsFree t dest) (hdest : ".." ∉ dest)
    (haccepted : IsAccepted t path dest ms)
    (hscene : ∃ m ∈ ms, IsRegular m ∧ isSceneName m.name = true ∧ target dest m ≠ dest) :
    ∃ scene, (extract t path dest).scene = .ok scene ∧
      IsFirst (IsCandidate dest ms) scene ∧
      (IsFirst (fun l => ∃ m ∈ ms, IsScene dest m ∧ target dest m = l) scene ↔
        ∀ m ∈ ms, ∀ l, LeadsThrough dest m l → IsScenePlace dest l →
          ∃ k ∈ ms, IsScene dest k ∧ pathLE (target dest k) l = true) ∧
      ∀ (K : Type) [Scalar K] (files : FileTree) (o : Options) (name : String),
        t = files.place dest .directory → path = Path.ofText name → isArchiveName name = true →
        Path.HasNames dest → Path.HasNames t.here →
        ((loadScene (K := K) files o dest name).result =
            .error (.read (.scene (missing scene))) ↔
          ¬ IsFirst (fun l => ∃ m ∈ ms, IsScene dest m ∧ target dest m = l) scene) := by
  obtain ⟨m, hm, hregular, hname, hne⟩ := hscene
  have hbelow : dest <+: target dest m := by
    have hsafe := memberFault?_eq_none_iff.mp
      ((checkMembers_ok_iff path dest ms).mp haccepted.1 m hm)
    exact not_not.mp (not_or.mp hsafe.2).2
  have hm' := isScene_of_isSceneName hregular hname ⟨hbelow, hne⟩
  obtain ⟨scene, hok, hfirst⟩ :=
    exists_scene hfree hdest haccepted ⟨_, hm'.2, m, hm, Or.inr ⟨hregular, rfl⟩⟩
  have hextract : extract t path dest = unpack t path dest ms := extract_eq hfile hms dest
  refine ⟨scene, hextract ▸ hok, hfirst, isFirst_iff hfirst, ?_⟩
  rintro K _ files o name rfl rfl harchive hnames hhere
  have hplace : ".." ∉ scene ∧ Path.HasNames scene := by
    obtain ⟨⟨-, k, -, hway | ⟨-, rfl⟩⟩, -⟩ := hfirst
    · exact ⟨hway.not_mem_dotDot, hway.hasNames hnames⟩
    · exact ⟨Path.resolve_not_mem_dotDot _ _ hdest, hasNames_target hnames k⟩
  rw [loadScene_missing_iff harchive (hextract ▸ hok) hplace.1 hplace.2,
    ← isFile_scene_iff hfree hdest haccepted.2 hfirst, Bool.not_eq_true]
  · rw [hextract, unpack_of_isAccepted haccepted]
  · rw [hextract, unpack_of_isAccepted haccepted, here_extractAll]
    exact hhere

/-- The root directory with an archive of members, and a fresh directory. -/
def freshFiles (ms : List Member) : FileTree := (archiveFiles ms).place ["out"] .directory

theorem find_freshFiles (ms : List Member) :
    (freshFiles ms).find (.ofText "s.tar.gz") = .file ["s.tar.gz"] (archiveBytes ms) :=
  rfl

theorem isFree_freshFiles (ms : List Member) : IsFree (freshFiles ms) ["out"] := by
  refine isFree_place fun l hl => ?_
  obtain ⟨rest, rfl⟩ := hl
  rfl

/-- A scene, and a file below a directory that is named like a scene and comes later. -/
def laterDirectory : List Member := [⟨"b.pbrt", .file []⟩, ⟨"c.pbrt/d", .file []⟩]

/-- The scene of the archive is its one file that is named like a scene, and it is not missing. -/
theorem scene_isRegular_laterDirectory :
    ∃ scene, (extract (freshFiles laterDirectory) (.ofText "s.tar.gz") ["out"]).scene = .ok scene ∧
      IsFirst (fun l => ∃ m ∈ laterDirectory, IsScene ["out"] m ∧ target ["out"] m = l) scene ∧
      (loadScene (K := Float) (archiveFiles laterDirectory) .standard ["out"] "s.tar.gz").result ≠
        .error (.read (.scene (missing scene))) := by
  have hms : members? (archiveBytes laterDirectory) = some laterDirectory := by
    rw [members?_archiveBytes]
    decide +kernel
  have haccepted : IsAccepted (freshFiles laterDirectory) (.ofText "s.tar.gz") ["out"]
      laterDirectory :=
    ⟨Success.of_toOption (by decide +kernel), by decide +kernel⟩
  have hscene : IsRegular ⟨"b.pbrt", .file []⟩ ∧ isSceneName "b.pbrt" = true ∧
      target ["out"] ⟨"b.pbrt", .file []⟩ ≠ ["out"] :=
    ⟨⟨[], rfl⟩, by decide, by decide +kernel⟩
  obtain ⟨scene, hok, -, hiff, hload⟩ :=
    scene_isRegular_iff (find_freshFiles laterDirectory) hms (isFree_freshFiles laterDirectory)
      (by decide) haccepted ⟨_, List.mem_cons_self, hscene⟩
  have hlater : ∀ m ∈ laterDirectory, ∀ ps ∈ (way ["out"] m).inits,
      IsScenePlace ["out"] (ps.foldl Path.step []) →
        pathLE ["out", "b.pbrt"] (ps.foldl Path.step []) = true := by
    decide +kernel
  have hfirst := hiff.mpr fun m hm l ⟨ps, hps, hl⟩ hplace => by
    rw [hl] at hplace ⊢
    refine ⟨⟨"b.pbrt", .file []⟩, List.mem_cons_self, ?_, ?_⟩
    · exact isScene_of_isSceneName hscene.1 hscene.2.1 ⟨by decide +kernel, hscene.2.2⟩
    · exact hlater m hm ps ((List.mem_inits _ _).mpr hps) hplace
  refine ⟨scene, hok, hfirst, ?_⟩
  rw [ne_eq, hload Float (archiveFiles laterDirectory) .standard "s.tar.gz" rfl rfl (by decide)
    (by decide) (by decide)]
  exact not_not.mpr hfirst

/-- A directory that is named like a scene, and a scene. -/
def earlierDirectory : List Member := [⟨"a.pbrt", .directory⟩, ⟨"b.pbrt", .file []⟩]

/-- The scene of an archive need not be a regular member, although there is one that is named like a
scene.  Then the archive cannot be loaded. -/
theorem not_isFirst_earlierDirectory :
    (freshFiles earlierDirectory).find (.ofText "s.tar.gz") =
        .file ["s.tar.gz"] (archiveBytes earlierDirectory) ∧
      members? (archiveBytes earlierDirectory) = some earlierDirectory ∧
      IsFree (freshFiles earlierDirectory) ["out"] ∧
      IsAccepted (freshFiles earlierDirectory) (.ofText "s.tar.gz") ["out"] earlierDirectory ∧
      (∃ m ∈ earlierDirectory, IsScene ["out"] m ∧ target ["out"] m = ["out", "b.pbrt"]) ∧
      (extract (freshFiles earlierDirectory) (.ofText "s.tar.gz") ["out"]).scene =
        .ok ["out", "a.pbrt"] ∧
      (¬ ∃ m ∈ earlierDirectory, IsScene ["out"] m ∧ target ["out"] m = ["out", "a.pbrt"]) ∧
      (loadScene (K := Float) (archiveFiles earlierDirectory) .standard ["out"] "s.tar.gz").result =
        .error (.read (.scene (missing ["out", "a.pbrt"]))) := by
  have hms : members? (archiveBytes earlierDirectory) = some earlierDirectory := by
    rw [members?_archiveBytes]
    decide +kernel
  have haccepted : IsAccepted (freshFiles earlierDirectory) (.ofText "s.tar.gz") ["out"]
      earlierDirectory :=
    ⟨Success.of_toOption (by decide +kernel), by decide +kernel⟩
  have hextract := extract_eq (find_freshFiles earlierDirectory) hms ["out"]
  have hearlier : ∀ m ∈ earlierDirectory, ∀ ps ∈ (way ["out"] m).inits,
      IsScenePlace ["out"] (ps.foldl Path.step []) →
        pathLE ["out", "a.pbrt"] (ps.foldl Path.step []) = true := by
    decide +kernel
  have hdirectory : IsFirst (IsCandidate ["out"] earlierDirectory) ["out", "a.pbrt"] := by
    refine ⟨⟨by decide +kernel, _, List.mem_cons_self, Or.inl ?_⟩, ?_⟩
    · exact ⟨["out", "a.pbrt"], by decide +kernel, by decide +kernel⟩
    · rintro k ⟨hplace, m, hm, ⟨ps, hps, rfl⟩ | ⟨-, rfl⟩⟩
      · exact hearlier m hm ps ((List.mem_inits _ _).mpr hps) hplace
      · revert m
        decide +kernel
  have hscene : (extract (freshFiles earlierDirectory) (.ofText "s.tar.gz") ["out"]).scene =
      .ok ["out", "a.pbrt"] := by
    obtain ⟨scene, hok, hfirst⟩ := exists_scene (isFree_freshFiles _) (by decide) haccepted
      ⟨_, hdirectory.1⟩
    rw [hextract, hok, hfirst.unique hdirectory]
  have htarget : target ["out"] ⟨"b.pbrt", .file []⟩ = ["out", "b.pbrt"] := by decide +kernel
  refine ⟨find_freshFiles _, hms, isFree_freshFiles _, haccepted, ?_, hscene, ?_, ?_⟩
  · refine ⟨_, List.mem_cons_of_mem _ List.mem_cons_self, ?_, htarget⟩
    exact isScene_of_isSceneName ⟨[], rfl⟩ (by decide) ⟨by decide +kernel, by decide +kernel⟩
  · rintro ⟨m, hm, ⟨⟨bytes, hkind⟩, -⟩, hplace⟩
    rcases List.mem_pair.mp hm with rfl | rfl
    · cases hkind
    · exact absurd (htarget.symm.trans hplace) (by decide)
  · refine (loadScene_missing_iff (by decide) hscene (by decide) (by decide) ?_).mpr ?_
    · change Path.HasNames (extract (freshFiles _) _ _).files.here
      rw [hextract, unpack_of_isAccepted haccepted, here_extractAll]
      exact List.forall_mem_nil _
    · change (extract (freshFiles _) _ _).files.isFile _ = false
      rw [hextract]
      decide +kernel

end Archive
end SceneReader
