import SceneReader.Proofs.File.PathText
import SceneReader.Proofs.Include.TokenExpansion

/-!
# Where the pieces of an expansion come from

Every piece of an expanded file is a piece of some file, and then it stands where the
expansion was when it came to that file, or it belongs to a mark around the text of a file.
The marks are there for a reader of the expansion, who has to know in which directories the
names in a piece are looked up: from mark to mark the reader can keep the same directories
as the expansion had.

**Results.**
* `IsTrace.unique`: a file has one trace.
* `exists_trace`: the tokens of an expanded text are the pieces of a trace.
* `IsTrace.stands`: a piece stands in a file of its chain, whose directories are looked in.
* `IsTrace.walk`: who follows the marks has the directories of the expansion.
-/

namespace SceneReader

namespace Lexer

/-- The name that the mark in front of a file begins with. -/
def Piece.dirBegin : Piece := ⟨.identifier, "WorkDirBegin"⟩

/-- The mark behind a file. -/
def Piece.dirEnd : Piece := ⟨.identifier, "WorkDirEnd"⟩

end Lexer

namespace Include

open Lexer

variable {files : FileTree} {o : Options}

/-! ## Traces -/

/-- A piece of an expansion with where it comes from. -/
inductive Sited where
  /-- A piece of a file. -/
  | own (s : Standing) (p : Piece)
  | opening
  | directory (d : Location)
  | closing

/-- The piece without where it comes from. -/
def Sited.piece : Sited → Piece
  | own _ p => p
  | opening => .dirBegin
  | directory d => ⟨.string d.text, Text.quote d.text⟩
  | closing => .dirEnd

/-- A row of pieces in a directory between its marks. -/
def enclosed (directory : Location) (row : List Sited) : List Sited :=
  .opening :: .directory directory :: (row ++ [.closing])

theorem map_piece_enclosed (directory : Location) (row : List Sited) :
    (enclosed directory row).map Sited.piece = frame directory (row.map Sited.piece) := by
  rw [enclosed, List.map_cons, List.map_cons, List.map_append]
  rfl

/-- The pieces of a text that stands somewhere, its includes replaced. -/
inductive Unfolds (files : FileTree) (o : Options) :
    Standing → List Piece → List Sited → Prop
  | done (s : Standing) : Unfolds files o s [] []
  | keep {s : Standing} {p : Piece} {ps : List Piece} {row : List Sited} (hp : p ≠ .include)
      (h : Unfolds files o s ps row) : Unfolds files o s (p :: ps) (.own s p :: row)
  | replace {s : Standing} {path lexeme : String} {l : Location} {ps inner : List Piece}
      {body row : List Sited} (hfile : s.dirs.find? files (Path.ofText path) = some l)
      (hinner : Holds files o l inner) (hbody : Unfolds files o (s.enter l) inner body)
      (h : Unfolds files o s (dropParameters ps) row) :
      Unfolds files o s (.include :: ⟨.string path, lexeme⟩ :: ps)
        (enclosed l.dropLast body ++ row)

/-- The pieces of a text that stands somewhere, its includes replaced unless the options say
that they stay as they are. -/
inductive Fills (files : FileTree) (o : Options) (s : Standing) (ps : List Piece) :
    List Sited → Prop
  | expanded {row : List Sited} (ho : o.expandIncludes = true) (h : Unfolds files o s ps row) :
      Fills files o s ps row
  | asItIs (ho : o.expandIncludes = false) : Fills files o s ps (ps.map (.own s))

/-- The pieces of the expansion of the file at a path. -/
def IsTrace (files : FileTree) (o : Options) (path : String) (row : List Sited) : Prop :=
  ∃ l inner body, files.isFile (Path.ofText path) = true ∧ l = files.resolve (Path.ofText path) ∧
    Holds files o l inner ∧ Fills files o (.root l) inner body ∧ row = enclosed l.dropLast body

/-- A text that stands somewhere has one row of pieces. -/
theorem Unfolds.unique {s : Standing} {ps : List Piece} {row row' : List Sited}
    (h : Unfolds files o s ps row) (h' : Unfolds files o s ps row') : row = row' := by
  induction h generalizing row' with
  | done s =>
      cases h'
      rfl
  | keep hp _ ih =>
      cases h' with
      | keep _ h' => rw [ih h']
      | replace => exact absurd rfl hp
  | replace hfile hinner _ _ ihbody ih =>
      cases h' with
      | keep hp' => exact absurd rfl hp'
      | replace hfile' hinner' hbody' h' =>
          rw [hfile] at hfile'
          cases hfile'
          cases hinner.unique hinner'
          rw [ihbody hbody', ih h']

theorem Fills.unique {s : Standing} {ps : List Piece} {row row' : List Sited}
    (h : Fills files o s ps row) (h' : Fills files o s ps row') : row = row' := by
  cases h with
  | expanded ho h =>
      cases h' with
      | expanded _ h' => exact h.unique h'
      | asItIs ho' => cases ho.symm.trans ho'
  | asItIs ho =>
      cases h' with
      | expanded ho' _ => cases ho.symm.trans ho'
      | asItIs _ => rfl

/-- A file has one trace. -/
theorem IsTrace.unique {path : String} {row row' : List Sited} (h : IsTrace files o path row)
    (h' : IsTrace files o path row') : row = row' := by
  obtain ⟨l, inner, body, -, rfl, hinner, hbody, rfl⟩ := h
  obtain ⟨l, inner', body', -, rfl, hinner', hbody', rfl⟩ := h'
  cases hinner.unique hinner'
  rw [hbody.unique hbody']

/-- An expansion has a trace, wherever its text stands. -/
theorem Expands.exists_unfolds {dirs : DirectoryStack} {ps out : List Piece}
    (h : Expands files o dirs ps out) {s : Standing} (hs : s.dirs = dirs) :
    ∃ row, Unfolds files o s ps row ∧ row.map Sited.piece = out := by
  induction h generalizing s with
  | done => exact ⟨[], .done s, rfl⟩
  | @keep _ p _ _ hp _ ih =>
      obtain ⟨row, hrow, rfl⟩ := ih hs
      exact ⟨.own s p :: row, .keep hp hrow, rfl⟩
  | @replace _ _ _ l _ _ _ _ hfile hinner _ _ ihbody ih =>
      subst hs
      obtain ⟨body, hbody, rfl⟩ := ihbody (s := s.enter l) rfl
      obtain ⟨row, hrow, rfl⟩ := ih rfl
      refine ⟨_, .replace hfile hinner hbody hrow, ?_⟩
      rw [List.map_append, map_piece_enclosed]

/-- The tokens of an expanded text are the pieces of a trace, and an end. -/
theorem exists_trace (hplain : PlainDirectories files) {path text : String}
    (h : (expandFile files o path).result = .ok text) {file : Option String} {ts : List Token}
    (hts : tokenize text file = .ok ts) :
    ∃ row, IsTrace files o path row ∧ ts.map Token.piece = row.map Sited.piece ++ [.atEnd] := by
  cases hincludes : o.expandIncludes with
  | true =>
      obtain ⟨ts', out, hts', hpieces, ⟨l, inner, body, hfile, hl, hinner, hbody, rfl⟩, -⟩ :=
        tokenize_expandFile hplain hincludes h file
      obtain rfl := Except.ok.inj (hts.symm.trans hts')
      obtain ⟨row, hrow, rfl⟩ := hbody.exists_unfolds (s := .root l) rfl
      refine ⟨_, ⟨l, inner, row, hfile, hl, hinner, .expanded hincludes hrow, rfl⟩, ?_⟩
      rw [hpieces, map_piece_enclosed]
  | false =>
      unfold expandFile at h
      simp only [hincludes, Bool.false_eq_true, if_false] at h
      split at h
      · cases h
      · rename_i hfile
        rw [Bool.not_eq_true', Bool.not_eq_false] at hfile
        obtain ⟨inner, hinner, h⟩ := Success.of_result_bind h
        obtain ⟨body, hbody, h⟩ := Success.of_result_bind h
        obtain rfl := Except.ok.inj h
        obtain rfl := Except.ok.inj hbody
        obtain ⟨bytes, hnode⟩ := node?_of_isFile hfile
        obtain ⟨qs, hrow⟩ := tokenize_ok_iff.mp hts
        rw [String.toList_ofList] at hrow
        -- the text was not read by itself, but only between its marks
        obtain ⟨ps, hps⟩ := exists_spells_of_framed (hplain _ bytes hnode) hrow.spells
        have hnone : Spells [] [] := ⟨[], .nil [], rfl⟩
        have hall := spells_framed (hplain _ bytes hnode) hps hnone
        rw [List.append_nil, List.append_nil] at hall
        have hholds := (holds_iff hinner).mpr hps
        refine ⟨_, ⟨_, ps, _, hfile, rfl, hholds, .asItIs hincludes, rfl⟩, ?_⟩
        rw [hrow.map_piece, hrow.spells.unique hall, map_piece_enclosed, List.map_map]
        exact congrArg (frame _ · ++ _) (List.map_id ps).symm

/-! ## Files and their directories -/

/-- Names are looked up in the directories of the files that are being read. -/
def Standing.IsPlaced (s : Standing) : Prop :=
  s.dirs.entered = s.chain.map fun l => Path.ofLocation l.dropLast

theorem Standing.isPlaced_root (l : Location) : (Standing.root l).IsPlaced := rfl

theorem Standing.IsPlaced.enter {s : Standing} (h : s.IsPlaced) (l : Location) :
    (s.enter l).IsPlaced := by
  unfold IsPlaced Standing.enter at *
  rw [DirectoryStack.entered_push, h, List.map_append]
  rfl

/-- The piece stands in the last file of the chain, and is looked up in the directories of the
files of the chain. -/
structure Stands (files : FileTree) (o : Options) (s : Standing) (p : Piece) : Prop where
  placed : s.IsPlaced
  file : ∃ l bytes ps, s.chain.getLast? = some l ∧ files.node? l = some (.file bytes) ∧
    Holds files o l ps ∧ p ∈ ps

/-- No file has a mark of its own. -/
def Unmarked (files : FileTree) (o : Options) : Prop :=
  ∀ l bytes ps, files.node? l = some (.file bytes) → Holds files o l ps →
    .dirBegin ∉ ps ∧ .dirEnd ∉ ps

theorem unmarked_of_nodes
    (h : ∀ e ∈ files.nodes, ∀ bytes, e.2 = .file bytes →
      ∃ ps, Holds files o e.1 ps ∧ .dirBegin ∉ ps ∧ .dirEnd ∉ ps) : Unmarked files o := by
  intro l bytes ps hnode hholds
  obtain ⟨ps', hholds', hmarks⟩ := h _ (mem_nodes hnode) bytes rfl
  rwa [hholds.unique hholds']

theorem Stands.ne_marks {s : Standing} {p : Piece} (h : Stands files o s p)
    (hmarks : Unmarked files o) : p ≠ .dirBegin ∧ p ≠ .dirEnd := by
  obtain ⟨l, bytes, ps, -, hnode, hholds, hp⟩ := h.file
  obtain ⟨hbegin, hend⟩ := hmarks l bytes ps hnode hholds
  exact ⟨ne_of_mem_of_not_mem hp hbegin, ne_of_mem_of_not_mem hp hend⟩

theorem dropValue_suffix (ps : List Piece) : dropValue ps <:+ ps := by
  unfold dropValue
  split
  · exact List.suffix_refl _
  · rename_i p ps
    split
    · exact ((List.drop_suffix 1 _).trans (List.dropWhile_suffix _)).trans (List.suffix_cons p ps)
    · split
      · exact List.suffix_cons p ps
      · exact List.suffix_refl _
    · exact List.suffix_cons p ps

theorem dropParameters_suffix (ps : List Piece) : dropParameters ps <:+ ps := by
  fun_induction dropParameters ps with
  | case1 => exact List.suffix_refl _
  | case2 p ps _ ih => exact (ih.trans (dropValue_suffix ps)).trans (List.suffix_cons p ps)
  | case3 => exact List.suffix_refl _

theorem mem_enclosed {directory : Location} {row : List Sited} {s : Standing} {p : Piece} :
    .own s p ∈ enclosed directory row ↔ .own s p ∈ row := by
  simp [enclosed]

theorem Unfolds.stands {s : Standing} {ps : List Piece} {row : List Sited}
    (h : Unfolds files o s ps row) (hs : s.IsPlaced) (hps : ∀ p ∈ ps, Stands files o s p) :
    ∀ s' p, .own s' p ∈ row → Stands files o s' p := by
  induction h with
  | done => exact fun _ _ hmem => absurd hmem List.not_mem_nil
  | keep _ _ ih =>
      obtain ⟨hp, hps⟩ := List.forall_mem_cons.mp hps
      intro s' p' hmem
      rcases List.mem_cons.mp hmem with heq | hmem
      · cases heq
        exact hp
      · exact ih hs hps s' p' hmem
  | @replace s _ _ l ps _ _ _ hfile hinner _ _ ihbody ih =>
      obtain ⟨bytes, hnode⟩ := node?_of_find? hfile
      have hinside : ∀ p ∈ _, Stands files o (s.enter l) p := fun p hp =>
        ⟨hs.enter l, l, bytes, _, List.getLast?_concat, hnode, hinner, hp⟩
      have hafter : ∀ p ∈ dropParameters ps, Stands files o s p := fun p hp =>
        hps p (.tail _ (.tail _ ((dropParameters_suffix ps).subset hp)))
      intro s' p' hmem
      rcases List.mem_append.mp hmem with hmem | hmem
      · exact ihbody (hs.enter l) hinside s' p' (mem_enclosed.mp hmem)
      · exact ih hs hafter s' p' hmem

theorem Fills.stands {s : Standing} {ps : List Piece} {row : List Sited}
    (h : Fills files o s ps row) (hs : s.IsPlaced) (hps : ∀ p ∈ ps, Stands files o s p) :
    ∀ s' p, .own s' p ∈ row → Stands files o s' p := by
  cases h with
  | expanded _ h => exact h.stands hs hps
  | asItIs _ =>
      intro s' p hmem
      obtain ⟨q, hq, heq⟩ := List.mem_map.mp hmem
      cases heq
      exact hps p hq

/-- A piece of a trace stands in a file of its chain, whose directories are looked in. -/
theorem IsTrace.stands {path : String} {row : List Sited} (h : IsTrace files o path row) :
    ∀ s p, .own s p ∈ row → Stands files o s p := by
  obtain ⟨l, inner, body, hfile, rfl, hinner, hbody, rfl⟩ := h
  obtain ⟨bytes, hnode⟩ := node?_of_isFile hfile
  have hroot := Standing.isPlaced_root (files.resolve (Path.ofText path))
  have hstands : ∀ p ∈ inner, Stands files o (.root _) p := fun p hp =>
    ⟨hroot, _, bytes, inner, rfl, hnode, hinner, hp⟩
  exact fun s p hmem => hbody.stands hroot hstands s p (mem_enclosed.mp hmem)

/-! ## Following the marks -/

/-- The directories of the innermost text. -/
def dirsOf : List Standing → DirectoryStack
  | [] => .empty
  | s :: _ => s.dirs

/-- From mark to mark through a row of pieces that are no marks.  The texts that have begun and
not ended are kept, the innermost first: each is looked up in one directory more than the
text around it, the one that its mark names. -/
inductive Walk : List Standing → List Sited → Prop
  | done : Walk [] []
  | own {s : Standing} {ss : List Standing} {p : Piece} {row : List Sited}
      (hp : p ≠ .dirBegin ∧ p ≠ .dirEnd) (h : Walk (s :: ss) row) :
      Walk (s :: ss) (.own s p :: row)
  | enter {s : Standing} {ss : List Standing} {d : Location} {row : List Sited}
      (hdirs : s.dirs = (dirsOf ss).push (Path.ofText d.text)) (h : Walk (s :: ss) row) :
      Walk ss (.opening :: .directory d :: row)
  | leave {s : Standing} {ss : List Standing} {p : Path} {row : List Sited}
      (hdirs : s.dirs = (dirsOf ss).push p) (h : Walk ss row) : Walk (s :: ss) (.closing :: row)

/-- A row between its marks, and then what follows it. -/
theorem Walk.enclosed {s : Standing} {ss : List Standing} {d : Location}
    {body row : List Sited} (hdirs : s.dirs = (dirsOf ss).push (Path.ofText d.text))
    (hbody : ∀ rest, Walk (s :: ss) rest → Walk (s :: ss) (body ++ rest)) (h : Walk ss row) :
    Walk ss (Include.enclosed d body ++ row) := by
  rw [Include.enclosed, List.cons_append, List.cons_append, List.append_assoc]
  exact .enter hdirs (hbody _ (.leave hdirs h))

variable {s : Standing} {ps : List Piece} {row : List Sited}

theorem Unfolds.walk (h : Unfolds files o s ps row) (hhere : Path.HasNames files.here)
    (hdirs : ∀ p ∈ s.dirs.dirs, Path.HasNames p.parts)
    (hmarks : ∀ s p, .own s p ∈ row → p ≠ .dirBegin ∧ p ≠ .dirEnd) {ss : List Standing}
    (rest : List Sited) (hrest : Walk (s :: ss) rest) : Walk (s :: ss) (row ++ rest) := by
  induction h generalizing ss rest with
  | done => exact hrest
  | keep _ _ ih =>
      refine .own (hmarks _ _ List.mem_cons_self) (ih hdirs ?_ rest hrest)
      exact fun s' p' hmem => hmarks s' p' (List.mem_cons_of_mem _ hmem)
  | @replace s _ _ l _ _ body _ hfile _ _ _ ihbody ih =>
      have hl := Path.hasNames_dropLast (DirectoryStack.hasNames_of_find? hhere hdirs hfile)
      have hdirs' : ∀ p ∈ (s.enter l).dirs.dirs, Path.HasNames p.parts :=
        List.forall_mem_cons.mpr ⟨hl, hdirs⟩
      rw [List.append_assoc]
      refine Walk.enclosed (s := s.enter l) ?_ ?_ (ih hdirs ?_ rest hrest)
      · rw [Path.ofText_text hl]
        rfl
      · refine ihbody hdirs' fun s' p' hmem => hmarks s' p' (List.mem_append_left _ ?_)
        exact mem_enclosed.mpr hmem
      · exact fun s' p' hmem => hmarks s' p' (List.mem_append_right _ hmem)

theorem Fills.walk (h : Fills files o s ps row) (hhere : Path.HasNames files.here)
    (hdirs : ∀ p ∈ s.dirs.dirs, Path.HasNames p.parts)
    (hmarks : ∀ s p, .own s p ∈ row → p ≠ .dirBegin ∧ p ≠ .dirEnd) {ss : List Standing}
    (rest : List Sited) (hrest : Walk (s :: ss) rest) : Walk (s :: ss) (row ++ rest) := by
  cases h with
  | expanded _ h => exact h.walk hhere hdirs hmarks rest hrest
  | asItIs _ =>
      induction ps with
      | nil => exact hrest
      | cons p ps ih =>
          rw [List.map_cons] at hmarks ⊢
          refine .own (hmarks _ _ List.mem_cons_self) (ih ?_)
          exact fun s' p' hmem => hmarks s' p' (List.mem_cons_of_mem _ hmem)

/-- Who follows the marks of a trace has the directories of the expansion. -/
theorem IsTrace.walk {path : String} (h : IsTrace files o path row)
    (hhere : Path.HasNames files.here)
    (hmarks : ∀ s p, .own s p ∈ row → p ≠ .dirBegin ∧ p ≠ .dirEnd) : Walk [] row := by
  obtain ⟨l, inner, body, -, hl, -, hbody, rfl⟩ := h
  have hnames : Path.HasNames l.dropLast := by
    rw [hl]
    exact Path.hasNames_dropLast (Path.hasNames_resolve hhere (Path.hasNames_ofText path))
  rw [← List.append_nil (Include.enclosed _ _)]
  refine Walk.enclosed (s := .root l) ?_ (hbody.walk hhere ?_ ?_) .done
  · rw [Path.ofText_text hnames]
    rfl
  · exact List.forall_mem_singleton.mpr hnames
  · exact fun s p hmem => hmarks s p (mem_enclosed.mpr hmem)

end Include
end SceneReader
