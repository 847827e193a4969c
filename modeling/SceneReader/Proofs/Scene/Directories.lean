import SceneReader.Proofs.Directive.Splitting
import SceneReader.Proofs.Engine.DefinitionSite
import SceneReader.Proofs.Include.ValueLists
import SceneReader.Scene.Loading

/-!
# The directories of a directive

The expansion of a file looks up includes in the directories of the files that it is in.  When
the directives are executed, these files are gone: there are only the marks around their texts,
which were quoted, joined, scanned and parsed like everything else.

**Invariant.**  Between two directives the engine is in the directories of the innermost text
that has begun.

A mark that is parsed as a value of a list is never executed, so this needs that lists are
closed in the text in which they were opened.

**Results.**
* `dirs_of_block`: one directive goes from mark to mark, or stays where it is.
* `dirs_of_blocks`: so does a row of directives.
* `dirs_of_readDirectives`: directives are executed in the directories of their files.
* `unmatchedEnd_of_splitList`: not so if a list goes on from one file to another.
-/

namespace SceneReader

open Lexer

/-! ## Directives -/

namespace Engine

open Include Grammar

variable {K : Type} [Scalar K] {c : EngineContext} {d : Directive} {s : EngineState K}
variable {ss : List Standing} {row : List Sited}

/-- The directive is parsed from the pieces. -/
def IsFrom (block : List Sited) (d : Directive) : Prop :=
  ∃ ts, Block ts d ∧ ts.map Token.piece = block.map Sited.piece

theorem name_of_text {name name' : DirectiveName} (h : name.text = name'.text) : name = name' := by
  have hfound := DirectiveName.ofText?_text name
  rw [h, DirectiveName.ofText?_text] at hfound
  exact (Option.some.inj hfound).symm

/-- What a directive consists of: the name, and pieces behind it. -/
theorem IsFrom.front {block : List Sited} (h : IsFrom block d) :
    ∃ x part, block = x :: part ∧ x.piece = ⟨.identifier, d.name.text⟩ ∧
      Inner (part.map Sited.piece) := by
  obtain ⟨_, ⟨hkind, hname, hargs, hparams⟩, hpieces⟩ := h
  obtain ⟨x, part, rfl, hx, hpart⟩ := List.map_eq_cons_iff.mp hpieces.symm
  refine ⟨x, part, rfl, ?_, ?_⟩
  · rw [hx, Token.piece, hkind, hname]
  · rw [hpart, List.map_append]
    exact hargs.inner.append hparams.inner

/-- Behind the mark in front of a text is the name of a directory, and nothing else. -/
theorem IsFrom.directory {x : Sited} {part : List Sited} (h : IsFrom (x :: part) d)
    (hd : d.name = .workDirBegin) :
    ∃ y lexeme, part = [y] ∧ y.piece = ⟨.string d.subject, lexeme⟩ := by
  obtain ⟨_, hblock, hpieces⟩ := h
  cases hblock with
  | @directive t name ts us args params hkind hname hargs hparams =>
      obtain rfl : name = .workDirBegin := hd
      have hargs : Arguments .name ts args := hargs
      have hparams : ParametersOf .name us params := hparams
      cases hargs with
      | name hcount hargs =>
          cases hparams with
          | list hshape => cases hshape
          | nothing =>
              obtain ⟨u, rfl⟩ := List.length_eq_one_iff.mp hcount
              obtain ⟨a, as, ⟨text, hu, rfl⟩, hnil, rfl⟩ := List.forall₂_cons_left_iff.mp hargs
              cases hnil
              obtain ⟨-, hpart⟩ := List.cons.inj hpieces
              obtain ⟨y, rest, rfl, hy, hrest⟩ := List.map_eq_cons_iff.mp hpart.symm
              obtain rfl := List.map_eq_nil_iff.mp hrest
              refine ⟨y, u.lexeme, rfl, ?_⟩
              rw [hy, Token.piece, hu]
              rfl

/-- Behind the mark behind a text is nothing. -/
theorem IsFrom.alone {x : Sited} {part : List Sited} (h : IsFrom (x :: part) d)
    (hd : d.name = .workDirEnd) : part = [] := by
  obtain ⟨_, hblock, hpieces⟩ := h
  cases hblock with
  | @directive t name ts us args params hkind hname hargs hparams =>
      obtain rfl : name = .workDirEnd := hd
      have hargs : Arguments .nothing ts args := hargs
      have hparams : ParametersOf .nothing us params := hparams
      cases hargs with
      | nothing =>
          cases hparams with
          | list hshape => cases hshape
          | nothing => exact List.map_eq_nil_iff.mp (List.cons.inj hpieces).2.symm

/-- One directive goes from mark to mark, or stays where it is. -/
theorem dirs_of_block {block : List Sited} (hblock : IsFrom block d)
    (hwalk : Walk ss (block ++ row)) (hclosed : closesLists none (block ++ row) = true)
    (hs : s.dirs = dirsOf ss) (hacc : (execute c d s).rejection = none) :
    ∃ ss', Walk ss' row ∧ closesLists none row = true ∧
      (execute c d s).state.dirs = dirsOf ss' := by
  obtain ⟨-, hstate, -⟩ := performed_of_accepted hacc
  obtain ⟨x, part, rfl, hx, hinner⟩ := hblock.front
  rcases hwalk.cons_cases with ⟨s', rest, p, rfl, rfl, ⟨hbegin, hend⟩, h⟩ |
    ⟨s', directory, row', rfl, hrow, hdirs, h⟩ | ⟨s', rest, p, rfl, rfl, hdirs, h⟩
  · obtain rfl : p = ⟨.identifier, d.name.text⟩ := hx
    obtain ⟨h, hclosed⟩ := Walk.inner hinner rfl h hclosed
    obtain ⟨-, es, he, -⟩ := effect_of_accepted hacc
    refine ⟨s' :: rest, h, hclosed, ?_⟩
    rw [dirs_of_effect he (fun hd => hbegin ?_) fun hd => hend ?_]
    · exact hs
    · rw [hd]
      rfl
    · rw [hd]
      rfl
  · have hd : d.name = .workDirBegin := name_of_text (congrArg Piece.lexeme hx).symm
    obtain ⟨y, lexeme, rfl, hy⟩ := hblock.directory hd
    obtain ⟨rfl, rfl⟩ := List.cons.inj hrow
    have hdirectory : directory.text = d.subject := TokenKind.string.inj (congrArg Piece.kind hy)
    refine ⟨s' :: ss, h, hclosed, ?_⟩
    rw [hstate, perform, hd]
    dsimp only [Action.run_change]
    rw [hs, ← hdirectory]
    exact hdirs.symm
  · have hd : d.name = .workDirEnd := name_of_text (congrArg Piece.lexeme hx).symm
    obtain rfl := hblock.alone hd
    refine ⟨rest, h, hclosed, ?_⟩
    rw [hstate, perform, hd]
    dsimp only [Action.run_change]
    rw [hs, dirsOf, hdirs, DirectoryStack.pop_push]
    rfl

/-- Where a text ends, there is a directory to go back from. -/
theorem accepted_of_workDirEnd {block : List Sited} (hblock : IsFrom block d)
    (hwalk : Walk ss (block ++ row)) (hs : s.dirs = dirsOf ss) (hd : d.name = .workDirEnd) :
    (execute c d s).rejection = none := by
  obtain ⟨x, part, rfl, hx, -⟩ := hblock.front
  have hpop : s.dirs.pop?.isSome := by
    rw [hd] at hx
    rcases hwalk.cons_cases with ⟨s', rest, p, -, rfl, ⟨-, hend⟩, -⟩ | ⟨_, _, _, rfl, -⟩ |
      ⟨s', rest, p, rfl, -, hdirs, -⟩
    · exact absurd hx hend
    · exact absurd (congrArg Piece.lexeme hx) (by decide)
    · rw [hs, dirsOf, hdirs, DirectoryStack.pop_push]
      rfl
  obtain ⟨p, hpop⟩ := Option.isSome_iff_exists.mp hpop
  have hphase : phaseFault? s.phase d.name = none := by
    rw [hd]
    rfl
  rw [execute_eq]
  dsimp only
  unfold attempt checkPhase orRefuse handle leaveDirectory Progress.andThen
  dsimp only
  rw [hphase, hd]
  dsimp only [Option.map_none]
  rw [hpop]

/-- A row of directives goes from mark to mark. -/
theorem dirs_of_blocks {blocks : List (List Sited)} {ds : List Directive}
    (h : List.Forall₂ IsFrom blocks ds) (hwalk : Walk ss (blocks.flatten ++ row))
    (hclosed : closesLists none (blocks.flatten ++ row) = true) (hs : s.dirs = dirsOf ss)
    (hacc : (executeAll c ds s).rejection = none) :
    ∃ ss', Walk ss' row ∧ closesLists none row = true ∧
      (executeAll c ds s).state.dirs = dirsOf ss' := by
  induction h generalizing ss s with
  | nil => exact ⟨ss, hwalk, hclosed, hs⟩
  | cons hblock _ ih =>
      obtain ⟨hd, hds⟩ := accepted_cons_iff.mp hacc
      rw [List.flatten_cons, List.append_assoc] at hwalk hclosed
      obtain ⟨ss', hwalk', hclosed', hs'⟩ := dirs_of_block hblock hwalk hclosed hs hd
      rw [state_cons hd]
      exact ih hwalk' hclosed' hs' hds

/-! ## Whole files -/

/-- Directives that were parsed from the pieces of a row are parsed from parts of it. -/
theorem exists_blocks {tokens : List (List Token)} {ds : List Directive}
    (h : List.Forall₂ Block tokens ds)
    (hrow : tokens.flatten.map Token.piece = row.map Sited.piece) :
    ∃ blocks, blocks.flatten = row ∧ List.Forall₂ IsFrom blocks ds := by
  induction h generalizing row with
  | nil => exact ⟨[], (List.map_eq_nil_iff.mp hrow.symm).symm, .nil⟩
  | cons hblock _ ih =>
      rw [List.flatten_cons, List.map_append] at hrow
      obtain ⟨block, rest, rfl, hblock', hrest⟩ := List.map_eq_append_iff.mp hrow.symm
      obtain ⟨blocks, rfl, hblocks⟩ := ih hrest.symm
      exact ⟨block :: blocks, rfl, .cons ⟨_, hblock, hblock'.symm⟩ hblocks⟩

/-- The directives of a file are parsed from the pieces of its trace. -/
theorem exists_blocks_of_readDirectives {files : FileTree} {o : Options} {path text : String}
    {ds : List Directive} (hplain : PlainDirectories files)
    (h : (readDirectives files o path).result = .ok (ds, text)) :
    ∃ blocks : List (List Sited), IsTrace files o path blocks.flatten ∧
      List.Forall₂ IsFrom blocks ds := by
  obtain ⟨text', hexpand, h⟩ := Success.of_result_bind h
  obtain ⟨ds', hds, h⟩ := Success.of_result_bind h
  obtain ⟨rfl, rfl⟩ := Prod.mk.inj (Except.ok.inj h)
  obtain ⟨ts, hts, hparse⟩ := Success.of_result_bind (Success.of_mapError hds)
  obtain ⟨body, last, hbody, hlast, hnotEnd⟩ := Parser.exists_body_of_tokenize hts
  obtain ⟨tokens, ⟨last', hlast', htokens⟩, hblocks⟩ :=
    Parser.exists_split_of_parse hparse hbody hnotEnd hlast
  obtain ⟨row, htrace, hrow⟩ := exists_trace hplain hexpand hts
  rw [htokens, List.map_append] at hrow
  obtain ⟨hpieces, -⟩ := List.append_inj' hrow rfl
  obtain ⟨blocks, rfl, hfrom⟩ := exists_blocks hblocks hpieces
  exact ⟨blocks, htrace, hfrom⟩

/-- Where a run comes to when the directives of some blocks are executed. -/
theorem dirs_of_started {blocks : List (List Sited)} {ds : List Directive}
    (h : List.Forall₂ IsFrom blocks ds) (hwalk : Walk [] blocks.flatten)
    (hclosed : closesLists none blocks.flatten = true) {i : Nat} {block : List Sited}
    (hblock : blocks[i]? = some block)
    (hacc : (started (K := K) c (ds.take i) .empty).rejection = none) :
    ∃ ss rest, Walk ss (block ++ rest) ∧
      (started (K := K) c (ds.take i) .empty).state.dirs = dirsOf ss := by
  obtain ⟨hi, rfl⟩ := List.getElem?_eq_some_iff.mp hblock
  have hsplit : blocks.flatten =
      (blocks.take i).flatten ++ (blocks[i] ++ (blocks.drop (i + 1)).flatten) := by
    rw [← List.flatten_cons, ← List.flatten_append, List.getElem_cons_drop, List.take_append_drop]
  rw [hsplit] at hwalk hclosed
  rw [started_eq] at hacc ⊢
  obtain ⟨ss, hwalk', -, hdirs⟩ := dirs_of_blocks (List.forall₂_take i h) hwalk hclosed rfl hacc
  exact ⟨ss, _, hwalk', hdirs⟩

omit [Scalar K] in
theorem dirs_finish (s : EngineState K) : (finish.run s).state.dirs = s.dirs := by
  rcases finish_run s with ⟨hs, -⟩ | ⟨es, ⟨s₁, es₁, hc, hs, -⟩, -⟩
  · rw [hs]
  · rw [hs]
    exact hc.unchanged.2.2

/-- How a run over directives goes through the files of their blocks. -/
structure GoesThroughFiles (K : Type) [Scalar K] (c : EngineContext) (blocks : List (List Sited))
    (ds : List Directive) : Prop where
  /-- A directive of a file is executed in the directories in which the includes of that file
  were looked up. -/
  inside : ∀ i s p part, blocks[i]? = some (.own s p :: part) →
    (started (K := K) c (ds.take i) .empty).rejection = none →
    (started (K := K) c (ds.take i) .empty).state.dirs = s.dirs
  /-- There is always a directory to go back from. -/
  leaves : ∀ i d, ds[i]? = some d → d.name = .workDirEnd →
    (started (K := K) c (ds.take i) .empty).rejection = none →
    (execute c d (started (K := K) c (ds.take i) .empty).state).rejection = none
  ends : (run (K := K) c ds (.initial .empty)).rejection = none →
    (run (K := K) c ds (.initial .empty)).state.dirs = .empty

theorem goesThroughFiles {blocks : List (List Sited)} {ds : List Directive}
    (h : List.Forall₂ IsFrom blocks ds) (hwalk : Walk [] blocks.flatten)
    (hclosed : closesLists none blocks.flatten = true) (c : EngineContext) :
    GoesThroughFiles K c blocks ds where
  inside i s p part hblock hacc := by
    obtain ⟨ss, rest, hwalk', hdirs⟩ := dirs_of_started h hwalk hclosed hblock hacc
    rcases hwalk'.cons_cases with ⟨s', below, p', rfl, hown, -⟩ | ⟨_, _, _, hown, -⟩ |
      ⟨_, _, _, -, hown, -⟩
    · cases hown
      exact hdirs
    · cases hown
    · cases hown
  leaves i d hd hname hacc := by
    obtain ⟨hi, rfl⟩ := List.getElem?_eq_some_iff.mp hd
    have hi' : i < blocks.length := h.length_eq ▸ hi
    have hblock := List.getElem?_eq_getElem hi'
    obtain ⟨ss, rest, hwalk', hdirs⟩ := dirs_of_started h hwalk hclosed hblock hacc
    exact accepted_of_workDirEnd (h.get hi' hi) hwalk' hdirs hname
  ends hrun := by
    have hwhole : run (K := K) c ds (.initial .empty) =
        (started c ds .empty).andThen (Progress.ofAction finish) := rfl
    rw [hwhole] at hrun ⊢
    unfold Progress.andThen at hrun ⊢
    cases hacc : (started (K := K) c ds .empty).rejection with
    | some r =>
        rw [hacc] at hrun
        cases hacc.symm.trans hrun
    | none =>
        rw [started_eq] at hacc ⊢
        rw [← List.append_nil blocks.flatten] at hwalk hclosed
        obtain ⟨ss, hwalk', -, hdirs⟩ := dirs_of_blocks h hwalk hclosed rfl hacc
        cases hwalk'
        exact (dirs_finish _).trans hdirs

/-- A file is read into directives that are executed in the directories of their files: each
is parsed from a part of the trace of the file, and where the part stands in a file, the
directories of the engine are those of the files of the chain, in which the includes of the
file were looked up.  It needs that no list of values goes on from one file to another. -/
theorem dirs_of_readDirectives {files : FileTree} {o : Options} {path text : String}
    {ds : List Directive} (hplain : PlainDirectories files) (hhere : Path.HasNames files.here)
    (hmarks : Unmarked files o) (hread : (readDirectives files o path).result = .ok (ds, text)) :
    ∃ blocks : List (List Sited), IsTrace files o path blocks.flatten ∧
      (∀ row, IsTrace files o path row → row = blocks.flatten) ∧
      List.Forall₂ IsFrom blocks ds ∧
      (∀ s p, .own s p ∈ blocks.flatten → Stands files o s p) ∧
      (closesLists none blocks.flatten = true →
        ∀ c : EngineContext, GoesThroughFiles K c blocks ds) := by
  obtain ⟨blocks, htrace, hfrom⟩ := exists_blocks_of_readDirectives hplain hread
  have hstands := htrace.stands
  have hwalk : Walk [] blocks.flatten :=
    htrace.walk hhere fun s p hmem => (hstands s p hmem).ne_marks hmarks
  exact ⟨blocks, htrace, fun row hrow => hrow.unique htrace, hfrom, hstands,
    fun hclosed c => goesThroughFiles hfrom hwalk hclosed c⟩

/-- A name. -/
def word (s : String) : Piece := ⟨.identifier, s⟩

/-- A string. -/
def quoted (s : String) : Piece := ⟨.string s, Text.quote s⟩

/-- A file that includes another one, from which a third one is included that lies beside the
first. -/
def nestedFiles : FileTree :=
  ⟨[([], .directory), (["a"], .file "Include\"d/b\"Identity".toUTF8.toList),
    (["c"], .file "Identity".toUTF8.toList), (["d"], .directory),
    (["d", "b"], .file "Include\"c\"Identity#".toUTF8.toList)], []⟩

/-- The trace of the first file. -/
def nestedRow : List Sited :=
  let outer := Standing.root ["a"]
  let inner := outer.enter ["d", "b"]
  enclosed [] (enclosed ["d"] (enclosed [] [.own (inner.enter ["c"]) (word "Identity")] ++
    [.own inner (word "Identity")]) ++ [.own outer (word "Identity")])

theorem holds_outer : Holds nestedFiles .standard ["a"]
    [.include, quoted "d/b", word "Identity"] :=
  holds_of_spells (by decide +kernel : _ = some "Include\"d/b\"Identity".toList)
    ⟨[], .cons rfl rfl (.cons rfl rfl (.cons rfl rfl (.nil []))), rfl⟩

theorem holds_inner : Holds nestedFiles .standard ["d", "b"]
    [.include, quoted "c", word "Identity"] :=
  holds_of_spells (by decide +kernel : _ = some "Include\"c\"Identity".toList)
    ⟨[], .cons rfl rfl (.cons rfl rfl (.cons rfl rfl (.nil []))), rfl⟩

theorem holds_innermost : Holds nestedFiles .standard ["c"] [word "Identity"] :=
  holds_of_spells (by decide +kernel : _ = some "Identity".toList)
    ⟨[], .cons rfl rfl (.nil []), rfl⟩

theorem unmarked_nestedFiles : Unmarked nestedFiles .standard := by
  refine unmarked_of_nodes fun e he bytes hbytes => ?_
  simp only [nestedFiles, List.mem_cons, List.not_mem_nil, or_false] at he
  rcases he with rfl | rfl | rfl | rfl | rfl
  · cases hbytes
  · exact ⟨_, holds_outer, by simp [word, quoted, Piece.include, Piece.dirBegin, Piece.dirEnd]⟩
  · exact ⟨_, holds_innermost, by simp [word, Piece.dirBegin, Piece.dirEnd]⟩
  · cases hbytes
  · exact ⟨_, holds_inner, by simp [word, quoted, Piece.include, Piece.dirBegin, Piece.dirEnd]⟩

theorem isTrace_nestedRow : IsTrace nestedFiles .standard "a" nestedRow := by
  have hword : word "Identity" ≠ .include := by simp [word, Piece.include]
  have hone (s : Standing) : Unfolds nestedFiles .standard s (dropParameters [word "Identity"])
      [.own s (word "Identity")] := by
    rw [dropParameters_other rfl]
    exact .keep hword (.done s)
  refine ⟨["a"], _, _, by decide +kernel, by decide +kernel, holds_outer, .expanded rfl ?_, rfl⟩
  refine .replace (by decide +kernel) holds_inner ?_ (hone _)
  exact .replace (by decide +kernel) holds_innermost (.keep hword (.done _)) (hone _)

/-- From the second file on, the third one is found beside the first. -/
theorem dirs_of_readDirectives_nestedFiles :
    PlainDirectories nestedFiles ∧ Path.HasNames nestedFiles.here ∧
      Unmarked nestedFiles .standard ∧
      ∃ ds text blocks, (readDirectives nestedFiles .standard "a").result = .ok (ds, text) ∧
        blocks.flatten = nestedRow ∧ closesLists none nestedRow = true ∧
        List.Forall₂ IsFrom blocks ds ∧
        GoesThroughFiles Float ⟨nestedFiles, [], none⟩ blocks ds := by
  have hplain : PlainDirectories nestedFiles := plainDirectories_of_nodes (by decide)
  have hhere : Path.HasNames nestedFiles.here := List.forall_mem_nil _
  have hread : (readDirectives nestedFiles .standard "a").result.toOption.isSome := by
    decide +kernel
  cases hresult : (readDirectives nestedFiles .standard "a").result with
  | error e =>
      rw [hresult] at hread
      cases hread
  | ok r =>
      obtain ⟨blocks, -, hunique, hfrom, -, hgoes⟩ :=
        dirs_of_readDirectives (K := Float) hplain hhere unmarked_nestedFiles hresult
      have hrow := hunique nestedRow isTrace_nestedRow
      rw [← hrow] at hgoes
      exact ⟨hplain, hhere, unmarked_nestedFiles, r.1, r.2, blocks, rfl, hrow.symm, rfl, hfrom,
        hgoes rfl _⟩

/-- A list of values that is opened in a file and closed in another one. -/
def splitFiles : FileTree :=
  ⟨[([], .directory),
    (["a"], .file "WorldBegin Shape\"sphere\"\"string t\"[Include\"d/b\"".toUTF8.toList),
    (["d"], .directory), (["d", "b"], .file "]".toUTF8.toList)], []⟩

theorem unmarked_splitFiles : Unmarked splitFiles .standard := by
  have houter : Holds splitFiles .standard ["a"] [word "WorldBegin", word "Shape",
      quoted "sphere", quoted "string t", ⟨.leftBracket, "["⟩, .include, quoted "d/b"] :=
    holds_of_spells
      (by decide +kernel :
        _ = some "WorldBegin Shape\"sphere\"\"string t\"[Include\"d/b\"".toList)
      ⟨[], .cons rfl rfl (.cons rfl rfl (.cons rfl rfl (.cons rfl rfl (.cons rfl rfl
        (.cons rfl rfl (.cons rfl rfl (.nil []))))))), rfl⟩
  have hinner : Holds splitFiles .standard ["d", "b"] [⟨.rightBracket, "]"⟩] :=
    holds_of_spells (by decide +kernel : _ = some "]".toList)
      ⟨[], .cons rfl rfl (.nil []), rfl⟩
  refine unmarked_of_nodes fun e he bytes hbytes => ?_
  simp only [splitFiles, List.mem_cons, List.not_mem_nil, or_false] at he
  rcases he with rfl | rfl | rfl | rfl
  · cases hbytes
  · exact ⟨_, houter, by simp [word, quoted, Piece.include, Piece.dirBegin, Piece.dirEnd]⟩
  · cases hbytes
  · exact ⟨_, hinner, by simp [Piece.dirBegin, Piece.dirEnd]⟩

/-- The mark in front of the second file is a value of the list, and so there is no directory
to go back from where the first file ends. -/
theorem unmatchedEnd_of_splitList :
    PlainDirectories splitFiles ∧ Path.HasNames splitFiles.here ∧ Unmarked splitFiles .standard ∧
      ∃ ds text, (readDirectives splitFiles .standard "a").result = .ok (ds, text) ∧
        ∃ span line, (run (K := Float) ⟨splitFiles, [], none⟩ ds (.initial .empty)).rejection =
          some (.scene ⟨.unmatchedEnd "WorkDirEnd", span, line⟩) := by
  have hplain : PlainDirectories splitFiles := plainDirectories_of_nodes (by decide)
  have hfault : ((readDirectives splitFiles .standard "a").result.toOption.bind fun r =>
      (run (K := Float) ⟨splitFiles, [], none⟩ r.1 (.initial .empty)).rejection.bind fun
        | .scene e => some e.fault
        | .transform _ => none) = some (.unmatchedEnd "WorkDirEnd") := by
    decide +kernel
  refine ⟨hplain, List.forall_mem_nil _, unmarked_splitFiles, ?_⟩
  obtain ⟨⟨ds, text⟩, hread, hrun⟩ := Option.bind_eq_some_iff.mp hfault
  obtain ⟨r, hr, hrefused⟩ := Option.bind_eq_some_iff.mp hrun
  cases hresult : (readDirectives splitFiles .standard "a").result with
  | error e =>
      rw [hresult] at hread
      cases hread
  | ok r' =>
      rw [hresult] at hread
      cases hread
      cases r with
      | transform f => cases hrefused
      | scene e =>
          obtain ⟨fault, span, line⟩ := e
          cases hrefused
          exact ⟨ds, text, rfl, span, line, hr⟩

end Engine
end SceneReader
