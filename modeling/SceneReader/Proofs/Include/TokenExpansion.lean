import SceneReader.Proofs.File.Following
import SceneReader.Proofs.Include.Reference
import SceneReader.Proofs.Success

/-!
# Expansion token by token

Includes are replaced in the text of a file by cutting it at the places of tokens.  The
text that comes out has the tokens of the reference expansion, whatever stands next to an
include and however a file ends.

**Results.**
* `leads_skipParameters`: the tokens that are skipped are those of the parameters.
* `splice_spells`: cutting and joining a text replaces tokens, if replacing does.
* `expand_spells`: so it does, however deep the includes are.
* `tokenize_expandFile`: the tokens of an expanded file are those of its expansion.
-/

namespace SceneReader
namespace Include

open Lexer

/-! ## Parameters -/

/-- A place further on in a text. -/
def Behind (place : Position) (cs : List Char) (place' : Position) (cs' : List Char) : Prop :=
  ∃ core, cs = core ++ cs' ∧ place' = place.advanceAll core

namespace Behind

variable {place place' place'' : Position} {cs cs' cs'' : List Char}

theorem refl (place : Position) (cs : List Char) : Behind place cs place cs :=
  ⟨[], rfl, rfl⟩

theorem trans (h : Behind place cs place' cs') (h' : Behind place' cs' place'' cs'') :
    Behind place cs place'' cs'' := by
  obtain ⟨core, rfl, rfl⟩ := h
  obtain ⟨core', rfl, rfl⟩ := h'
  exact ⟨core ++ core', by simp, (Position.advanceAll_append _ _ _).symm⟩

/-- Behind a token. -/
theorem token {gap rest lexeme : List Char} {c : Char} {kind : TokenKind}
    (hgap : takeGap false cs = (gap, c :: rest))
    (htoken : scanToken c rest = .token kind lexeme cs') :
    Behind place cs ((place.advanceAll gap).advanceAll lexeme) cs' := by
  refine ⟨gap ++ lexeme, ?_, (Position.advanceAll_append _ _ _).symm⟩
  rw [← gap_append_token hgap htoken, List.append_assoc]

end Behind

/-- A row of tokens further on in a text. -/
def Leads (file : Option String) (place : Position) (cs : List Char) (ps : List Piece)
    (left : Position × List Token) : Prop :=
  ∃ cs', Behind place cs left.1 cs' ∧ Row file left.1 cs' ps left.2

theorem leads_skipToBracket {file : Option String} {place : Position} {cs : List Char}
    {ps : List Piece} {ts : List Token} (h : Row file place cs ps ts) :
    Leads file place cs ((ps.dropWhile (fun q => !q.closes)).drop 1)
      (skipToBracket place ts) := by
  induction h with
  | @done place cs gap hgap => exact ⟨cs, .refl place cs, .done hgap⟩
  | @token place start stop cs gap rest lexeme after c kind ps ts hgap htoken hstart hstop h ih =>
      subst hstart hstop
      have hbehind : Behind place cs _ after := .token hgap htoken
      have further (hopen : Piece.closes ⟨kind, String.ofList lexeme⟩ = false) :
          Leads file place cs
            (((⟨kind, String.ofList lexeme⟩ :: ps).dropWhile (fun q => !q.closes)).drop 1)
            (skipToBracket ((place.advanceAll gap).advanceAll lexeme) ts) := by
        obtain ⟨cs', hbehind', hrow⟩ := ih
        rw [List.dropWhile_cons_of_pos (by simp [hopen])]
        exact ⟨cs', hbehind.trans hbehind', hrow⟩
      cases kind with
      | rightBracket => exact ⟨after, hbehind, h⟩
      | endOfInput => exact absurd rfl (kind_ne_endOfInput htoken)
      | number x => exact further rfl
      | malformedNumber => exact further rfl
      | string s => exact further rfl
      | identifier => exact further rfl
      | leftBracket => exact further rfl

theorem leads_skipValue {file : Option String} {place : Position} {cs : List Char}
    {ps : List Piece} {ts : List Token} (h : Row file place cs ps ts) :
    Leads file place cs (dropValue ps) (skipValue place ts) := by
  cases h with
  | done hgap => exact ⟨cs, .refl place cs, .done hgap⟩
  | @token place start stop cs gap rest lexeme after c kind ps ts hgap htoken hstart hstop h =>
      subst hstart hstop
      have hbehind : Behind place cs _ after := .token hgap htoken
      unfold skipValue dropValue
      cases kind with
      | leftBracket =>
          obtain ⟨cs', hbehind', hrow⟩ := leads_skipToBracket h
          exact ⟨cs', hbehind.trans hbehind', hrow⟩
      | endOfInput => exact absurd rfl (kind_ne_endOfInput htoken)
      | identifier =>
          simp only
          split
          · exact ⟨after, hbehind, h⟩
          · exact ⟨cs, .refl place cs, .token hgap htoken rfl rfl h⟩
      | number x => exact ⟨after, hbehind, h⟩
      | malformedNumber => exact ⟨after, hbehind, h⟩
      | string s => exact ⟨after, hbehind, h⟩
      | rightBracket => exact ⟨after, hbehind, h⟩

theorem isString_piece (t : Token) : t.piece.isString = t.string?.isSome := by
  obtain ⟨kind, lexeme, span⟩ := t
  cases kind <;> rfl

theorem leads_skipParameters {file : Option String} {place : Position} {cs : List Char}
    {ps : List Piece} {ts : List Token} (h : Row file place cs ps ts) :
    Leads file place cs (dropParameters ps) (skipParameters place ts) := by
  fun_induction skipParameters place ts generalizing cs ps with
  | case1 => cases h
  | case2 place t ts hstring hlt ih =>
      cases h with
      | done => cases hstring
      | token hgap htoken hstart hstop h =>
          subst hstart hstop
          obtain ⟨after, hbehind, hrow⟩ := leads_skipValue h
          obtain ⟨cs', hbehind', hrow'⟩ := ih hrow
          refine ⟨cs', (Behind.token hgap htoken).trans (hbehind.trans hbehind'), ?_⟩
          have hdrop := dropParameters_string ((isString_piece _).trans hstring)
          exact (hdrop _).symm ▸ hrow'
  | case3 place t ts hstring =>
      cases h with
      | done hgap => exact ⟨cs, .refl place cs, dropParameters_nil.symm ▸ .done hgap⟩
      | token hgap htoken hstart hstop h =>
          refine ⟨cs, .refl place cs, ?_⟩
          have hdrop := dropParameters_other ((isString_piece _).trans (by simpa using hstring))
          exact (hdrop _).symm ▸ .token hgap htoken hstart hstop h

/-! ## Cutting and joining -/

theorem isInclude_iff {kind : TokenKind} {lexeme : String} {span : Span} :
    isInclude ⟨kind, lexeme, span⟩ = true ↔ (⟨kind, lexeme⟩ : Piece) = .include := by
  cases kind <;> simp [isInclude, Token.identifier?, Piece.include]

/-- The text that stands for an include is framed pieces of the file that its path leads
to, whatever follows it. -/
def Replaces (files : FileTree) (o : Options) (dirs : DirectoryStack)
    (replace : Request → Reported ReadError (List Char)) : Prop :=
  ∀ r text, (replace r).result = .ok text → ∃ l inner body,
    dirs.find? files (Path.ofText r.path) = some l ∧ Holds files o l inner ∧
      Expands files o (dirs.push (Path.ofLocation l.dropLast)) inner body ∧
      ∀ cs ps, Spells cs ps → Spells (text ++ cs) (frame l.dropLast body ++ ps)

/-- A note on the way does not change how a step ends. -/
theorem result_noted {ε α : Type} (p : Prop) [Decidable p] (d : Diagnostic) (x : Reported ε α) :
    (if p then (do Reported.note d; x) else x).result = x.result := by
  split
  · exact Reported.result_bind rfl
  · rfl

/-- What an include that was replaced is made of. -/
theorem splice_include {lines : List String}
    {replace : Request → Reported ReadError (List Char)} {offset : Nat} {cs out : List Char}
    {t : Token} {ts : List Token} (ht : isInclude t = true)
    (h : (splice lines replace offset cs (t :: ts)).result = .ok out) :
    ∃ target after path line text rest, ts = target :: after ∧ target.string? = some path ∧
      (replace ⟨path, target, line⟩).result = .ok text ∧
      (splice lines replace (skipParameters target.span.stop after).1.offset
        (cs.drop ((skipParameters target.span.stop after).1.offset - offset))
        (skipParameters target.span.stop after).2).result = .ok rest ∧
      out = separated (cs.take (t.span.start.offset - offset)) ++ text ++ rest := by
  rw [splice, if_pos ht] at h
  cases ts with
  | nil => cases h
  | cons target after =>
      simp only at h
      split at h
      · cases h
      · rename_i path hpath
        rw [result_noted] at h
        obtain ⟨text, htext, h⟩ := Success.of_result_bind h
        obtain ⟨rest, hrest, h⟩ := Success.of_result_bind h
        cases h
        exact ⟨target, after, path, _, text, rest, rfl, hpath, htext, hrest, rfl⟩

theorem splice_other {lines : List String}
    {replace : Request → Reported ReadError (List Char)} {offset : Nat} {cs : List Char}
    {t : Token} {ts : List Token} (ht : isInclude t = false) :
    splice lines replace offset cs (t :: ts) = splice lines replace offset cs ts := by
  rw [splice, if_neg (by simp [ht])]

/-- An include begins with a letter. -/
theorem isDelimiter_include {c : Char} {rest lexeme after : List Char} {kind : TokenKind}
    (htoken : scanToken c rest = .token kind lexeme after)
    (h : (⟨kind, String.ofList lexeme⟩ : Piece) = .include) : isDelimiter c = false := by
  have hlexeme : lexeme = "Include".toList := by
    rw [← String.toList_ofList (l := lexeme)]
    exact congrArg (fun p => p.lexeme.toList) h
  have hhead := Lexed.lexeme_append htoken
  rw [hlexeme] at hhead
  obtain rfl : 'I' = c := (List.cons.inj hhead).1
  decide

section Offsets

variable {place : Position} {offset : Nat} {core : List Char}

theorem length_advanceAll (h : place.offset = offset + core.length) (cs : List Char) :
    (place.advanceAll cs).offset - offset = (core ++ cs).length := by
  rw [Position.offset_advanceAll, List.length_append]
  omega

theorem take_advanceAll (h : place.offset = offset + core.length) (cs ds : List Char) :
    (core ++ (cs ++ ds)).take ((place.advanceAll cs).offset - offset) = core ++ cs := by
  rw [length_advanceAll h cs, ← List.append_assoc, List.take_left]

theorem drop_advanceAll (h : place.offset = offset + core.length) (cs ds : List Char) :
    (core ++ (cs ++ ds)).drop ((place.advanceAll cs).offset - offset) = ds := by
  rw [length_advanceAll h cs, ← List.append_assoc, List.drop_left]

end Offsets

/-- What an include in a row of tokens consists of. -/
theorem leads_include {file : Option String} {place : Position} {u : List Char} {ps : List Piece}
    {t target : Token} {left : List Token} {path : String}
    (h : Row file place u ps (t :: target :: left)) (ht : isInclude t = true)
    (htarget : target.string? = some path) :
    ∃ gap c rest lexeme ps', takeGap false u = (gap, c :: rest) ∧ isDelimiter c = false ∧
      t.span.start = place.advanceAll gap ∧ ps = .include :: ⟨.string path, lexeme⟩ :: ps' ∧
      Leads file place u (dropParameters ps') (skipParameters target.span.stop left) := by
  cases h with
  | token hgap htoken hstart hstop h =>
      subst hstart hstop
      have hpiece := isInclude_iff.mp ht
      have hname := isDelimiter_include htoken hpiece
      rw [hpiece]
      cases h with
      | done => cases htarget
      | token hgap' htoken' hstart' hstop' h =>
          subst hstart' hstop'
          obtain rfl := Token.string?_eq_some_iff.mp htarget
          obtain ⟨cs, hbehind, hrow⟩ := leads_skipParameters h
          have hskipped := ((Behind.token hgap htoken).trans (.token hgap' htoken')).trans hbehind
          exact ⟨_, _, _, _, _, hgap, hname, rfl, rfl, cs, hskipped, hrow⟩

/-- Cutting and joining a text replaces the includes in it, if replacing one does.  `kept`
are the pieces between the character at `offset` and the row that is left. -/
theorem splice_spells {files : FileTree} {o : Options} {dirs : DirectoryStack}
    {lines : List String} {replace : Request → Reported ReadError (List Char)}
    (hreplace : Replaces files o dirs replace) {file : Option String} {place : Position}
    {offset : Nat} {core u out : List Char} {kept ps : List Piece} {ts : List Token}
    (hrow : Row file place u ps ts) (hkept : Scans (core ++ u) kept u)
    (hoffset : place.offset = offset + core.length)
    (h : (splice lines replace offset (core ++ u) ts).result = .ok out) :
    ∃ rest, Expands files o dirs ps rest ∧ Spells out (kept ++ rest) := by
  induction hn : ts.length using Nat.strongRecOn generalizing place offset core u out
    kept ps ts with
  | ind n ih =>
      subst hn
      cases ts with
      | nil => cases hrow
      | cons t ts =>
          cases hinclude : isInclude t with
          | true =>
              obtain ⟨target, left, path, line, text, out', rfl, htarget, htext, hout', rfl⟩ :=
                splice_include hinclude h
              obtain ⟨gap, c, rest, lexeme, ps, hgap, hname, hstart, rfl, cs,
                ⟨skipped, rfl, hplace⟩, hrow'⟩ := leads_include hrow hinclude htarget
              obtain ⟨l, inner, body, hfile, hinner, hbody, hspells⟩ := hreplace _ _ htext
              rw [hplace, drop_advanceAll hoffset] at hout'
              rw [hplace] at hrow'
              have hlength := length_skipParameters_lt t target left target.span.stop
              have hnone : Scans ([] ++ cs) [] cs := .nil cs
              obtain ⟨rest', hexpands, hout⟩ := ih _ hlength hrow' hnone rfl hout' rfl
              have hgap' := takeGap_append false (skipped ++ cs)
              rw [hgap] at hgap'
              refine ⟨_, .replace hfile hinner hbody hexpands, ?_⟩
              rw [hstart, ← hgap', take_advanceAll hoffset, List.append_assoc]
              exact spells_separated hkept hgap hname (hspells _ _ hout)
          | false =>
              rw [splice_other hinclude] at h
              cases hrow with
              | done hgap =>
                  rw [splice] at h
                  cases h
                  refine ⟨[], .done dirs, u, ?_, congrArg Prod.snd hgap⟩
                  rwa [List.append_nil]
              | @token _ _ _ _ gap rest lexeme after c kind ps _ hgap htoken hstart hstop hrow =>
                  subst hstart hstop
                  have hkeep : (⟨kind, String.ofList lexeme⟩ : Piece) ≠ .include := by
                    intro hpiece
                    rw [isInclude_iff.mpr hpiece] at hinclude
                    cases hinclude
                  have hkept' := hkept.trans (.cons hgap htoken (.nil after))
                  have htext : core ++ u = (core ++ gap ++ lexeme) ++ after := by
                    rw [← gap_append_token hgap htoken]
                    simp only [List.append_assoc]
                  have hoffset' : ((place.advanceAll gap).advanceAll lexeme).offset =
                      offset + (core ++ gap ++ lexeme).length := by
                    simp only [Position.offset_advanceAll, List.length_append]
                    omega
                  rw [htext] at h hkept'
                  obtain ⟨rest', hexpands, hspells⟩ :=
                    ih _ (by simp) hrow hkept' hoffset' h rfl
                  refine ⟨_, .keep hkeep hexpands, ?_⟩
                  simpa only [List.append_assoc, List.cons_append, List.nil_append] using hspells

/-! ## Files -/

variable {files : FileTree} {o : Options}

theorem node?_of_isFile {p : Path} (h : files.isFile p = true) :
    ∃ bytes, files.node? (files.resolve p) = some (.file bytes) := by
  unfold FileTree.isFile at h
  split at h
  · rename_i place bytes hfind
    obtain ⟨rfl, hnode⟩ := FileTree.follow_file hfind
    exact ⟨bytes, hnode⟩
  · cases h

theorem node?_of_find? {dirs : DirectoryStack} {name : Path} {l : Location}
    (h : dirs.find? files name = some l) : ∃ bytes, files.node? l = some (.file bytes) := by
  obtain ⟨p, hp, rfl⟩ := Option.map_eq_some_iff.mp h
  exact node?_of_isFile (List.find?_some hp)

theorem find?_of_locate {s : Standing} {r : Request} {l : Location}
    (h : locate files o s r = .ok l) : s.dirs.find? files (Path.ofText r.path) = some l := by
  unfold locate at h
  split at h
  · cases h
  · rename_i l' hfind
    split at h
    · cases h
    · cases h
      exact hfind

/-- What replacing does to the text of a file. -/
theorem spells_of_replaces {dirs : DirectoryStack} {lines : List String}
    {replace : Request → Reported ReadError (List Char)} (hreplace : Replaces files o dirs replace)
    {file : Option String} {cs out : List Char} {tokens : List Token}
    (htokens : tokenize (String.ofList cs) file = .ok tokens)
    (h : (splice lines replace 0 cs tokens).result = .ok out) :
    ∃ ps rest, Spells cs ps ∧ Expands files o dirs ps rest ∧ Spells out rest := by
  obtain ⟨ps, hrow⟩ := tokenize_ok_iff.mp htokens
  rw [String.toList_ofList] at hrow
  have hnone : Scans ([] ++ cs) [] cs := .nil cs
  obtain ⟨rest, hexpands, hspells⟩ := splice_spells hreplace hrow hnone rfl h
  exact ⟨ps, rest, hrow.spells, hexpands, hspells⟩

/-- An expanded text has the tokens of the expansion, however deep the includes are. -/
theorem expand_spells (hplain : PlainDirectories files) {room : Nat} {s : Standing}
    {cs out : List Char} (h : (expand files o room s cs).result = .ok out) :
    ∃ ps rest, Spells cs ps ∧ Expands files o s.dirs ps rest ∧ Spells out rest := by
  induction room generalizing s cs out with
  | zero =>
      obtain ⟨tokens, htokens, h⟩ := Success.of_result_bind h
      refine spells_of_replaces ?_ (Success.of_mapError htokens) h
      intro r text hr
      obtain ⟨l, -, hr⟩ := Success.of_result_bind hr
      cases hr
  | succ room ih =>
      obtain ⟨tokens, htokens, h⟩ := Success.of_result_bind h
      refine spells_of_replaces ?_ (Success.of_mapError htokens) h
      intro r text hr
      obtain ⟨l, hl, hr⟩ := Success.of_result_bind hr
      obtain ⟨inner, hinner, hr⟩ := Success.of_result_bind hr
      obtain ⟨body, hbody, hr⟩ := Success.of_result_bind hr
      obtain rfl : framed l.dropLast body = text := Except.ok.inj hr
      have hfile := find?_of_locate hl
      obtain ⟨bytes, hnode⟩ := node?_of_find? hfile
      obtain ⟨ps, rest, hps, hrest, hspells⟩ := ih hbody
      refine ⟨l, ps, rest, hfile, (holds_iff hinner).mpr hps, hrest, ?_⟩
      intro ds qs hds
      exact spells_framed (hplain l bytes hnode) hspells hds

/-- The tokens of an expanded file are those of its expansion, and an end. -/
theorem tokenize_expandFile (hplain : PlainDirectories files) {path text : String}
    (hincludes : o.expandIncludes = true) (h : (expandFile files o path).result = .ok text)
    (file : Option String) :
    ∃ tokens out, tokenize text file = .ok tokens ∧
      tokens.map Token.piece = out ++ [.atEnd] ∧ IsExpansion files o path out ∧
      ∀ out', IsExpansion files o path out' → out' = out := by
  unfold expandFile at h
  simp only [hincludes, if_true] at h
  split at h
  · cases h
  · rename_i hfile
    rw [Bool.not_eq_true', Bool.not_eq_false] at hfile
    obtain ⟨inner, hinner, h⟩ := Success.of_result_bind h
    obtain ⟨body, hbody, h⟩ := Success.of_result_bind h
    obtain rfl := Except.ok.inj h
    obtain ⟨bytes, hnode⟩ := node?_of_isFile hfile
    obtain ⟨ps, rest, hps, hrest, hspells⟩ := expand_spells hplain hbody
    have hnone : Spells [] [] := ⟨[], .nil [], rfl⟩
    have hall := spells_framed (hplain _ bytes hnode) hspells hnone
    rw [List.append_nil, List.append_nil] at hall
    obtain ⟨tokens, htokens, hpieces⟩ := (spells_iff file).mp hall
    have hout : IsExpansion files o path
        (frame (files.resolve (Path.ofText path)).dropLast rest) :=
      ⟨_, ps, rest, hfile, rfl, (holds_iff hinner).mpr hps, hrest, rfl⟩
    exact ⟨tokens, _, htokens, hpieces, hout, fun out' hout' => hout'.unique hout⟩

/-- A file that includes another one between brackets, with a parameter, and the other one,
which does not end its last line. -/
def gluedFiles : FileTree :=
  ⟨[([], .directory), (["a"], .file "Film[Include\"b\"\"p\"true]".toUTF8.toList),
    (["b"], .file "Sampler\"x\"# end".toUTF8.toList)], []⟩

/-- The first file expanded. -/
def gluedText : String :=
  "WorkDirBegin \"/\"\nFilm[\nWorkDirBegin \"/\"\nSampler\"x\"\nWorkDirEnd\n]\nWorkDirEnd\n"

theorem plainDirectories_gluedFiles : PlainDirectories gluedFiles :=
  plainDirectories_of_nodes (by decide)

theorem expandFile_gluedFiles : (expandFile gluedFiles .standard "a").result = .ok gluedText := by
  have h : (expandFile gluedFiles .standard "a").result.toOption = some gluedText := by
    decide +kernel
  exact Success.of_toOption h

theorem tokenize_expandFile_glued :
    ∃ tokens out, tokenize gluedText none = .ok tokens ∧
      tokens.map Token.piece = out ++ [.atEnd] ∧ IsExpansion gluedFiles .standard "a" out ∧
      ∀ out', IsExpansion gluedFiles .standard "a" out' → out' = out :=
  tokenize_expandFile plainDirectories_gluedFiles rfl expandFile_gluedFiles none

end Include
end SceneReader
