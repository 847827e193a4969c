import SceneReader.Proofs.Directive.Places
import SceneReader.Proofs.File.PathText
import SceneReader.Proofs.Include.Chains

/-!
# A text at hand

A scene can be expanded from its file, or from the content of the file as a text at hand with a
directory to look its includes up in.  The two begin differently.  The file stands in the chain of
files that are being read, a text at hand does not, and its tokens may lie in a file of another
name or in none.  So every chain below is shorter by one when a text is expanded, and there is
room for one more file.

An expansion looks at the chain only to refuse a file: one that stands in it already, or any file
when the chain is full.  What is not refused is not refused with a smaller chain either, and
nothing else depends on the chain.

**Results.**
* `repeats_splice`: what is made of a text does not depend on the name of its file.
* `repeats_expand`: what can be expanded can be expanded with a smaller chain and with more room.
* `expandText_of_expandFile`: a file and its content at hand expand to the same text.
-/

namespace SceneReader

/-- A warning that is given or not, in front of a step. -/
theorem Reported.Repeats.noted {ε α β : Type} {R : α → β → Prop} {x : Reported ε α}
    {x' : Reported ε β} (p : Prop) [Decidable p] {n n' : Diagnostic}
    (h : n'.unplaced = n.unplaced) (hx : Repeats R x x') :
    Repeats R (if p then (do Reported.note n; x) else x)
      (if p then (do Reported.note n'; x') else x') := by
  split
  · exact (note h).bind fun _ _ _ _ => hx
  · exact hx

namespace Include

open Lexer Reported

/-! ## Files of other names -/

section Named

variable (file : Option String)

theorem skipToBracket_inFile (stop : Position) (ts : List Token) :
    skipToBracket stop (ts.map (Token.inFile file)) =
      ((skipToBracket stop ts).1, (skipToBracket stop ts).2.map (Token.inFile file)) := by
  induction ts generalizing stop with
  | nil => rfl
  | cons t ts ih =>
      obtain ⟨kind, lexeme, span⟩ := t
      cases kind <;> first | rfl | exact ih span.stop

theorem skipValue_inFile (stop : Position) (ts : List Token) :
    skipValue stop (ts.map (Token.inFile file)) =
      ((skipValue stop ts).1, (skipValue stop ts).2.map (Token.inFile file)) := by
  cases ts with
  | nil => rfl
  | cons t ts =>
      obtain ⟨kind, lexeme, span⟩ := t
      cases kind with
      | leftBracket => exact skipToBracket_inFile file span.stop ts
      | identifier =>
          simp only [skipValue, List.map_cons, Token.inFile]
          split <;> rfl
      | _ => rfl

theorem skipParameters_inFile (stop : Position) (ts : List Token) :
    skipParameters stop (ts.map (Token.inFile file)) =
      ((skipParameters stop ts).1, (skipParameters stop ts).2.map (Token.inFile file)) := by
  fun_induction skipParameters stop ts with
  | case1 => simp [skipParameters]
  | case2 stop t ts h _ ih =>
      have h' : (t.inFile file).string?.isSome = true := h
      have hvalue := skipValue_inFile file t.span.stop ts
      rw [List.map_cons, skipParameters, if_pos h']
      change skipParameters (skipValue t.span.stop (ts.map (Token.inFile file))).1
        (skipValue t.span.stop (ts.map (Token.inFile file))).2 = _
      rw [hvalue, ih]
  | case3 stop t ts h =>
      have h' : ¬ (t.inFile file).string?.isSome = true := h
      rw [List.map_cons, skipParameters, if_neg h']

/-- What is made of a text does not depend on the name of its file, if what stands for its
includes does not. -/
theorem repeats_splice {lines : List String}
    {replace replace' : Request → Reported ReadError (List Char)}
    (hreplace : ∀ r r' : Request, r'.path = r.path → Repeats Eq (replace r) (replace' r'))
    (offset : Nat) (cs : List Char) (ts : List Token) :
    Repeats Eq (splice lines replace offset cs ts)
      (splice lines replace' offset cs (ts.map (Token.inFile file))) := by
  fun_induction requests lines ts generalizing offset cs with
  | case1 =>
      rw [List.map_nil, splice, splice]
      exact .pure rfl
  | case2 t ht =>
      rw [splice, if_pos ht]
      exact .fail
  | case3 t ht target after hpath =>
      rw [splice, if_pos ht]
      simp only [hpath]
      exact .fail
  | case4 t ht target after path hpath hlt ih =>
      have ht' : isInclude (t.inFile file) = true := ht
      have hpath' : (target.inFile file).string? = some path := hpath
      rw [List.map_cons, List.map_cons, splice, if_pos ht, splice, if_pos ht']
      simp only [hpath, hpath']
      rw [show (target.inFile file).span.stop = target.span.stop from rfl,
        skipParameters_inFile file target.span.stop after]
      simp only [List.length_map]
      refine .noted _ rfl ?_
      refine (hreplace ⟨path, target, _⟩ ⟨path, target.inFile file, _⟩ rfl).bind ?_
      rintro body _ - rfl
      refine (ih _ _).bind ?_
      rintro rest _ - rfl
      exact .pure rfl
  | case5 t ts ht ih =>
      have ht : isInclude t = false := Bool.eq_false_iff.mpr ht
      have ht' : isInclude (t.inFile file) = false := ht
      rw [List.map_cons, splice_other ht, splice_other ht']
      exact ih offset cs

end Named

/-! ## Smaller chains -/

variable {files : FileTree} {o : Options}

/-- A file that is found and not refused is neither with a smaller chain. -/
theorem locate_of_subset {s s' : Standing} {r r' : Request} {l : Location}
    (hdirs : s'.dirs = s.dirs) (hchain : s'.chain ⊆ s.chain) (hpath : r'.path = r.path)
    (h : locate files o s r = .ok l) : locate files o s' r' = .ok l := by
  obtain ⟨hfile, hcycle⟩ := locate_eq_ok_iff.mp h
  refine locate_eq_ok_iff.mpr ⟨?_, fun hdetect hmem => hcycle hdetect (hchain hmem)⟩
  rwa [hdirs, hpath]

/-- What can be expanded can be if the includes in it can be replaced by the same. -/
theorem repeats_expand_of_replacement {room room' : Nat} {s s' : Standing}
    (h : ∀ r r', r'.path = r.path →
      Repeats Eq (replacement files o room s r) (replacement files o room' s' r'))
    (cs : List Char) : Repeats Eq (expand files o room s cs) (expand files o room' s' cs) := by
  rw [expand_eq, expand_eq]
  have htokens : Repeats (fun ts ts' => ts' = ts.map (Token.inFile s'.file))
      (.ofExcept ((tokenize (String.ofList cs) s.file).mapError ReadError.scene))
      (.ofExcept ((tokenize (String.ofList cs) s'.file).mapError ReadError.scene)) :=
    Repeats.ofExcept fun ts hts =>
      ⟨_, congrArg (Except.mapError ReadError.scene)
        (tokenize_inFile (Success.of_mapError hts) s'.file), rfl⟩
  refine htokens.bind ?_
  rintro ts _ - rfl
  exact repeats_splice s'.file h 0 cs ts

/-- What can be expanded can be expanded with a smaller chain and with more room, to the same text
and with the same warnings. -/
theorem repeats_expand {room room' : Nat} {s s' : Standing} (hroom : room ≤ room')
    (hdirs : s'.dirs = s.dirs) (hchain : s'.chain ⊆ s.chain) (cs : List Char) :
    Repeats Eq (expand files o room s cs) (expand files o room' s' cs) := by
  -- The two chains grow by the same files, and so they are compared at every depth.
  induction room generalizing room' s s' cs with
  | zero =>
      refine repeats_expand_of_replacement (fun r r' _ out hout => ?_) cs
      obtain ⟨l, -, hout⟩ := Success.of_result_bind hout
      cases hout
  | succ room ih =>
      obtain ⟨more, rfl⟩ := Nat.exists_eq_add_of_le' hroom
      refine repeats_expand_of_replacement (fun r r' hpath => ?_) cs
      have hlocate : Repeats Eq (.ofExcept (locate files o s r)) (.ofExcept (locate files o s' r')) :=
        Repeats.ofExcept fun l hl => ⟨l, locate_of_subset hdirs hchain hpath hl, rfl⟩
      refine hlocate.bind ?_
      rintro l _ - rfl
      refine (Repeats.ofExcept fun text htext => ⟨text, htext, rfl⟩).bind ?_
      rintro text _ - rfl
      have henter : (s'.enter l).dirs = (s.enter l).dirs := by
        simp only [Standing.enter, hdirs]
      have hgrown : (s'.enter l).chain ⊆ (s.enter l).chain :=
        List.append_subset.mpr ⟨List.subset_append_of_subset_left [l] hchain,
          List.subset_append_right _ _⟩
      refine (ih (Nat.le_add_left room more) henter hgrown text).bind ?_
      rintro body _ - rfl
      exact .pure rfl

/-! ## A file and its content -/

/-- The whole text of a scene, from the text without comments. -/
def whole (files : FileTree) (o : Options) (room : Nat) (s : Standing) (directory : Location)
    (stripped : List Char) : Reported ReadError String := do
  let body ← if o.expandIncludes then expand files o room s stripped else pure stripped
  return String.ofList (framed directory body)

theorem expandFile_eq {path : String} (hfile : files.isFile (Path.ofText path) = true) :
    let l := files.resolve (Path.ofText path)
    expandFile files o path = Reported.ofExcept (readStripped files o l) >>=
      whole files o (o.maxIncludeDepth.toNat - 1) (.root l) l.dropLast := by
  unfold expandFile
  simp only [hfile, Bool.not_true, Bool.false_eq_true, if_false]
  rfl

theorem isFile_of_expandFile {path text : String} (h : (expandFile files o path).result = .ok text) :
    files.isFile (Path.ofText path) = true := by
  unfold expandFile at h
  dsimp only at h
  split at h
  · cases h
  · rename_i hfile
    rwa [Bool.not_eq_true', Bool.not_eq_false] at hfile

theorem repeats_whole {room room' : Nat} {s s' : Standing} (hroom : room ≤ room')
    (hdirs : s'.dirs = s.dirs) (hchain : s'.chain ⊆ s.chain) (directory : Location)
    (stripped : List Char) :
    Repeats Eq (whole files o room s directory stripped)
      (whole files o room' s' directory stripped) := by
  unfold whole
  split
  · refine (repeats_expand hroom hdirs hchain stripped).bind ?_
    rintro body _ - rfl
    exact .pure rfl
  · exact .pure rfl

/-- If a file can be expanded, its content can be read, and expanding that as a text at hand in the
directory of the file gives the same text and the same warnings, whatever the text at hand is
called. -/
theorem expandText_of_expandFile {path text : String} (hup : ".." ∉ files.here)
    (h : (expandFile files o path).result = .ok text) (file : Option String) :
    let l := files.resolve (Path.ofText path)
    ∃ content, files.readScene (.ofLocation l) o.encoding = .ok content ∧
      let again := expandText files o (.ofLocation l.dropLast) file content
      again.result = .ok text ∧
        again.notes.map Diagnostic.unplaced =
          (expandFile files o path).notes.map Diagnostic.unplaced := by
  intro l
  have hfile := expandFile_eq (o := o) (isFile_of_expandFile h)
  rw [hfile] at h ⊢
  obtain ⟨stripped, hstripped, hbody⟩ := Success.of_result_bind h
  obtain ⟨content, hcontent, rfl⟩ := Success.of_map hstripped
  have hplace : ".." ∉ l.dropLast := fun hmem =>
    Path.resolve_not_mem_dotDot _ _ hup ((List.dropLast_sublist _).subset hmem)
  have hbase : files.resolve (.ofLocation l.dropLast) = l.dropLast :=
    Path.resolve_ofLocation hplace files.here
  let standing : Standing := ⟨file, .ofList [.ofLocation l.dropLast], []⟩
  have hagain : expandText files o (.ofLocation l.dropLast) file content =
      whole files o o.maxIncludeDepth.toNat standing l.dropLast
        (Comment.stripText content).toList := by
    unfold expandText
    rw [hbase]
    rfl
  have hdirs : standing.dirs = (Standing.root l).dirs := rfl
  have hchain : standing.chain ⊆ (Standing.root l).chain := List.nil_subset [l]
  obtain ⟨_, hresult, rfl, hnotes⟩ := repeats_whole (Nat.sub_le _ 1) hdirs hchain _ _ text hbody
  refine ⟨content, hcontent, ?_⟩
  rw [hagain, Reported.notes_bind (congrArg (Except.map _) hcontent)]
  exact ⟨hresult, hnotes⟩

/-- A file that includes another one, with a parameter behind the name. -/
def warnedFiles : FileTree :=
  ⟨[([], .directory), (["a"], .file "Include\"d/b\"\"integer n\"1 WorldBegin".toUTF8.toList),
    (["d"], .directory), (["d", "b"], .file "Identity".toUTF8.toList)], []⟩

/-- What the first file is expanded to. -/
def warnedText : String :=
  "WorkDirBegin \"/\"\nWorkDirBegin \"/d\"\nIdentity\nWorkDirEnd\n WorldBegin\nWorkDirEnd\n"

theorem expandFile_warnedFiles :
    (expandFile warnedFiles .standard "a").result = .ok warnedText := by
  have h : (expandFile warnedFiles .standard "a").result.toOption = some warnedText := by
    decide +kernel
  exact Success.of_toOption h

/-- The content of the first file is expanded as the file is, with the warning. -/
theorem expandText_of_expandFile_warnedFiles :
    ".." ∉ warnedFiles.here ∧ (expandFile warnedFiles .standard "a").result = .ok warnedText ∧
      (expandFile warnedFiles .standard "a").notes.map (·.code) = ["W212"] ∧
      ∃ content, warnedFiles.readScene (.ofLocation ["a"]) "utf-8" = .ok content ∧
        let again := expandText warnedFiles .standard (.ofLocation []) none content
        again.result = .ok warnedText ∧
          again.notes.map Diagnostic.unplaced =
            (expandFile warnedFiles .standard "a").notes.map Diagnostic.unplaced := by
  have hroot : warnedFiles.resolve (Path.ofText "a") = ["a"] := by decide +kernel
  have hagain := expandText_of_expandFile List.not_mem_nil expandFile_warnedFiles none
  rw [hroot] at hagain
  exact ⟨List.not_mem_nil, expandFile_warnedFiles, by decide +kernel, hagain⟩

end Include
end SceneReader
