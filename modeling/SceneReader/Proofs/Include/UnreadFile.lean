import SceneReader.Proofs.Include.TokenExpansion

/-!
# Files that an expansion cannot read

Includes are replaced one after the other.  What goes wrong on the way is an error of the
scene, but for what reading the target of an include comes to: a compressed file may be
corrupt.  So an expansion fails for such a reason exactly if it comes to an include whose
target cannot be read, or in whose target it comes to one.

**Results.**
* `splice_error_iff`: replacing fails at the first include that cannot be replaced.
* `expand_error_iff`: an expansion fails where it comes to a file that cannot be read.
* `readStripped_error_iff`: reading a file fails if the file is corrupt.
* `expandText_error_iff`: the expansion of a text fails where it comes to a corrupt file.
-/

namespace SceneReader
namespace Include

open Lexer

/-- An element of a list satisfies `Q`, and those before it satisfy `P`. -/
def Until {α : Type} (P Q : α → Prop) : List α → Prop
  | [] => False
  | a :: as => Q a ∨ (P a ∧ Until P Q as)

/-- The includes in a row of tokens, up to one that has no path. -/
def requests (lines : List String) : List Token → List Request
  | [] => []
  | t :: ts =>
      if isInclude t then
        match ts with
        | [] => []
        | target :: after =>
            match target.string? with
            | none => []
            | some path =>
                have : (skipParameters target.span.stop after).2.length <
                    (t :: target :: after).length :=
                  length_skipParameters_lt t target after target.span.stop
                ⟨path, target, Text.lineAt? lines t.span.start.line⟩ ::
                  requests lines (skipParameters target.span.stop after).2
      else requests lines ts
  termination_by ts => ts.length
  decreasing_by
    · exact this
    · simp

theorem until_append_cons {α : Type} {P Q : α → Prop} {before after : List α} {a : α}
    (hbefore : ∀ b ∈ before, P b) (ha : Q a) : Until P Q (before ++ a :: after) := by
  induction before with
  | nil => exact Or.inl ha
  | cons b before ih =>
      obtain ⟨hb, hbefore⟩ := List.forall_mem_cons.mp hbefore
      exact Or.inr ⟨hb, ih hbefore⟩

/-- Replacing fails at the first include that cannot be replaced. -/
theorem splice_error_of_until {lines : List String}
    {replace : Request → Reported ReadError (List Char)} {offset : Nat} {cs : List Char}
    {ts : List Token} {e : ReadError}
    (h : Until (fun r => ∃ text, (replace r).result = .ok text)
      (fun r => (replace r).result = .error e) (requests lines ts)) :
    (splice lines replace offset cs ts).result = .error e := by
  fun_induction requests lines ts generalizing offset cs with
  | case1 => exact h.elim
  | case2 t ht => exact h.elim
  | case3 t ht target after hpath => exact h.elim
  | case4 t ht target after path hpath hlt ih =>
      -- What is noted about parameters of the include does not change the result.
      rw [splice, if_pos ht]
      simp only [hpath]
      rw [result_noted, Success.result_bind_eq_error_iff]
      rcases h with h | ⟨⟨text, htext⟩, h⟩
      · exact Or.inl h
      · exact Or.inr ⟨text, htext, Success.result_bind_eq_error_iff.mpr (Or.inl (ih h))⟩
  | case5 t ts ht ih =>
      rw [splice_other (Bool.eq_false_iff.mpr ht)]
      exact ih h

/-- Replacing fails, for what is no error of the scene, only at an include that cannot be
replaced. -/
theorem splice_error_iff {lines : List String}
    {replace : Request → Reported ReadError (List Char)} {offset : Nat} {cs : List Char}
    {ts : List Token} {e : ReadError} (he : ∀ f, e ≠ .scene f) :
    (splice lines replace offset cs ts).result = .error e ↔
      Until (fun r => ∃ text, (replace r).result = .ok text)
        (fun r => (replace r).result = .error e) (requests lines ts) := by
  refine ⟨fun h => ?_, splice_error_of_until⟩
  fun_induction requests lines ts generalizing offset cs with
  | case1 =>
      rw [splice] at h
      cases h
  | case2 t ht =>
      rw [splice, if_pos ht] at h
      exact absurd (Except.error.inj h).symm (he _)
  | case3 t ht target after hpath =>
      rw [splice, if_pos ht] at h
      simp only [hpath] at h
      exact absurd (Except.error.inj h).symm (he _)
  | case4 t ht target after path hpath hlt ih =>
      rw [splice, if_pos ht] at h
      simp only [hpath] at h
      rw [result_noted, Success.result_bind_eq_error_iff] at h
      refine h.imp_right ?_
      rintro ⟨text, htext, h⟩
      rcases Success.result_bind_eq_error_iff.mp h with h | ⟨rest, -, h⟩
      · exact ⟨⟨text, htext⟩, ih h⟩
      · cases h
  | case5 t ts ht ih =>
      rw [splice_other (Bool.eq_false_iff.mpr ht)] at h
      exact ih h

/-! ## Expansions -/

/-- What stands for an include, if files may be `room` deep below. -/
def replacement (files : FileTree) (o : Options) :
    (room : Nat) → Standing → Request → Reported ReadError (List Char)
  | 0, s, r => do
      let l ← Reported.ofExcept (locate files o s r)
      .fail (r.error (.includeDepth (Location.text l) o.maxIncludeDepth))
  | room + 1, s, r => do
      let l ← Reported.ofExcept (locate files o s r)
      let text ← Reported.ofExcept (readStripped files o l)
      let body ← expand files o room (s.enter l) text
      return framed l.dropLast body

/-- An expansion comes to an include whose target has the property, at once or in the target
of an include.  The includes before are replaced. -/
def ComesTo (files : FileTree) (o : Options) (P : Location → Prop) :
    (room : Nat) → Standing → List Char → Prop
  | 0, _, _ => False
  | room + 1, s, cs => ∃ tokens, tokenize (String.ofList cs) s.file = .ok tokens ∧
      Until (fun r => ∃ text, (replacement files o (room + 1) s r).result = .ok text)
        (fun r => ∃ l, locate files o s r = .ok l ∧ (P l ∨ ∃ text,
          readStripped files o l = .ok text ∧ ComesTo files o P room (s.enter l) text))
        (requests (Text.splitLines (String.ofList cs)) tokens)

variable {files : FileTree} {o : Options}

theorem expand_eq (files : FileTree) (o : Options) (room : Nat) (s : Standing) (cs : List Char) :
    expand files o room s cs = (do
      let tokens ← Reported.ofExcept
        ((tokenize (String.ofList cs) s.file).mapError ReadError.scene)
      splice (Text.splitLines (String.ofList cs)) (replacement files o room s) 0 cs tokens) := by
  cases room <;> rfl

theorem not_until {α : Type} {P Q : α → Prop} (hQ : ∀ a, ¬ Q a) (as : List α) :
    ¬ Until P Q as := by
  induction as with
  | nil => exact id
  | cons a as ih => exact fun h => h.elim (hQ a) fun h => ih h.2

section Error

variable {s : Standing} {e : ReadError} (he : ∀ f, e ≠ .scene f)

include he

theorem locate_ne_error (r : Request) : locate files o s r ≠ .error e := by
  unfold locate
  split
  · exact fun h => he _ (Except.error.inj h).symm
  · split
    · exact fun h => he _ (Except.error.inj h).symm
    · nofun

/-- What goes wrong with an include that may not be followed is an error of the scene. -/
theorem replacement_zero_ne_error (r : Request) :
    (replacement files o 0 s r).result ≠ .error e := by
  intro h
  rcases Success.result_bind_eq_error_iff.mp h with h | ⟨l, -, h⟩
  · exact locate_ne_error he r h
  · exact he _ (Except.error.inj h).symm

theorem replacement_succ_error_iff (room : Nat) (r : Request) :
    (replacement files o (room + 1) s r).result = .error e ↔
      ∃ l, locate files o s r = .ok l ∧ (readStripped files o l = .error e ∨ ∃ text,
        readStripped files o l = .ok text ∧
          (expand files o room (s.enter l) text).result = .error e) := by
  refine Success.result_bind_eq_error_iff.trans ?_
  refine (or_iff_right (locate_ne_error he r)).trans (exists_congr fun l => and_congr_right' ?_)
  refine Success.result_bind_eq_error_iff.trans (or_congr_right ?_)
  refine exists_congr fun text => and_congr_right' ?_
  refine Success.result_bind_eq_error_iff.trans (or_iff_left ?_)
  rintro ⟨body, -, h⟩
  cases h

/-- An expansion fails at its first include that cannot be replaced. -/
theorem expand_error_iff_until (room : Nat) (cs : List Char) :
    (expand files o room s cs).result = .error e ↔
      ∃ tokens, tokenize (String.ofList cs) s.file = .ok tokens ∧
        Until (fun r => ∃ text, (replacement files o room s r).result = .ok text)
          (fun r => (replacement files o room s r).result = .error e)
          (requests (Text.splitLines (String.ofList cs)) tokens) := by
  rw [expand_eq, Success.result_bind_eq_error_iff]
  constructor
  · rintro (h | ⟨tokens, htokens, h⟩)
    · obtain ⟨f, -, hf⟩ := Success.mapError_eq_error_iff.mp h
      exact absurd hf.symm (he f)
    · exact ⟨tokens, Success.of_mapError htokens, (splice_error_iff he).mp h⟩
  · rintro ⟨tokens, htokens, h⟩
    refine Or.inr ⟨tokens, ?_, (splice_error_iff he).mpr h⟩
    rw [htokens]
    rfl

/-- An expansion fails, for what is no error of the scene, where it comes to a file that
cannot be read. -/
theorem expand_error_iff (room : Nat) (cs : List Char) :
    (expand files o room s cs).result = .error e ↔
      ComesTo files o (fun l => readStripped files o l = .error e) room s cs := by
  induction room generalizing s cs with
  | zero =>
      rw [expand_error_iff_until he]
      refine ⟨?_, False.elim⟩
      rintro ⟨tokens, -, h⟩
      exact not_until (replacement_zero_ne_error he) _ h
  | succ room ih =>
      rw [expand_error_iff_until he]
      unfold ComesTo
      refine exists_congr fun tokens => and_congr_right' ?_
      simp only [replacement_succ_error_iff he, ih]

end Error

/-! ## Corrupt files -/

/-- The place is that of a compressed file whose stream is corrupt. -/
def IsCorrupt (files : FileTree) (l : Location) : Prop :=
  ∃ place bytes, files.find (Path.ofLocation l) = .file place bytes ∧
    (Path.ofLocation l).suffix = ".gz" ∧ Packed.Gzip.unpack bytes = .error .corrupt

section Corrupt

variable {e : ReadError} (he : ∀ f, e ≠ .scene f)

include he

theorem decodeFile_ne_error {encoding : String} (hencoding : (Encoding.ofName? encoding).isSome)
    (path : String) (bytes : List UInt8) : decodeFile path encoding bytes ≠ .error e := by
  obtain ⟨enc, henc⟩ := Option.isSome_iff_exists.mp hencoding
  unfold decodeFile
  rw [henc]
  dsimp only
  split
  · nofun
  · exact fun h => he _ (Except.error.inj h).symm

/-- What reading a file in a known encoding comes to is an error of the scene, or the file is
corrupt. -/
theorem readStripped_error_iff (hencoding : (Encoding.ofName? o.encoding).isSome) (l : Location) :
    readStripped files o l = .error e ↔ e = .corruptStream ∧ IsCorrupt files l := by
  have scene {f : SceneError} (h : ¬ IsCorrupt files l) :
      (.error (.scene f) : Except ReadError String) = .error e ↔
        e = .corruptStream ∧ IsCorrupt files l :=
    iff_of_false (fun heq => he _ (Except.error.inj heq).symm) fun hc => h hc.2
  have unfound (h : ∀ place bytes, files.find (Path.ofLocation l) ≠ .file place bytes) :
      ¬ IsCorrupt files l := fun ⟨place, bytes, hfind, _⟩ => h place bytes hfind
  rw [readStripped, Success.map_eq_error_iff, FileTree.readScene]
  cases hfind : files.find (Path.ofLocation l) with
  | missing => exact scene (unfound (by simp [hfind]))
  | blocked => exact scene (unfound (by simp [hfind]))
  | directory place => exact scene (unfound (by simp [hfind]))
  | file place bytes =>
      have decoded (bytes' : List UInt8) (h : ¬ IsCorrupt files l) :
          decodeFile (Path.ofLocation l).text o.encoding bytes' = .error e ↔
            e = .corruptStream ∧ IsCorrupt files l :=
        iff_of_false (decodeFile_ne_error he hencoding _ _) fun hc => h hc.2
      obtain ⟨enc, henc⟩ := Option.isSome_iff_exists.mp hencoding
      by_cases hgz : (Path.ofLocation l).suffix = ".gz"
      · have same (h : Packed.Gzip.unpack bytes ≠ .error .corrupt) : ¬ IsCorrupt files l := by
          rintro ⟨place', bytes', hfind', -, hcorrupt⟩
          rw [hfind] at hfind'
          cases hfind'
          exact h hcorrupt
        dsimp only
        rw [if_pos hgz, henc]
        cases hunpack : Packed.Gzip.unpack bytes with
        | ok bytes' => exact decoded bytes' (same (by simp [hunpack]))
        | error f =>
            cases f with
            | refused => exact scene (same (by simp [hunpack]))
            | corrupt =>
                refine ⟨fun h => ⟨(Except.error.inj h).symm, place, bytes, hfind, hgz, hunpack⟩, ?_⟩
                rintro ⟨rfl, -⟩
                rfl
      · dsimp only
        rw [if_neg hgz]
        exact decoded bytes fun ⟨_, _, _, hsuffix, _⟩ => hgz hsuffix

end Corrupt

/-- The expansion of a text comes to a corrupt file. -/
def ComesToCorrupt (files : FileTree) (o : Options) (base : Path) (file : Option String)
    (text : String) : Prop :=
  o.expandIncludes = true ∧
    ComesTo files o (IsCorrupt files) o.maxIncludeDepth.toNat
      ⟨file, .ofList [Path.ofLocation (files.resolve base)], []⟩ (Comment.stripText text).toList

theorem not_comesTo_false (room : Nat) (s : Standing) (cs : List Char) :
    ¬ ComesTo files o (fun _ => False) room s cs := by
  induction room generalizing s cs with
  | zero => exact id
  | succ room ih =>
      rintro ⟨tokens, -, h⟩
      refine not_until (fun r => ?_) _ h
      rintro ⟨l, -, h | ⟨text, -, h⟩⟩
      · exact h
      · exact ih _ _ h

/-- The expansion of a text fails, for what is no error of the scene, where it comes to a
corrupt file. -/
theorem expandText_error_iff {base : Path} {file : Option String} {text : String}
    {e : ReadError} (he : ∀ f, e ≠ .scene f)
    (hencoding : (Encoding.ofName? o.encoding).isSome) :
    (expandText files o base file text).result = .error e ↔
      e = .corruptStream ∧ ComesToCorrupt files o base file text := by
  unfold ComesToCorrupt expandText
  dsimp only
  cases hincludes : o.expandIncludes with
  | false => exact iff_of_false nofun fun h => Bool.false_ne_true h.2.1
  | true =>
      rw [if_pos rfl]
      refine (Success.result_bind_eq_error_iff.trans (or_iff_left ?_)).trans ?_
      · rintro ⟨body, -, h⟩
        cases h
      · rw [expand_error_iff he]
        simp only [readStripped_error_iff he hencoding, true_and]
        by_cases hcorrupt : e = .corruptStream
        · simp only [hcorrupt, true_and]
        · simp only [hcorrupt, false_and, iff_false]
          exact not_comesTo_false _ _ _

end Include
end SceneReader
