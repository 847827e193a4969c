import SceneReader.Proofs.Include.Chains
import SceneReader.Proofs.Token.Tiling

/-!
# Includes without a path

The only error of the grammar that expansion finds by itself is an include that is not followed by
a path.  It is told of where the word stands, with the line of the word.  Such an error may
come from a file that was included: then it is an error of the innermost expansion that
has it.

**Results.**
* `splice_error_cases`: replacing fails at an include without a path, or where an include
  cannot be replaced.
* `exists_innermost`: the error of an expansion is that of a text that is expanded on the way, and
  of no file that this text includes.
* `pathless_of_innermost`: there, an error of the grammar is about an include without a path.
-/

namespace SceneReader
namespace Include

open Lexer

/-! ## Tokens that are passed over -/

theorem skipToBracket_suffix (stop : Position) (ts : List Token) :
    (skipToBracket stop ts).2 <:+ ts := by
  induction ts generalizing stop with
  | nil => exact List.suffix_refl _
  | cons t ts ih =>
      unfold skipToBracket
      split
      · exact List.suffix_cons t ts
      · exact List.suffix_refl _
      · exact (ih _).trans (List.suffix_cons t ts)

theorem skipValue_suffix (stop : Position) (ts : List Token) : (skipValue stop ts).2 <:+ ts := by
  unfold skipValue
  split
  · exact List.suffix_refl _
  · rename_i t ts
    split
    · exact (skipToBracket_suffix _ ts).trans (List.suffix_cons t ts)
    · exact List.suffix_refl _
    · split
      · exact List.suffix_cons t ts
      · exact List.suffix_refl _
    · exact List.suffix_cons t ts

theorem skipParameters_suffix (stop : Position) (ts : List Token) :
    (skipParameters stop ts).2 <:+ ts := by
  fun_induction skipParameters stop ts with
  | case1 => exact List.suffix_refl _
  | case2 stop t ts h _ ih =>
      exact ih.trans ((skipValue_suffix _ ts).trans (List.suffix_cons t ts))
  | case3 => exact List.suffix_refl _

/-! ## Errors of one text -/

/-- The error of an include that no path follows. -/
def pathless (lines : List String) (t : Token) : SceneError :=
  ⟨.wrongArguments "Include" "a quoted file path", t.span, Text.lineAt? lines t.span.start.line⟩

/-- Replacing fails at an include without a path, or where an include cannot be replaced. -/
theorem splice_error_cases {lines : List String}
    {replace : Request → Reported ReadError (List Char)} {offset : Nat} {cs : List Char}
    {ts : List Token} {e : ReadError} (h : (splice lines replace offset cs ts).result = .error e) :
    (∃ r ∈ requests lines ts, (replace r).result = .error e) ∨
      ∃ t ∈ ts, isInclude t = true ∧ e = .scene (pathless lines t) := by
  fun_induction requests lines ts generalizing offset cs with
  | case1 =>
      rw [splice] at h
      cases h
  | case2 t ht =>
      rw [splice, if_pos ht] at h
      exact Or.inr ⟨t, List.mem_cons_self, ht, (Except.error.inj h).symm⟩
  | case3 t ht target after hpath =>
      rw [splice, if_pos ht] at h
      simp only [hpath] at h
      exact Or.inr ⟨t, List.mem_cons_self, ht, (Except.error.inj h).symm⟩
  | case4 t ht target after path hpath hlt ih =>
      rw [splice, if_pos ht] at h
      simp only [hpath] at h
      rw [result_noted, Success.result_bind_eq_error_iff] at h
      rcases h with h | ⟨text, -, h⟩
      · exact Or.inl ⟨_, List.mem_cons_self, h⟩
      rcases Success.result_bind_eq_error_iff.mp h with h | ⟨rest, -, h⟩
      · have hafter := (skipParameters_suffix target.span.stop after).subset
        rcases ih h with ⟨r, hr, h⟩ | ⟨u, hu, h⟩
        · exact Or.inl ⟨r, List.mem_cons_of_mem _ hr, h⟩
        · exact Or.inr ⟨u, List.mem_cons_of_mem t (List.mem_cons_of_mem target (hafter hu)), h⟩
      · cases h
  | case5 t ts ht ih =>
      rw [splice_other (Bool.eq_false_iff.mpr ht)] at h
      refine (ih h).imp_right ?_
      rintro ⟨u, hu, h⟩
      exact ⟨u, List.mem_cons_of_mem t hu, h⟩

variable {files : FileTree} {o : Options} {p : Opened} {e : SceneError}

theorem not_grammatical_of_locate {s : Standing} {r : Request}
    (h : locate files o s r = .error (.scene e)) : e.fault.kind ≠ .grammatical := by
  unfold locate at h
  split at h
  · cases h
    exact nofun
  · split at h
    · cases h
      exact nofun
    · cases h

theorem not_grammatical_of_readStripped {l : Location}
    (h : readStripped files o l = .error (.scene e)) : e.fault.kind ≠ .grammatical := by
  have hdecode {path encoding : String} {bytes : List UInt8}
      (h : decodeFile path encoding bytes = .error (.scene e)) : e.fault.kind ≠ .grammatical := by
    unfold decodeFile at h
    split at h
    · cases h
    · split at h
      · cases h
      · cases h
        rintro ⟨⟩
  rw [readStripped, Success.map_eq_error_iff, FileTree.readScene] at h
  split at h
  · cases h
    rintro ⟨⟩
  · cases h
    rintro ⟨⟩
  · cases h
    rintro ⟨⟩
  · split at h
    · split at h
      · cases h
      · cases h
        rintro ⟨⟩
      · cases h
      · exact hdecode h
    · exact hdecode h

/-- An include that cannot be replaced for an error of the grammar has it from its file. -/
theorem exists_enters_of_inclusion {r : Request} (hr : r ∈ p.requests)
    (h : (inclusion files o (expansion files o) p.standing r).result = .error (.scene e))
    (hkind : e.fault.kind = .grammatical) :
    ∃ q, Enters files o p q ∧ (expansion files o q).result = .error (.scene e) := by
  unfold inclusion at h
  rcases Success.result_bind_eq_error_iff.mp h with h | ⟨l, hl, h⟩
  · exact absurd hkind (not_grammatical_of_locate h)
  split at h
  · cases h
    cases hkind
  · rename_i hroom
    rcases Success.result_bind_eq_error_iff.mp h with h | ⟨text, htext, h⟩
    · exact absurd hkind (not_grammatical_of_readStripped h)
    · rcases Success.result_bind_eq_error_iff.mp h with h | ⟨body, -, h⟩
      · exact ⟨_, .intro hr hl (by omega) htext, h⟩
      · cases h

/-! ## The text that an error is about -/

/-- The expansion of the text ends in the error, and that of no file that it includes does. -/
structure FailsFirst (files : FileTree) (o : Options) (p : Opened) (e : SceneError) : Prop where
  fails : (expansion files o p).result = .error (.scene e)
  own : ∀ q, Enters files o p q → (expansion files o q).result ≠ .error (.scene e)

/-- The error of an expansion is that of a text that is expanded on the way, and of no file that
this text includes. -/
theorem exists_innermost (h : (expansion files o p).result = .error (.scene e)) :
    ∃ q, Relation.ReflTransGen (Enters files o) p q ∧ FailsFirst files o q e := by
  induction p using (enters_wf files o).induction with
  | h p ih =>
      by_cases hinner : ∃ q, Enters files o p q ∧ (expansion files o q).result = .error (.scene e)
      · obtain ⟨q, hpq, hq⟩ := hinner
        obtain ⟨q', hqq', hfirst⟩ := ih q hpq hq
        exact ⟨q', .head hpq hqq', hfirst⟩
      · exact ⟨p, .refl, h, fun q hpq hq => hinner ⟨q, hpq, hq⟩⟩

/-- An error of the grammar that a text has of its own is about an include without a path. -/
theorem pathless_of_innermost (h : FailsFirst files o p e)
    (hkind : e.fault.kind = .grammatical) :
    ∃ ts, tokenize (String.ofList p.text) p.standing.file = .ok ts ∧
      ∃ t ∈ ts, isInclude t = true ∧ e = pathless (Text.splitLines (String.ofList p.text)) t := by
  obtain ⟨hfails, hown⟩ := h
  rw [expansion_eq] at hfails
  unfold pass at hfails
  cases htokens : tokenize (String.ofList p.text) p.standing.file with
  | error e' =>
      rw [htokens] at hfails
      obtain rfl : e' = e := ReadError.scene.inj (Except.error.inj hfails)
      rw [(fault_of_tokenize htokens).1] at hkind
      cases hkind
  | ok ts =>
      rw [htokens] at hfails
      refine ⟨ts, rfl, ?_⟩
      rcases splice_error_cases hfails with ⟨r, hr, hfails⟩ | ⟨t, ht, hinclude, he⟩
      · have hr : r ∈ p.requests := by
          unfold Opened.requests
          rw [htokens]
          exact hr
        obtain ⟨q, hpq, hq⟩ := exists_enters_of_inclusion hr hfails hkind
        exact absurd hq (hown q hpq)
      · exact ⟨t, ht, hinclude, ReadError.scene.inj he⟩

end Include
end SceneReader
