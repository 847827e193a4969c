import Mathlib.Data.List.Induction
import SceneReader.Proofs.Token.Stripping

/-!
# Stripped texts

Where stripping cuts a comment out, it stands in plain text before the cut and behind it:
the cut begins at a hash in plain text, and it ends before a line feed, behind which the text
is plain again, or at the end of the text.  So a second pass goes through the stripped text in
the same regions as the first one went through what is left of the text, and finds every
hash in a literal.

**Results.**
* `clear_strip`: no comment opens in a stripped text.
* `clear_iff`: no comment opens exactly if every hash stands in an open literal.
* `count_strip`: stripping keeps all line feeds.
* `stripText_settles`: stripping once is enough, and what it leaves of a text.
-/

namespace SceneReader
namespace Comment

variable {cs ds : List Char}

/-! ## The second pass -/

/-- Where a second pass stands when the first one stands in the region: of a comment there is
nothing left. -/
def Region.left : Region → Region
  | comment => plain
  | r => r

theorem Region.left_of_ne {r : Region} (h : r ≠ comment) : r.left = r := by
  cases r with
  | comment => exact absurd rfl h
  | _ => rfl

theorem clear_stripFrom (r : Region) (cs : List Char) : Clear r.left (stripFrom r cs) := by
  induction cs generalizing r with
  | nil => exact clear_nil r.left
  | cons c cs ih =>
      have hrest := ih (r.after c)
      by_cases hr : r = .comment
      · subst hr
        by_cases hc : c = '\n'
        · subst hc
          exact clear_cons.mpr ⟨by simp, hrest⟩
        · have hafter : Region.comment.after c = .comment := if_neg hc
          rw [hafter] at hrest
          simpa [stripFrom, Region.keeps, hc, hafter] using hrest
      · by_cases hafter : r.after c = .comment
        · -- a comment opens, and what is left behind it is plain text as before it
          have hkeeps : ¬ r.keeps c = true := by simp [Region.keeps_iff hr, hafter]
          obtain ⟨rfl, -⟩ := (Region.after_eq_comment_iff hr).mp hafter
          rw [stripFrom, if_neg hkeeps]
          rwa [hafter] at hrest ⊢
        · rw [stripFrom, if_pos ((Region.keeps_iff hr).mpr hafter), Region.left_of_ne hr]
          rw [Region.left_of_ne hafter] at hrest
          exact clear_cons.mpr ⟨mt (Region.after_eq_comment_iff hr).mpr hafter, hrest⟩

/-- No comment opens in a stripped text. -/
theorem clear_strip (cs : List Char) : Clear .plain (strip cs) :=
  clear_stripFrom .plain cs

/-! ## Hashes in literals -/

/-- Behind the text a literal is open: a quote in plain text opened it, and no quote has closed
it since. -/
def LiteralOpen (cs : List Char) : Prop :=
  ∃ front body, cs = front ++ '"' :: body ∧ Region.plain.afterAll front = .plain ∧
    ∀ part, part <+: body → Region.plain.afterAll (front ++ '"' :: part) ≠ .plain

/-- Every hash of the text stands in a literal, be it closed later on or not. -/
def HashesQuoted (cs : List Char) : Prop :=
  ∀ front back, cs = front ++ '#' :: back → LiteralOpen front

theorem LiteralOpen.ne_plain (h : LiteralOpen cs) : Region.plain.afterAll cs ≠ .plain := by
  obtain ⟨front, body, rfl, -, hopen⟩ := h
  exact hopen body (List.prefix_refl body)

theorem LiteralOpen.concat (h : LiteralOpen cs) {c : Char}
    (hc : Region.plain.afterAll (cs ++ [c]) ≠ .plain) : LiteralOpen (cs ++ [c]) := by
  obtain ⟨front, body, rfl, hplain, hopen⟩ := h
  refine ⟨front, body ++ [c], by simp, hplain, fun part hpart => ?_⟩
  rcases List.prefix_concat_iff.mp hpart with rfl | hpart
  · simpa using hc
  · exact hopen part hpart

/-- In a literal, and behind a backslash in it, a quote has opened one. -/
theorem literalOpen_of_afterAll (hplain : Region.plain.afterAll cs ≠ .plain)
    (hcomment : Region.plain.afterAll cs ≠ .comment) : LiteralOpen cs := by
  induction cs using List.reverseRecOn with
  | nil => exact absurd rfl hplain
  | append_singleton cs c ih =>
      have hstep : Region.plain.afterAll (cs ++ [c]) = (Region.plain.afterAll cs).after c := by
        rw [Region.afterAll_append, Region.afterAll_cons, Region.afterAll_nil]
      cases hr : Region.plain.afterAll cs with
      | plain =>
          -- from plain text only a quote leads into a literal
          have hc : c = '"' := by
            by_contra hquote
            rw [hstep, hr] at hplain hcomment
            by_cases hmark : c = '#'
            · exact hcomment (by simp [Region.after, hmark])
            · exact hplain (by simp [Region.after, hquote, hmark])
          subst hc
          refine ⟨cs, [], rfl, hr, fun part hpart => ?_⟩
          rw [List.prefix_nil.mp hpart]
          exact hplain
      | literal => exact (ih (by simp [hr]) (by simp [hr])).concat hplain
      | escaped => exact (ih (by simp [hr]) (by simp [hr])).concat hplain
      | comment =>
          rw [hstep, hr] at hplain hcomment
          by_cases hc : c = '\n'
          · exact absurd (if_pos hc) hplain
          · exact absurd (if_neg hc) hcomment

theorem clear_append {r : Region} :
    Clear r (cs ++ ds) ↔ Clear r cs ∧ Clear (r.afterAll cs) ds := by
  induction cs generalizing r with
  | nil => simp [clear_nil]
  | cons c cs ih => rw [List.cons_append, clear_cons, clear_cons, ih, and_assoc,
      Region.afterAll_cons]

/-- No comment opens in a text exactly if all its hashes are in literals. -/
theorem clear_iff : Clear .plain cs ↔ HashesQuoted cs := by
  constructor
  · rintro h front back rfl
    obtain ⟨hfront, hhash⟩ := clear_append.mp h
    obtain ⟨hplain, -⟩ := clear_cons.mp hhash
    exact literalOpen_of_afterAll (fun hr => hplain ⟨hr, rfl⟩)
      (afterAll_ne_comment (by decide) hfront)
  · rintro h i ⟨hhash, hplain⟩
    obtain ⟨hi, hget⟩ := List.getElem?_eq_some_iff.mp hhash
    refine (h (cs.take i) (cs.drop (i + 1)) ?_).ne_plain hplain
    rw [← hget, List.getElem_cons_drop, List.take_append_drop]

/-! ## What is kept -/

theorem count_stripFrom (r : Region) (cs : List Char) :
    (stripFrom r cs).count '\n' = cs.count '\n' := by
  induction cs generalizing r with
  | nil => rfl
  | cons c cs ih =>
      unfold stripFrom
      split
      · rw [List.count_cons, List.count_cons, ih]
      · rename_i hkeeps
        have hc : c ≠ '\n' := by
          rintro rfl
          exact hkeeps (by cases r <;> rfl)
        rw [ih, List.count_cons_of_ne hc]

/-- Stripping keeps all line feeds. -/
theorem count_strip (cs : List Char) : (strip cs).count '\n' = cs.count '\n' :=
  count_stripFrom .plain cs

/-- Stripping leaves a text as it is exactly if no comment opens in it. -/
theorem strip_eq_self_iff : strip cs = cs ↔ HashesQuoted cs := by
  rw [← clear_iff]
  constructor
  · intro h
    rw [← h]
    exact clear_strip cs
  · exact stripFrom_of_clear (by decide)

/-- A stripped text stays as it is when it is stripped again: what stripping leaves is the
texts with all their hashes in literals.  The stripped text is what is left of the text when
characters but no line feeds are taken out. -/
theorem stripText_settles (s : String) :
    stripText (stripText s) = stripText s ∧ (stripText s).toList.Sublist s.toList ∧
      (stripText s).toList.count '\n' = s.toList.count '\n' ∧
      HashesQuoted (stripText s).toList ∧ (stripText s = s ↔ HashesQuoted s.toList) := by
  have hquoted : HashesQuoted (strip s.toList) := clear_iff.mp (clear_strip s.toList)
  have hself : stripText s = s ↔ HashesQuoted s.toList := by
    rw [← strip_eq_self_iff, stripText, ← String.toList_inj, String.toList_ofList]
  refine ⟨?_, ?_, ?_, ?_, hself⟩
  · rw [stripText, stripText, String.toList_ofList, strip_eq_self_iff.mpr hquoted]
  · rw [stripText, String.toList_ofList]
    exact strip_sublist .plain s.toList
  · rw [stripText, String.toList_ofList, count_strip]
  · rwa [stripText, String.toList_ofList]

/-- A comment with a quote in it, and a literal that is not closed and ends with a backslash. -/
example : stripText "a # \"\n\"#\\" = "a \n\"#\\" := by decide +kernel

end Comment
end SceneReader
