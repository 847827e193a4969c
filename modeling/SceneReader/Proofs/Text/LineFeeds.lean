import Mathlib.Data.List.Induction
import Mathlib.Data.List.TakeWhile
import SceneReader.Proofs.Token.Tiling
import SceneReader.Text.Lines

/-!
# Lines between line feeds

Places count lines by line feeds, and lines are looked up in a cut at all line boundaries of
Unicode.  The two agree on a line if no boundary but line feeds stands in front of it or in it,
whatever stands behind.

**Results.**
* `IsLine.lineAt?_splitLines`: where only line feeds end lines, the line that is looked up
  is the one between the line feeds.
* `exists_isLine`: every offset of a text is in one of its lines.
* `behind_lineStart`: the place in a line has the number of the line, and the column in it.
-/

namespace SceneReader
namespace Text

/-- What stands between one line feed and the next, with what stands before and behind it. -/
structure IsLine (before line after : List Char) : Prop where
  starts : ∀ c ∈ before.getLast?, c = '\n'
  plain : '\n' ∉ line
  stops : ∀ c ∈ after.head?, c = '\n'

/-- No other character than the line feed ends a line. -/
def LineFeedsOnly (cs : List Char) : Prop := ∀ c ∈ cs, isLineBreak c = true → c = '\n'

instance (cs : List Char) : Decidable (LineFeedsOnly cs) :=
  List.decidableBAll (fun c => isLineBreak c = true → c = '\n') cs

/-! ## Looking lines up -/

section Cut

variable {line rest before after : List Char}

theorem splitLinesFrom_newline (current cs : List Char) :
    splitLinesFrom current ('\n' :: cs) =
      String.ofList current.reverse :: splitLinesFrom [] cs := by
  rw [splitLinesFrom]
  · exact if_pos rfl
  · intro _ h
    cases h

theorem splitLinesFrom_plain (current : List Char) {c : Char} (cs : List Char)
    (hc : isLineBreak c = false) :
    splitLinesFrom current (c :: cs) = splitLinesFrom (c :: current) cs := by
  rw [splitLinesFrom]
  · exact if_neg (Bool.eq_false_iff.mp hc)
  · rintro _ rfl
    cases hc

/-- Behind whole lines the cut goes on as at the start of a text. -/
theorem getElem?_splitLinesFrom_append (hfeeds : LineFeedsOnly before)
    (hstarts : ∀ c ∈ before.getLast?, c = '\n') (hbefore : before ≠ []) (current : List Char) :
    (splitLinesFrom current (before ++ rest))[before.count '\n']? =
      (splitLinesFrom [] rest)[0]? := by
  induction before generalizing current with
  | nil => exact absurd rfl hbefore
  | cons c before ih =>
      have hfeeds' : LineFeedsOnly before := fun d hd => hfeeds d (List.mem_cons_of_mem c hd)
      rw [List.cons_append]
      cases before with
      | nil =>
          obtain rfl : c = '\n' := hstarts c rfl
          rw [splitLinesFrom_newline]
          rfl
      | cons d before =>
          have hstarts' : ∀ e ∈ (d :: before).getLast?, e = '\n' := hstarts
          have hrest := ih hfeeds' hstarts' (List.cons_ne_nil d before)
          by_cases hc : c = '\n'
          · subst hc
            rw [splitLinesFrom_newline, List.count_cons_self, List.getElem?_cons_succ]
            exact hrest []
          · have hplain : isLineBreak c = false :=
              Bool.eq_false_iff.mpr fun h => hc (hfeeds c List.mem_cons_self h)
            rw [splitLinesFrom_plain current _ hplain, List.count_cons_of_ne hc]
            exact hrest (c :: current)

/-- The line that the cut has open is finished by a line feed or by the end of the text. -/
theorem getElem?_splitLinesFrom_line (hfeeds : LineFeedsOnly line) (hplain : '\n' ∉ line)
    (hstops : ∀ c ∈ after.head?, c = '\n') (current : List Char) {found : String}
    (h : (splitLinesFrom current (line ++ after))[0]? = some found) :
    found = String.ofList (current.reverse ++ line) := by
  induction line generalizing current with
  | nil =>
      rw [List.append_nil]
      cases after with
      | nil =>
          cases current with
          | nil => cases h
          | cons c current => exact (Option.some.inj h).symm
      | cons c after =>
          obtain rfl : c = '\n' := hstops c rfl
          rw [List.nil_append, splitLinesFrom_newline] at h
          exact (Option.some.inj h).symm
  | cons c line ih =>
      have hne : c ≠ '\n' := fun hc => hplain (hc ▸ List.mem_cons_self)
      have hbreak : isLineBreak c = false :=
        Bool.eq_false_iff.mpr fun h => hne (hfeeds c List.mem_cons_self h)
      rw [List.cons_append, splitLinesFrom_plain current _ hbreak] at h
      have hline := ih (fun d hd => hfeeds d (List.mem_cons_of_mem c hd))
        (fun hm => hplain (List.mem_cons_of_mem c hm)) _ h
      rw [hline, List.reverse_cons, List.append_assoc, List.singleton_append]

/-- Where only line feeds end lines, the line that is looked up is the one between the
line feeds. -/
theorem IsLine.lineAt?_splitLines (h : IsLine before line after)
    (hfeeds : LineFeedsOnly (before ++ line)) {found : String}
    (hfound : lineAt? (splitLines (String.ofList (before ++ (line ++ after))))
      (1 + before.count '\n') = some found) : found.toList = line := by
  have hbefore : LineFeedsOnly before := fun c hc => hfeeds c (List.mem_append_left line hc)
  have hline : LineFeedsOnly line := fun c hc => hfeeds c (List.mem_append_right before hc)
  have hnumber : 1 + before.count '\n' ≠ 0 := by omega
  rw [lineAt?, if_neg hnumber, Nat.add_sub_cancel_left, splitLines, String.toList_ofList] at hfound
  have hfirst : (splitLinesFrom [] (line ++ after))[0]? = some found := by
    by_cases hnil : before = []
    · subst hnil
      exact hfound
    · rwa [getElem?_splitLinesFrom_append hbefore h.starts hnil] at hfound
  rw [getElem?_splitLinesFrom_line hline h.plain h.stops [] hfirst, String.toList_ofList]
  rfl

end Cut

/-! ## The line of an offset -/

theorem exists_lineStart (front : List Char) :
    ∃ before part, front = before ++ part ∧ (∀ c ∈ before.getLast?, c = '\n') ∧ '\n' ∉ part := by
  induction front using List.reverseRecOn with
  | nil => exact ⟨[], [], rfl, nofun, List.not_mem_nil⟩
  | append_singleton front c ih =>
      by_cases hc : c = '\n'
      · subst hc
        refine ⟨front ++ ['\n'], [], (List.append_nil _).symm, fun c hlast => ?_, List.not_mem_nil⟩
        rw [List.getLast?_concat] at hlast
        exact (Option.some.inj hlast).symm
      · obtain ⟨before, part, rfl, hstarts, hpart⟩ := ih
        refine ⟨before, part ++ [c], List.append_assoc before part [c], hstarts, fun hm => ?_⟩
        rcases List.mem_append.mp hm with hm | hm
        · exact hpart hm
        · exact hc (List.mem_singleton.mp hm).symm

/-- What follows in the line, up to the next line feed. -/
def restOfLine (cs : List Char) : List Char := cs.takeWhile (· != '\n')

theorem not_mem_restOfLine (cs : List Char) : '\n' ∉ restOfLine cs := fun h => by
  simpa using List.mem_takeWhile_imp h

theorem exists_lineStop (rest : List Char) :
    ∃ after, rest = restOfLine rest ++ after ∧ ∀ c ∈ after.head?, c = '\n' := by
  refine ⟨rest.dropWhile (· != '\n'), List.takeWhile_append_dropWhile.symm, fun c hc => ?_⟩
  have hstop := List.head?_dropWhile_not (· != '\n') rest
  rw [hc] at hstop
  simpa using hstop

/-- The text up to the end of the line that the offset is in. -/
def throughLine (cs : List Char) (i : Nat) : List Char := cs.take i ++ restOfLine (cs.drop i)

/-- Every offset of a text is in one of its lines. -/
theorem exists_isLine (cs : List Char) (i : Nat) :
    ∃ before part tail after, cs.take i = before ++ part ∧ cs.drop i = tail ++ after ∧
      throughLine cs i = before ++ (part ++ tail) ∧ IsLine before (part ++ tail) after := by
  obtain ⟨before, part, hfront, hstarts, hpart⟩ := exists_lineStart (cs.take i)
  obtain ⟨after, hrest, hstops⟩ := exists_lineStop (cs.drop i)
  refine ⟨before, part, restOfLine (cs.drop i), after, hfront, hrest, ?_, hstarts, ?_, hstops⟩
  · rw [throughLine, hfront, List.append_assoc]
  · intro hm
    rcases List.mem_append.mp hm with hm | hm
    · exact hpart hm
    · exact not_mem_restOfLine _ hm

/-- The place in a line has the number of the line, and the column in it. -/
theorem behind_lineStart {before part : List Char} (hstarts : ∀ c ∈ before.getLast?, c = '\n')
    (hpart : '\n' ∉ part) : Position.behind (before ++ part) =
      ⟨1 + before.count '\n', 1 + part.length, before.length + part.length⟩ := by
  have hback : before.reverse.takeWhile (· != '\n') = [] := by
    cases hlast : before.getLast? with
    | none =>
        rw [List.getLast?_eq_none_iff.mp hlast]
        rfl
    | some c =>
        obtain ⟨front, rfl⟩ := List.getLast?_eq_some_iff.mp hlast
        rw [List.reverse_append]
        simp [hstarts c hlast]
  have hplain : ∀ c ∈ part.reverse, (c != '\n') = true := by
    intro c hc
    rw [bne_iff_ne]
    rintro rfl
    exact hpart (List.mem_reverse.mp hc)
  rw [Position.behind, List.reverse_append, List.takeWhile_append_of_pos hplain, hback,
    List.append_nil, List.length_reverse, List.count_append, List.count_eq_zero.mpr hpart,
    List.length_append]
  rfl

end Text
end SceneReader
