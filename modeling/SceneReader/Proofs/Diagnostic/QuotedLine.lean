import SceneReader.Diagnostic.Basic
import SceneReader.Proofs.Text.LineFeeds
import Mathlib.Data.Nat.Digits.Defs

/-!
# The line under a diagnostic

A diagnostic with a place shows the line in which its span starts, and carets under the span.
Here the line is one that was looked up by its number.  If no other boundary than line feeds
stands before its end, it is the line of the text that the span starts in, and the carets of
a span on this line are under the characters of the span.

The number in front of the line has room for three digits, and carets are indented by as much.

**Results.**
* `Span.IsIn.exists_line`: the line that a span starts in, and the characters of the span.
* `overCarets_append`, `overCarets_replicate`: the characters over carets.
* `length_lineNumber`: up to three digits take up the same room.
* `quotesLine_of_shows`: the line of a diagnostic, and its carets.
-/

namespace SceneReader

open Lexer (between)

/-- The span is that of one or more characters of the text. -/
def Span.IsIn (s : Span) (cs : List Char) : Prop :=
  ∃ i j, i < j ∧ j ≤ cs.length ∧ s.start = .ofOffset cs i ∧ s.stop = .ofOffset cs j

/-- The line is the one that is found by the number of the line in which the span starts, and the
span is in the text, or there is no line. -/
def Shows (text : String) (span : Span) (line : Option String) : Prop :=
  line = none ∨ (span.IsIn text.toList ∧
    line = Text.lineAt? (Text.splitLines text) span.start.line)

/-! ## Spans in a line -/

theorem take_add_between {cs : List Char} {i j : Nat} (h : i ≤ j) :
    cs.take j = cs.take i ++ between cs i j := by
  have hi : (cs.take j).take i = cs.take i := by rw [List.take_take, Nat.min_eq_left h]
  rw [between, ← hi, List.take_append_drop]

/-- A stretch without line feeds lies in one line. -/
theorem between_of_plain {cs tail after : List Char} {i j : Nat} (hcs : cs.drop i = tail ++ after)
    (hstops : ∀ c ∈ after.head?, c = '\n') (hplain : '\n' ∉ between cs i j) :
    between cs i j = tail.take (j - i) := by
  have hbetween : between cs i j = (tail ++ after).take (j - i) := by
    rw [between, List.drop_take, hcs]
  rw [hbetween] at hplain ⊢
  rw [List.take_append] at hplain ⊢
  cases hrest : after.take (j - i - tail.length) with
  | nil => rw [List.append_nil]
  | cons c rest =>
      cases after with
      | nil => cases List.take_nil.symm.trans hrest
      | cons d after =>
          obtain rfl : d = '\n' := hstops d rfl
          have hmem : '\n' ∈ ('\n' :: after).take (j - i - tail.length) := by
            cases hcount : j - i - tail.length with
            | zero =>
                rw [hcount] at hrest
                cases hrest
            | succ count => exact List.mem_cons_self
          exact absurd (List.mem_append_right _ hmem) hplain

/-- The line that a span starts in.  A span on one line goes over the next characters of it. -/
theorem Span.IsIn.exists_line {s : Span} {cs : List Char} (h : s.IsIn cs) :
    ∃ before part tail after, cs = before ++ ((part ++ tail) ++ after) ∧
      Text.throughLine cs s.start.offset = before ++ (part ++ tail) ∧
      Text.IsLine before (part ++ tail) after ∧
      s.start = ⟨1 + before.count '\n', 1 + part.length, before.length + part.length⟩ ∧
      (s.start.line = s.stop.line → ∃ count, 0 < count ∧
        s.stop.column = s.start.column + count ∧
        between cs s.start.offset s.stop.offset = tail.take count) := by
  obtain ⟨i, j, hlt, hle, hstart, hstop⟩ := h
  have hoffset : s.start.offset = i := by rw [hstart, Position.offset_ofOffset (by omega)]
  have hoffset' : s.stop.offset = j := by rw [hstop, Position.offset_ofOffset hle]
  obtain ⟨before, part, tail, after, hfront, hback, hthrough, hisLine⟩ := Text.exists_isLine cs i
  have hpart : '\n' ∉ part := fun hm => hisLine.plain (List.mem_append_left tail hm)
  have hplace : s.start =
      ⟨1 + before.count '\n', 1 + part.length, before.length + part.length⟩ := by
    rw [hstart, Position.ofOffset, hfront, Text.behind_lineStart hisLine.starts hpart]
  refine ⟨before, part, tail, after, ?_, hoffset ▸ hthrough, hisLine, hplace, fun hsame => ?_⟩
  · rw [← List.take_append_drop i cs, hfront, hback]
    simp only [List.append_assoc]
  · have hbetween : cs.take j = cs.take i ++ between cs i j := take_add_between (by omega)
    have hplain : '\n' ∉ between cs i j := by
      have hcount : (cs.take i).count '\n' =
          (cs.take i).count '\n' + (between cs i j).count '\n' := by
        rw [hstart, hstop, Position.ofOffset, Position.ofOffset, hbetween] at hsame
        have hlines := Nat.add_left_cancel hsame
        rwa [List.count_append] at hlines
      exact List.count_eq_zero.mp (by omega)
    have hlength : (between cs i j).length = j - i := by
      rw [between, List.length_drop, List.length_take, Nat.min_eq_left hle]
    refine ⟨j - i, Nat.sub_pos_of_lt hlt, ?_, ?_⟩
    · have hwhole : '\n' ∉ part ++ between cs i j := fun hm =>
        (List.mem_append.mp hm).elim hpart hplain
      rw [hplace, hstop, Position.ofOffset, hbetween, hfront, List.append_assoc,
        Text.behind_lineStart hisLine.starts hwhole, List.length_append, hlength]
      exact (Nat.add_assoc _ _ _).symm
    · rw [hoffset, hoffset', between_of_plain hback hisLine.stops hplain]

namespace Diagnostic

/-! ## Carets -/

/-- The characters of a line that have carets under them. -/
def overCarets (line marks : List Char) : List Char :=
  (line.zip marks).filterMap fun (c, mark) => if mark = '^' then some c else none

theorem overCarets_append {line marks : List Char} (hlength : line.length = marks.length)
    (hmarks : '^' ∉ marks) (line' marks' : List Char) :
    overCarets (line ++ line') (marks ++ marks') = overCarets line' marks' := by
  have hnone : overCarets line marks = [] := by
    refine List.filterMap_eq_nil_iff.mpr fun x hx => if_neg ?_
    intro hcaret
    exact hmarks (hcaret ▸ (List.of_mem_zip hx).2)
  have happend : overCarets (line ++ line') (marks ++ marks') =
      overCarets line marks ++ overCarets line' marks' := by
    rw [overCarets, List.zip_append hlength, List.filterMap_append]
    rfl
  rw [happend, hnone, List.nil_append]

theorem overCarets_replicate (line : List Char) (count : Nat) :
    overCarets line (List.replicate count '^') = line.take count := by
  induction count generalizing line with
  | zero => simp [overCarets]
  | succ count ih =>
      cases line with
      | nil => rfl
      | cons c line => exact congrArg (c :: ·) (ih line)

/-- Up to three digits take up the same room. -/
theorem length_lineNumber {n : Nat} (h : n < 1000) : (lineNumber n).toList.length = 3 := by
  have hdigits : (Nat.repr n).length ≤ 3 := Nat.repr_length n 3 (by decide) h
  have hlength : (toString n).toList.length ≤ 3 := by
    rw [String.length_toList]
    exact hdigits
  rw [lineNumber, String.toList_ofList, List.length_append, List.length_replicate]
  omega

/-- The characters over the carets of the source block. -/
theorem overCarets_sourceBlock {line : String} {part tail : List Char} {d : Diagnostic}
    (hline : line.toList = part ++ tail) (hnumber : d.span.start.line < 1000)
    (hcolumn : d.span.start.column = 1 + part.length) {count : Nat} (hcount : 0 < count)
    (hstop : d.underlineEnd line = d.span.start.column + count) :
    ∃ quoted carets, d.sourceBlock line = ["  |", quoted, carets] ∧
      overCarets quoted.toList carets.toList = tail.take count := by
  refine ⟨_, _, rfl, ?_⟩
  have hunderline : (d.underline line).toList =
      List.replicate part.length ' ' ++ List.replicate count '^' := by
    have hspaces : d.span.start.column - 1 = part.length := by omega
    have hcarets : max 1 (d.underlineEnd line - d.span.start.column) = count := by omega
    rw [underline, String.toList_ofList, hspaces, hcarets]
  have hlength := length_lineNumber hnumber
  have hindent : ((lineNumber d.span.start.line).toList ++ [' ', '|', ' '] ++ part).length =
      ([' ', ' ', ' ', ' ', '|', ' '] ++ List.replicate part.length ' ').length := by
    simp only [List.length_append, hlength, List.length_replicate]
    rfl
  have hspaces : '^' ∉ [' ', ' ', ' ', ' ', '|', ' '] ++ List.replicate part.length ' ' := by
    simp
  calc overCarets (lineNumber d.span.start.line ++ " | " ++ line).toList
        ("    | " ++ d.underline line).toList
      = overCarets
          ((lineNumber d.span.start.line).toList ++ [' ', '|', ' '] ++ part ++ tail)
          ([' ', ' ', ' ', ' ', '|', ' '] ++ List.replicate part.length ' ' ++
            List.replicate count '^') := by
        rw [String.toList_append, String.toList_append, String.toList_append, hline, hunderline,
          List.append_assoc _ part, List.append_assoc _ (List.replicate part.length ' ')]
        rfl
    _ = tail.take count := by rw [overCarets_append hindent hspaces, overCarets_replicate]

/-! ## The line that is shown -/

/-- The line under a diagnostic is the line of the text that the span starts in: what stands between
the line feeds around it.  The characters of a span on this line are those over the carets, if
the number of the line has no more than three digits. -/
structure QuotesLine (cs : List Char) (d : Diagnostic) (line : String) : Prop where
  isLine : ∃ before after, cs = before ++ (line.toList ++ after) ∧
    Text.IsLine before line.toList after ∧ d.span.start.line = 1 + before.count '\n' ∧
    before.length ≤ d.span.start.offset ∧ d.span.start.offset ≤ before.length + line.length
  carets : d.span.start.line = d.span.stop.line → d.span.start.line < 1000 →
    ∃ quoted carets, d.format true = "\n".intercalate
        (d.header :: "  |" :: quoted :: carets :: d.hints.map ("    = hint: " ++ ·)) ∧
      overCarets quoted.toList carets.toList =
        between cs d.span.start.offset d.span.stop.offset

theorem format_of_sourceBlock {d : Diagnostic} {line quoted carets : String}
    (hline : d.sourceLine = some line) (hplace : 0 < d.span.start.line)
    (hblock : d.sourceBlock line = ["  |", quoted, carets]) :
    d.format true = "\n".intercalate
      (d.header :: "  |" :: quoted :: carets :: d.hints.map ("    = hint: " ++ ·)) := by
  have hlocation : d.hasLocation = true := decide_eq_true hplace
  rw [format, hline]
  simp only [hlocation, Bool.and_self, if_true, hblock]
  rfl

/-- The line of a diagnostic, and its carets. -/
theorem quotesLine_of_shows {text line : String} {d : Diagnostic}
    (h : Shows text d.span d.sourceLine) (hline : d.sourceLine = some line)
    (hfeeds : Text.LineFeedsOnly (Text.throughLine text.toList d.span.start.offset)) :
    d.QuotesLine text.toList line := by
  rcases h with h | ⟨hspan, hfound⟩
  · rw [h] at hline
    cases hline
  obtain ⟨before, part, tail, after, hcs, hthrough, hisLine, hplace, hsame⟩ := hspan.exists_line
  have htoList : line.toList = part ++ tail := by
    rw [hthrough] at hfeeds
    refine hisLine.lineAt?_splitLines hfeeds ?_
    rw [← hcs, String.ofList_toList, ← hline, hfound, hplace]
  have hnumber : d.span.start.line = 1 + before.count '\n' := congrArg Position.line hplace
  have hoffset : d.span.start.offset = before.length + part.length :=
    congrArg Position.offset hplace
  constructor
  · refine ⟨before, after, by rw [htoList, hcs], htoList ▸ hisLine, hnumber, ?_, ?_⟩
    · omega
    · rw [← String.length_toList, htoList, List.length_append]
      omega
  · intro hlines hroom
    obtain ⟨count, hpos, hstop, hbetween⟩ := hsame hlines
    have hend : d.underlineEnd line = d.span.start.column + count := by
      rw [underlineEnd, if_pos hlines, hstop]
    obtain ⟨quoted, carets, hblock, hover⟩ :=
      overCarets_sourceBlock htoList hroom (congrArg Position.column hplace) hpos hend
    have hpositive : 0 < d.span.start.line := by omega
    exact ⟨quoted, carets, format_of_sourceBlock hline hpositive hblock, hover.trans hbetween.symm⟩

end Diagnostic
end SceneReader
