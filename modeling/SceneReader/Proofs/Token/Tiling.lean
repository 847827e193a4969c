import SceneReader.Proofs.Token.Boundary

/-!
# Tokens tile their text

The scanner keeps the place that it has come to, and adds to it character by character.  What
it tells of places can be read off the text alone: lines are counted by line feeds, columns
by the characters since the last of them.

A text is tiled by the tokens and the gaps between them.  Every token has the text that its
span names, and a gap holds blanks and comments and nothing else.  The end of the input stands
behind the last gap.  A fault stands behind a gap as well, and the tokens before it tile the
text up to there.

**Results.**
* `Position.behind_append`: places by counting and places by advancing agree.
* `isGap_of_takeGap`: what the scanner passes over is blanks and comments.
* `Tiles.ordered`, `Tiles.length_le`: tokens in order, and no more than characters.
* `scanFrom_tiles`: a scan from anywhere in a text.
* `fault_of_tokenize`: what a scan can fail for, and the line that is shown.
* `tokenize_tiles`: a scan of a whole text, with and without a fault.
-/

namespace SceneReader

/-! ## Places -/

namespace Position

/-- The place behind a text, by counting. -/
def behind (cs : List Char) : Position :=
  ⟨1 + cs.count '\n', 1 + (cs.reverse.takeWhile (· != '\n')).length, cs.length⟩

theorem behind_concat (cs : List Char) (c : Char) :
    behind (cs ++ [c]) = (behind cs).advance c := by
  by_cases hc : c = '\n'
  · subst hc
    simp [behind, advance, Nat.add_assoc]
  · simp [behind, advance, hc]
    omega

/-- Counting over two texts is counting over the first and advancing over the second. -/
theorem behind_append (cs ds : List Char) : behind (cs ++ ds) = (behind cs).advanceAll ds := by
  induction ds generalizing cs with
  | nil => rw [List.append_nil, advanceAll_nil]
  | cons d ds ih =>
      calc behind (cs ++ d :: ds) = behind ((cs ++ [d]) ++ ds) := by
            rw [List.append_assoc, List.singleton_append]
        _ = ((behind cs).advance d).advanceAll ds := by rw [ih, behind_concat]

/-- The place behind the first characters of a text. -/
def ofOffset (cs : List Char) (n : Nat) : Position := behind (cs.take n)

theorem ofOffset_length (cs ds : List Char) : ofOffset (cs ++ ds) cs.length = behind cs := by
  rw [ofOffset, List.take_left]

theorem offset_ofOffset {cs : List Char} {n : Nat} (h : n ≤ cs.length) :
    (ofOffset cs n).offset = n := by
  rw [ofOffset, behind, List.length_take, Nat.min_eq_left h]

end Position

namespace Lexer

/-! ## Parts of a text -/

/-- The characters of a text from one offset to another. -/
def between (cs : List Char) (i j : Nat) : List Char := (cs.take j).drop i

theorem between_length (front part back : List Char) :
    between (front ++ (part ++ back)) front.length (front.length + part.length) = part := by
  rw [between, ← List.append_assoc, ← List.length_append, List.take_left, List.drop_left]

/-- Blanks and comments with what follows them in the text.  A comment goes from a hash to before
the next line feed, or to the end of the text. -/
inductive IsGap : List Char → List Char → Prop
  | nil {after : List Char} : IsGap [] after
  | blank {c : Char} {cs after : List Char} (hc : Text.isBlank c = true) (h : IsGap cs after) :
      IsGap (c :: cs) after
  | comment {words cs after : List Char} (hwords : '\n' ∉ words)
      (hend : ∀ c ∈ (cs ++ after).head?, c = '\n') (h : IsGap cs after) :
      IsGap ('#' :: (words ++ cs)) after

theorem IsGap.comment_cons {d : Char} {cs after : List Char} (h : IsGap ('#' :: cs) after)
    (hd : d ≠ '\n') : IsGap ('#' :: d :: cs) after := by
  generalize hhash : '#' :: cs = gap at h
  cases h with
  | nil => cases hhash
  | blank hc =>
      obtain ⟨rfl, -⟩ := List.cons.inj hhash
      exact absurd hc (by decide)
  | @comment words rest _ hwords hend h =>
      obtain ⟨-, rfl⟩ := List.cons.inj hhash
      have hwords' : '\n' ∉ d :: words := by simp [hd.symm, hwords]
      exact .comment hwords' hend h

theorem IsGap.comment_newline {cs after : List Char} (h : IsGap ('\n' :: cs) after) :
    IsGap ('#' :: '\n' :: cs) after :=
  .comment List.not_mem_nil (fun _ hc => (Option.some.inj hc).symm) h

/-- What the scanner passes over is a gap; in an open comment, it is one behind the hash. -/
theorem isGap_of_takeGap {b : Bool} {cs gap after : List Char}
    (h : takeGap b cs = (gap, after)) : IsGap (if b then '#' :: gap else gap) after := by
  induction cs generalizing b gap with
  | nil =>
      cases h
      cases b with
      | false => exact .nil
      | true => exact .comment List.not_mem_nil (fun _ hc => nomatch hc) .nil
  | cons d cs ih =>
      unfold takeGap at h
      split at h
      · -- the comment goes on
        rename_i hcomment
        obtain ⟨rfl, hd⟩ : b = true ∧ d ≠ '\n' := by simpa using hcomment
        cases h
        exact (ih (b := true) rfl).comment_cons hd
      · rename_i hcomment
        have hclosed : b = true → d = '\n' := fun hb => by simpa [hb] using hcomment
        split at h
        · rename_i hblank
          cases h
          have hgap := IsGap.blank hblank (ih (b := false) rfl)
          cases b with
          | false => exact hgap
          | true =>
              obtain rfl := hclosed rfl
              exact hgap.comment_newline
        · rename_i hblank
          have hplain : b = false := by
            refine Bool.eq_false_iff.mpr fun hb => hblank ?_
            rw [hclosed hb]
            exact isBlank_newline
          subst hplain
          split at h
          · -- a comment opens
            rename_i hd
            subst hd
            cases h
            exact ih (b := true) rfl
          · cases h
            exact .nil

/-- Between two offsets of the text there is a gap. -/
structure IsGapBetween (cs : List Char) (i j : Nat) : Prop where
  le : i ≤ j
  le_length : j ≤ cs.length
  gap : IsGap (between cs i j) (cs.drop j)

/-- Between two offsets of the text there is the token. -/
structure IsTokenBetween (file : Option String) (cs : List Char) (i j : Nat) (t : Token) :
    Prop where
  lt : i < j
  le_length : j ≤ cs.length
  lexeme : t.lexeme = String.ofList (between cs i j)
  span : t.span = ⟨file, .ofOffset cs i, .ofOffset cs j⟩
  not_end : t.kind ≠ .endOfInput

theorem IsTokenBetween.le {file : Option String} {cs : List Char} {i j : Nat} {t : Token}
    (h : IsTokenBetween file cs i j t) : i ≤ j := Nat.le_of_lt h.lt

/-- From one offset of the text to another there are the tokens, with a gap in front of each. -/
inductive Tiles (file : Option String) (cs : List Char) : Nat → List Token → Nat → Prop
  | nil (i : Nat) : Tiles file cs i [] i
  | cons {i start stop j : Nat} {t : Token} {ts : List Token}
      (hgap : IsGapBetween cs i start) (htoken : IsTokenBetween file cs start stop t)
      (h : Tiles file cs stop ts j) : Tiles file cs i (t :: ts) j

/-! ## Tiled texts -/

namespace Tiles

variable {file : Option String} {cs : List Char} {i j : Nat} {ts : List Token}

theorem le (h : Tiles file cs i ts j) : i ≤ j := by
  induction h with
  | nil i => exact Nat.le_refl i
  | cons hgap htoken _ ih => exact Nat.le_trans hgap.le (Nat.le_trans htoken.le ih)

/-- Every token takes up a character of its own. -/
theorem length_le (h : Tiles file cs i ts j) : i + ts.length ≤ j := by
  induction h with
  | nil i => exact Nat.le_refl i
  | cons hgap htoken _ ih =>
      have hle := hgap.le
      have hlt := htoken.lt
      rw [List.length_cons]
      omega

/-- The tokens are where they say, in the part of the text that they tile. -/
theorem token_of_mem (h : Tiles file cs i ts j) {t : Token} (ht : t ∈ ts) :
    ∃ a b, i ≤ a ∧ b ≤ j ∧ IsTokenBetween file cs a b t := by
  induction h with
  | nil => exact absurd ht List.not_mem_nil
  | @cons i start stop j u ts hgap htoken hts ih =>
      rcases List.mem_cons.mp ht with rfl | ht
      · exact ⟨start, stop, hgap.le, hts.le, htoken⟩
      · obtain ⟨a, b, ha, hb, hab⟩ := ih ht
        exact ⟨a, b, Nat.le_trans hgap.le (Nat.le_trans htoken.le ha), hb, hab⟩

end Tiles

/-- The first token ends where the second one starts, or before. -/
def Precedes (t u : Token) : Prop := t.span.stop.offset ≤ u.span.start.offset

theorem IsTokenBetween.offsets {file : Option String} {cs : List Char} {i j : Nat} {t : Token}
    (h : IsTokenBetween file cs i j t) : t.span.start.offset = i ∧ t.span.stop.offset = j := by
  rw [h.span]
  exact ⟨Position.offset_ofOffset (Nat.le_trans h.le h.le_length),
    Position.offset_ofOffset h.le_length⟩

/-- The spans of tokens that tile a text are in order and do not overlap. -/
theorem Tiles.ordered {file : Option String} {cs : List Char} {i j : Nat} {ts : List Token}
    (h : Tiles file cs i ts j) : ts.Pairwise Precedes := by
  induction h with
  | nil => exact .nil
  | cons _ htoken hts ih =>
      refine .cons (fun u hu => ?_) ih
      obtain ⟨a, b, ha, -, hu⟩ := hts.token_of_mem hu
      rw [Precedes, htoken.offsets.2, hu.offsets.1]
      exact ha

/-! ## Scans -/

/-- The token at the end of a text. -/
def endToken (file : Option String) (cs : List Char) : Token :=
  ⟨.endOfInput, "", ⟨file, .ofOffset cs cs.length, .ofOffset cs cs.length⟩⟩

/-- How a scan goes on at an offset without any token: the text is at its end, or what stands there
is at fault. -/
inductive Stops (file : Option String) (cs : List Char) (i : Nat) :
    List Token → Option SceneError → Prop
  | atEnd (h : i = cs.length) : Stops file cs i [endToken file cs] none
  | fault {j : Nat} {e : SceneError} (hlt : i < j) (hle : j ≤ cs.length)
      (hspan : e.span = ⟨file, .ofOffset cs i, .ofOffset cs j⟩) : Stops file cs i [] (some e)

theorem isGapBetween_of_takeGap (front : List Char) {cs gap after : List Char}
    (h : takeGap false cs = (gap, after)) :
    IsGapBetween (front ++ cs) front.length (front.length + gap.length) := by
  obtain rfl : gap ++ after = cs := by
    have happend := takeGap_append false cs
    rwa [h] at happend
  refine ⟨Nat.le_add_right _ _, ?_, ?_⟩
  · simp only [List.length_append]
    omega
  · rw [between_length, ← List.append_assoc, ← List.length_append, List.drop_left]
    exact isGap_of_takeGap h

theorem isTokenBetween_of_scanToken (file : Option String) (front : List Char)
    {rest lexeme after : List Char} {c : Char} {kind : TokenKind}
    (h : scanToken c rest = .token kind lexeme after) :
    IsTokenBetween file (front ++ c :: rest) front.length (front.length + lexeme.length)
      ⟨kind, String.ofList lexeme, ⟨file, .behind front, .behind (front ++ lexeme)⟩⟩ := by
  have hpos := List.length_pos_iff.mpr (Lexed.lexeme_ne_nil h)
  rw [← Lexed.lexeme_append h]
  refine ⟨Nat.lt_add_of_pos_right hpos, ?_, ?_, ?_, kind_ne_endOfInput h⟩
  · simp only [List.length_append]
    omega
  · rw [between_length]
  · rw [Position.ofOffset_length, ← List.append_assoc, ← List.length_append,
      Position.ofOffset_length]

theorem eq_of_unexpected {c d : Char} {rest : List Char}
    (h : scanToken c rest = .unexpected d) : d = c := by
  unfold scanToken at h
  repeat' split at h
  all_goals cases h
  rfl

/-- What is at fault, from behind a part of the text. -/
theorem Stops.of_part {file : Option String} {part : List Char} (hpart : part ≠ [])
    {e : SceneError} (front back : List Char)
    (hspan : e.span = ⟨file, .behind front, .behind (front ++ part)⟩) :
    Stops file (front ++ (part ++ back)) front.length [] (some e) := by
  have hpos := List.length_pos_iff.mpr hpart
  refine .fault (Nat.lt_add_of_pos_right hpos) ?_ ?_
  · simp only [List.length_append]
    omega
  · rw [hspan, Position.ofOffset_length, ← List.append_assoc, ← List.length_append,
      Position.ofOffset_length]

/-- The gap in front of what is left, and the place behind it. -/
theorem exists_gap {place : Position} {front cs rest : List Char} (hplace : place = .behind front)
    (h : (takeGap false cs).2 = rest) :
    ∃ gap, cs = gap ++ rest ∧ place.advanceAll (takeGap false cs).1 = .behind (front ++ gap) ∧
      IsGapBetween (front ++ cs) front.length (front ++ gap).length := by
  refine ⟨(takeGap false cs).1, ?_, ?_, ?_⟩
  · rw [← h, takeGap_append]
  · rw [hplace, Position.behind_append]
  · rw [List.length_append]
    exact isGapBetween_of_takeGap front rfl

/-- A scan from a place in a text: tokens, a gap, and the end of the text or a fault. -/
theorem scanFrom_tiles (file : Option String) (lines : List String) (cs : List Char)
    {place : Position} {front : List Char} (hplace : place = .behind front) :
    ∃ ts stop last tail error, scanFrom file lines place cs = ⟨ts ++ tail, error⟩ ∧
      Tiles file (front ++ cs) front.length ts stop ∧
      IsGapBetween (front ++ cs) stop last ∧ Stops file (front ++ cs) last tail error := by
  fun_induction scanFrom file lines place cs generalizing front with
  | case1 place cs =>
      rename_i start hrest
      obtain ⟨gap, hcs, hstart, hgap⟩ := exists_gap hplace hrest
      rw [List.append_nil] at hcs
      refine ⟨[], _, _, _, _, ?_, .nil _, hgap, .atEnd (by rw [hcs])⟩
      have htoken : endToken file (front ++ cs) =
          ⟨.endOfInput, "", ⟨file, .behind (front ++ gap), .behind (front ++ gap)⟩⟩ := by
        rw [endToken, Position.ofOffset, List.take_length, hcs]
      rw [htoken, List.nil_append, ← hstart]
  | case2 place cs =>
      rename_i start c rest hrest kind lexeme after htoken stop _ ih
      obtain ⟨gap, hcs, hstart, hgap⟩ := exists_gap hplace hrest
      have hstop : stop = .behind (front ++ gap ++ lexeme) := by
        rw [Position.behind_append, ← hstart]
      obtain ⟨ts, j, last, tail, error, hscan, htiles, hlast, hstops⟩ := ih hstop
      have htext : front ++ gap ++ lexeme ++ after = front ++ cs := by
        rw [hcs, ← Lexed.lexeme_append htoken]
        simp only [List.append_assoc]
      have hbetween := isTokenBetween_of_scanToken file (front ++ gap) htoken
      rw [← Lexed.lexeme_append htoken, ← List.append_assoc] at hbetween
      rw [htext] at htiles hlast hstops hbetween
      rw [List.length_append] at htiles
      refine ⟨_ :: ts, j, last, tail, error, ?_, .cons hgap hbetween htiles, hlast, hstops⟩
      rw [hscan, ← hstop, ← hstart]
      rfl
  | case3 place cs =>
      rename_i start c rest hrest d htoken
      obtain ⟨gap, hcs, hstart, hgap⟩ := exists_gap hplace hrest
      have hstops : Stops file (front ++ cs) (front ++ gap).length []
          (some ⟨.unexpectedCharacter d, ⟨file, start, start.advance d⟩,
            Text.lineAt? lines start.line⟩) := by
        rw [hcs, ← List.append_assoc]
        refine Stops.of_part (List.cons_ne_nil c []) _ rest ?_
        rw [Position.behind_concat, ← hstart, eq_of_unexpected htoken]
      exact ⟨[], _, _, _, _, rfl, .nil _, hgap, hstops⟩
  | case4 place cs =>
      rename_i start c rest hrest htoken
      obtain ⟨gap, hcs, hstart, hgap⟩ := exists_gap hplace hrest
      have hstops : Stops file (front ++ cs) (front ++ gap).length []
          (some ⟨.unterminatedString, ⟨file, start, start.advanceAll (c :: rest)⟩,
            Text.lineAt? lines start.line⟩) := by
        have htext : front ++ cs = front ++ gap ++ (c :: rest ++ []) := by
          rw [hcs, List.append_nil, List.append_assoc]
        rw [htext]
        refine Stops.of_part (List.cons_ne_nil c rest) _ [] ?_
        rw [Position.behind_append (front ++ gap), ← hstart]
      exact ⟨[], _, _, _, _, rfl, .nil _, hgap, hstops⟩

/-- A scan ends in no other faults than those of characters, and shows the line that they start
in. -/
theorem fault_of_scanFrom {file : Option String} {lines : List String} {place : Position}
    {cs : List Char} {e : SceneError} (h : (scanFrom file lines place cs).error = some e) :
    e.fault.kind = .lexical ∧ e.sourceLine = Text.lineAt? lines e.span.start.line := by
  fun_induction scanFrom file lines place cs with
  | case1 => cases h
  | case2 place cs start c rest hrest kind lexeme after htoken stop _ ih => exact ih h
  | case3 =>
      cases h
      exact ⟨rfl, rfl⟩
  | case4 =>
      cases h
      exact ⟨rfl, rfl⟩

theorem fault_of_tokenize {source : String} {file : Option String} {e : SceneError}
    (h : tokenize source file = .error e) :
    e.fault.kind = .lexical ∧
      e.sourceLine = Text.lineAt? (Text.splitLines source) e.span.start.line := by
  unfold tokenize at h
  split at h
  · cases h
  · rename_i hscan
    cases h
    exact fault_of_scanFrom (congrArg Scan.error hscan)

/-- Tokens and gaps tile a text up to its end, where the one token for the end of the input stands,
or up to a fault, and the places of tokens and faults are those that counting finds. -/
theorem tokenize_tiles (source : String) (file : Option String) :
    ∃ ts stop last, Tiles file source.toList 0 ts stop ∧ ts.Pairwise Precedes ∧ ts.length ≤ stop ∧
      IsGapBetween source.toList stop last ∧
      ((last = source.length ∧
          tokenize source file = .ok (ts ++ [endToken file source.toList])) ∨
        ∃ e j, tokenize source file = .error e ∧ (scan source file).tokens = ts ∧
          last < j ∧ j ≤ source.length ∧
          e.span = ⟨file, .ofOffset source.toList last, .ofOffset source.toList j⟩) := by
  have hstart : Position.start = .behind [] := rfl
  obtain ⟨ts, stop, last, tail, error, hscan, htiles, hgap, hstops⟩ :=
    scanFrom_tiles file (Text.splitLines source) source.toList hstart
  have hlength := htiles.length_le
  refine ⟨ts, stop, last, htiles, htiles.ordered, ?_, hgap, ?_⟩
  · simpa using hlength
  · have hresult : scan source file = ⟨ts ++ tail, error⟩ := hscan
    unfold tokenize
    rw [hresult]
    cases hstops with
    | atEnd hlast => exact Or.inl ⟨hlast, rfl⟩
    | fault hlt hle hspan => exact Or.inr ⟨_, _, rfl, List.append_nil ts, hlt, hle, hspan⟩

/-- A comment between two tokens, the second one on the next line. -/
example : (scan "[ #x\n]" none).tokens.map (·.span.start) = [⟨1, 1, 0⟩, ⟨2, 1, 5⟩, ⟨2, 2, 6⟩] := by
  decide +kernel

end Lexer
end SceneReader
