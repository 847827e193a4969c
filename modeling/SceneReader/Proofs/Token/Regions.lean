import SceneReader.Proofs.Token.Stripping
import SceneReader.Proofs.Token.Words

/-!
# Regions as the scanner reads them

A text is plain text with literals and comments in it.  Stripping a text and scanning it
differ in literals only: for the scanner a backslash behind a backslash still protects the
quote after it.  Gaps and tokens fit these regions: a gap starts and ends in plain text, and
so does a token, and inside of a literal there is no plain text.

**Results.**
* `takeGap_part`: inside of a gap the scanner knows the region it is in.
* `regionFrom_gap`, `regionFrom_lexeme`: plain text behind a gap and behind a token.
* `isBare_of_plain`: a character of a token in plain text belongs to a bare word.
-/

namespace SceneReader
namespace Lexer

open Comment (Region)

/-- The region after a character.  In a literal the last one of several backslashes protects
the quote behind it. -/
def regionAfter : Region → Char → Region
  | .escaped, c => if c = '\\' then .escaped else .literal
  | r, c => r.after c

/-- The region after a row of characters. -/
def regionFrom (r : Region) (cs : List Char) : Region :=
  cs.foldl regionAfter r

@[simp] theorem regionFrom_nil (r : Region) : regionFrom r [] = r := rfl

@[simp] theorem regionFrom_cons (r : Region) (c : Char) (cs : List Char) :
    regionFrom r (c :: cs) = regionFrom (regionAfter r c) cs := rfl

theorem regionFrom_append (r : Region) (cs ds : List Char) :
    regionFrom r (cs ++ ds) = regionFrom (regionFrom r cs) ds := by
  simp [regionFrom]

/-! ## Gaps -/

theorem regionAfter_outside {b b' : Bool} {c : Char} (h : gapAfter b c = some b') :
    regionAfter (outside b) c = outside b' := by
  rw [← outside_after h]
  cases b <;> rfl

theorem eq_false_of_outside {b : Bool} (h : outside b = .plain) : b = false := by
  cases b with
  | false => rfl
  | true => cases h

/-- Inside of a gap the scanner is in plain text or in a comment, and goes on from there whatever
follows. -/
theorem takeGap_part {b : Bool} {front gap rest back : List Char}
    (h : takeGap b (front ++ back) = (front ++ gap, rest)) :
    ∃ b', regionFrom (outside b) front = outside b' ∧
      ∀ other, takeGap b (front ++ other) =
        (front ++ (takeGap b' other).1, (takeGap b' other).2) := by
  induction front generalizing b with
  | nil => exact ⟨b, rfl, fun _ => rfl⟩
  | cons d front ih =>
      rw [List.cons_append, takeGap_cons] at h
      cases hd : gapAfter b d with
      | none =>
          rw [hd] at h
          cases h
      | some b₁ =>
          rw [hd] at h
          obtain ⟨hfront, hrest⟩ := Prod.ext_iff.mp h
          obtain ⟨b', hregion, hother⟩ := ih (Prod.ext (List.cons.inj hfront).2 hrest)
          refine ⟨b', ?_, fun other => ?_⟩
          · rw [regionFrom_cons, regionAfter_outside hd, hregion]
          · rw [List.cons_append, takeGap_cons, hd]
            dsimp only
            rw [hother]
            rfl

/-- In plain text inside of a gap anything may follow as at the start of a gap. -/
theorem takeGap_plain {b : Bool} {front gap rest back : List Char}
    (h : takeGap b (front ++ back) = (front ++ gap, rest))
    (hregion : regionFrom (outside b) front = .plain) (other : List Char) :
    takeGap b (front ++ other) =
      (front ++ (takeGap false other).1, (takeGap false other).2) := by
  obtain ⟨b', hfront, hother⟩ := takeGap_part h
  rw [hregion] at hfront
  rw [hother, eq_false_of_outside hfront.symm]

/-- A character of a gap with plain text behind it is blank. -/
theorem isBlank_of_takeGap {b : Bool} {front gap rest back : List Char} {d : Char}
    (h : takeGap b (front ++ d :: back) = (front ++ d :: gap, rest))
    (hregion : regionFrom (outside b) (front ++ [d]) = .plain) : Text.isBlank d = true := by
  obtain ⟨b', hfront, hother⟩ := takeGap_part h
  have hd : takeGap b' (d :: back) = (d :: gap, rest) := by
    rw [hother] at h
    obtain ⟨hgap, hrest⟩ := Prod.ext_iff.mp h
    exact Prod.ext (List.append_cancel_left hgap) hrest
  rw [takeGap_cons] at hd
  cases hnext : gapAfter b' d with
  | none =>
      rw [hnext] at hd
      cases hd
  | some next =>
      rw [regionFrom_append, hfront, regionFrom_cons, regionFrom_nil,
        regionAfter_outside hnext] at hregion
      obtain rfl := eq_false_of_outside hregion
      unfold gapAfter at hnext
      split at hnext
      · cases hnext
      · split at hnext
        · assumption
        · split at hnext <;> cases hnext

/-- Behind a gap that a token ends there is plain text. -/
theorem regionFrom_gap {b : Bool} {cs gap rest : List Char} {c : Char}
    (h : takeGap b cs = (gap, c :: rest)) : regionFrom (outside b) gap = .plain := by
  obtain rfl : gap ++ c :: rest = cs := by
    have happend := takeGap_append b cs
    rwa [h] at happend
  have hwhole : takeGap b (gap ++ c :: rest) = (gap ++ [], c :: rest) := by
    rw [List.append_nil, h]
  obtain ⟨b', hgap, hother⟩ := takeGap_part hwhole
  rw [hother] at h
  have hnil : (takeGap b' (c :: rest)).1 = [] :=
    List.append_right_eq_self.mp (Prod.ext_iff.mp h).1
  rw [takeGap_cons] at hnil
  cases hc : gapAfter b' c with
  | none =>
      rw [hgap, (gapAfter_eq_none hc).1]
      rfl
  | some next =>
      rw [hc] at hnil
      cases hnil

/-! ## Literals -/

theorem regionFrom_escaped {d : Char} (ds : List Char) (hd : d ≠ '"') :
    regionFrom .escaped (d :: ds) = regionFrom .literal (d :: ds) := by
  simp only [regionFrom_cons, regionAfter, Region.after, if_neg hd]

/-- A literal ends with its closing quote, and is no plain text before. -/
theorem regionFrom_literal {cs : List Char} {l : Literal} (h : scanString cs = some l) :
    regionFrom .literal l.lexeme = .plain ∧
      ∀ front d back, l.lexeme = front ++ d :: back → regionFrom .literal front ≠ .plain := by
  fun_induction scanString cs generalizing l with
  | case1 => cases h
  | case2 cs =>
      cases h
      refine ⟨rfl, fun front d back hlexeme => ?_⟩
      cases front with
      | nil => decide
      | cons e front => simp at hlexeme
  | case3 cs ih =>
      obtain ⟨m, hm, rfl⟩ := Option.map_eq_some_iff.mp h
      obtain ⟨hend, hinside⟩ := ih hm
      refine ⟨hend, fun front d back hlexeme => ?_⟩
      rcases front with _ | ⟨e, _ | ⟨f, front⟩⟩
      · decide
      · simp only [Literal.cons, List.cons_append, List.cons.injEq] at hlexeme
        rw [← hlexeme.1]
        decide
      · simp only [Literal.cons, List.cons_append, List.nil_append, List.cons.injEq] at hlexeme
        obtain ⟨rfl, rfl, hrest⟩ := hlexeme
        exact hinside front d back hrest
  | case4 c cs hquote hescape ih =>
      obtain ⟨m, hm, rfl⟩ := Option.map_eq_some_iff.mp h
      obtain ⟨hend, hinside⟩ := ih hm
      obtain ⟨e, lexeme, hlexeme⟩ := Literal.exists_cons hm
      have hnext : c = '\\' → e ≠ '"' := by
        rintro rfl rfl
        refine hescape (lexeme ++ m.rest) rfl ?_
        rw [← scanString_append hm, hlexeme, List.cons_append]
      -- a backslash before another character has no effect
      have hafter : ∀ ds, regionFrom (regionAfter .literal c) (e :: ds) =
          regionFrom .literal (e :: ds) := by
        intro ds
        by_cases hc : c = '\\'
        · rw [hc]
          exact regionFrom_escaped ds (hnext hc)
        · have hliteral : regionAfter .literal c = .literal := by
            simp [regionAfter, Region.after, show c ≠ '"' from hquote, hc]
          rw [hliteral]
      have hopen : regionAfter .literal c ≠ .plain := by
        have hc : c ≠ '"' := hquote
        simp only [regionAfter, Region.after, if_neg hc]
        split <;> decide
      refine ⟨?_, fun front d back hfront => ?_⟩
      · change regionFrom (regionAfter .literal c) m.lexeme = .plain
        rw [hlexeme, hafter, ← hlexeme, hend]
      · rcases front with _ | ⟨f, _ | ⟨g, front⟩⟩
        · decide
        · simp only [Literal.cons, List.cons_append, List.cons.injEq] at hfront
          rw [← hfront.1]
          exact hopen
        · simp only [Literal.cons, List.cons_append, List.nil_append, List.cons.injEq] at hfront
          obtain ⟨rfl, hrest⟩ := hfront
          obtain ⟨rfl, -⟩ := List.cons.inj (hlexeme.symm.trans hrest)
          rw [regionFrom_cons, hafter]
          exact hinside (e :: front) d back hrest

/-! ## Bare words -/

theorem wordKind_cases (word : List Char) :
    wordKind word = .identifier ∨ wordKind word = .malformedNumber ∨
      ∃ x, wordKind word = .number x := by
  cases word with
  | nil => exact Or.inl rfl
  | cons c cs =>
      by_cases hnumber : startsNumber c = true
      · right
        rw [wordKind, if_pos hnumber, numberKind]
        split
        · exact Or.inl rfl
        · split
          · rename_i x _
            exact Or.inr ⟨x, rfl⟩
          · exact Or.inl rfl
      · rw [wordKind, if_neg hnumber]
        exact Or.inl rfl

/-- The tokens are literals, brackets and bare words. -/
theorem scanToken_kinds {c : Char} {cs lexeme after : List Char} {kind : TokenKind}
    (hc : Text.isBlank c = false ∧ c ≠ '#') (h : scanToken c cs = .token kind lexeme after) :
    (∃ l s, c = '"' ∧ scanString cs = some l ∧ lexeme = c :: l.lexeme ∧ kind = .string s) ∨
      ((c = '[' ∧ kind = .leftBracket ∨ c = ']' ∧ kind = .rightBracket) ∧ lexeme = [c]) ∨
      (IsBare lexeme ∧ kind = wordKind lexeme ∧ Cut after) := by
  rcases scanToken_cases h with ⟨l, hquote, hl, hkind, hlexeme, -⟩ | ⟨hleft, hkind, hlexeme, -⟩ |
    ⟨hright, hkind, hlexeme, -⟩ | ⟨⟨hquote, hleft, hright⟩, rfl, rfl, hkind⟩
  · exact Or.inl ⟨l, _, hquote, hl, hlexeme, hkind⟩
  · exact Or.inr (Or.inl ⟨Or.inl ⟨hleft, hkind⟩, hlexeme⟩)
  · exact Or.inr (Or.inl ⟨Or.inr ⟨hright, hkind⟩, hlexeme⟩)
  · obtain ⟨-, hword, hdelimiter⟩ := takeBare_spec cs
    have hwhole : ∀ d ∈ c :: (takeBare cs).1, isDelimiter d = false :=
      List.forall_mem_cons.mpr ⟨isDelimiter_eq_false hc.1 hc.2 hquote hleft hright, hword⟩
    refine Or.inr (Or.inr ⟨⟨⟨c, rfl, hc.1, ?_⟩, hwhole⟩, ?_, hdelimiter⟩)
    · exact hkind.imp And.left fun hname => hname.2.1
    · rcases hkind with ⟨hnumber, rfl⟩ | ⟨hnumber, -, rfl⟩
      · rw [wordKind, if_pos hnumber]
      · rw [wordKind, if_neg (by simp [hnumber])]

theorem regionFrom_of_whole {cs : List Char} (h : ∀ c ∈ cs, isDelimiter c = false) :
    regionFrom .plain cs = .plain := by
  induction cs with
  | nil => rfl
  | cons c cs ih =>
      obtain ⟨hc, hcs⟩ := List.forall_mem_cons.mp h
      have hquote : c ≠ '"' := ne_of_isDelimiter hc (by decide)
      have hmark : c ≠ '#' := ne_of_isDelimiter hc (by decide)
      have hafter : regionAfter .plain c = .plain := by
        simp [regionAfter, Region.after, hquote, hmark]
      rw [regionFrom_cons, hafter, ih hcs]

/-- Behind a token there is plain text. -/
theorem regionFrom_lexeme {c : Char} {cs lexeme after : List Char} {kind : TokenKind}
    (hc : Text.isBlank c = false ∧ c ≠ '#') (h : scanToken c cs = .token kind lexeme after) :
    regionFrom .plain lexeme = .plain := by
  rcases scanToken_kinds hc h with ⟨l, s, rfl, hl, rfl, -⟩ | ⟨⟨rfl, -⟩ | ⟨rfl, -⟩, rfl⟩ |
    ⟨hbare, -, -⟩
  · exact (regionFrom_literal hl).1
  · rfl
  · rfl
  · exact regionFrom_of_whole hbare.whole

/-- A character of a token in plain text, if it is no quote and no bracket, belongs to a bare
word. -/
theorem isBare_of_plain {c d : Char} {cs lexeme after front back : List Char} {kind : TokenKind}
    (hc : Text.isBlank c = false ∧ c ≠ '#') (h : scanToken c cs = .token kind lexeme after)
    (hlexeme : lexeme = front ++ d :: back) (hregion : regionFrom .plain front = .plain)
    (hd : d ≠ '"' ∧ d ≠ '[' ∧ d ≠ ']') :
    IsBare lexeme ∧ kind = wordKind lexeme ∧ Cut after := by
  rcases scanToken_kinds hc h with ⟨l, s, rfl, hl, rfl, -⟩ | ⟨hbracket, rfl⟩ | hbare
  · cases front with
    | nil =>
        obtain ⟨rfl, -⟩ := List.cons.inj hlexeme
        exact absurd rfl hd.1
    | cons e front =>
        obtain ⟨rfl, hrest⟩ := List.cons.inj hlexeme
        exact absurd hregion ((regionFrom_literal hl).2 front d back hrest)
  · obtain ⟨rfl, hdc⟩ : front = [] ∧ c = d := by
      cases front with
      | nil => exact ⟨rfl, (List.cons.inj hlexeme).1⟩
      | cons e front => simp at hlexeme
    subst hdc
    rcases hbracket with ⟨rfl, -⟩ | ⟨rfl, -⟩
    · exact absurd rfl hd.2.1
    · exact absurd rfl hd.2.2
  · exact hbare

end Lexer
end SceneReader
