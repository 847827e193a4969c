import SceneReader.Token.Lexer

/-!
# Where tokens meet

The scanner can start anew at every place where a token ends.  What stands behind such a
place may be exchanged and the tokens before it stay what they are: a literal and a
bracket end by themselves, and a bare word ends where a delimiter follows or nothing.

**Results.**
* `takeGap_closed`, `takeGap_newline`: a gap that is over has no part in what follows.
* `scanToken_cases`: the tokens that the scanner knows.
* `scanToken_exchange`, `Scans.exchange`: a token, and a row of tokens, does not see what
  is behind the character after it.
* `Scans.boundary`: how the text of a row of tokens ends.
-/

namespace SceneReader
namespace Lexer

/-- A token without its place. -/
structure Piece where
  kind : TokenKind
  lexeme : String

/-- Scanning a text gives pieces, and a rest behind the last of them. -/
inductive Scans : List Char → List Piece → List Char → Prop
  | nil (cs : List Char) : Scans cs [] cs
  | cons {cs gap rest lexeme after u : List Char} {c : Char} {kind : TokenKind}
      {ps : List Piece} (hgap : takeGap false cs = (gap, c :: rest))
      (htoken : scanToken c rest = .token kind lexeme after) (h : Scans after ps u) :
      Scans cs (⟨kind, String.ofList lexeme⟩ :: ps) u

/-! ## Gaps -/

theorem isBlank_newline : Text.isBlank '\n' = true := by decide

/-- A character goes on with the gap, or it ends the gap and no comment is open. -/
theorem takeGap_cases (b : Bool) (d : Char) :
    (∃ b', ∀ cs, takeGap b (d :: cs) = (d :: (takeGap b' cs).1, (takeGap b' cs).2)) ∨
      (b = false ∧ Text.isBlank d = false ∧ d ≠ '#' ∧
        ∀ cs, takeGap b (d :: cs) = ([], d :: cs)) := by
  by_cases hcomment : (b && d != '\n') = true
  · refine Or.inl ⟨true, fun cs => ?_⟩
    rw [takeGap, if_pos hcomment]
  · by_cases hblank : Text.isBlank d = true
    · refine Or.inl ⟨false, fun cs => ?_⟩
      rw [takeGap, if_neg hcomment, if_pos hblank]
    · by_cases hmark : d = '#'
      · refine Or.inl ⟨true, fun cs => ?_⟩
        rw [takeGap, if_neg hcomment, if_neg hblank, if_pos hmark]
      · refine Or.inr ⟨?_, by simpa using hblank, hmark, fun cs => ?_⟩
        · cases b with
          | false => rfl
          | true =>
              simp only [Bool.true_and, bne_iff_ne, ne_eq, Decidable.not_not] at hcomment
              rw [hcomment] at hblank
              exact absurd isBlank_newline hblank
        · rw [takeGap, if_neg hcomment, if_neg hblank, if_neg hmark]

theorem takeGap_newline_cons (b : Bool) (cs : List Char) :
    (takeGap b ('\n' :: cs)).2 = (takeGap false cs).2 := by
  rw [takeGap, if_neg (by simp), if_pos isBlank_newline]

/-- A blank that opens a text changes nothing behind the gap. -/
theorem takeGap_blank_cons {c : Char} (h : Text.isBlank c = true) (cs : List Char) :
    (takeGap false (c :: cs)).2 = (takeGap false cs).2 := by
  rw [takeGap, if_neg (by simp), if_pos h]

/-- There is no gap in front of a mark. -/
theorem takeGap_mark {c : Char} (hblank : Text.isBlank c = false) (hmark : c ≠ '#')
    (cs : List Char) : takeGap false (c :: cs) = ([], c :: cs) := by
  rw [takeGap, if_neg (by simp), if_neg (by simp [hblank]), if_neg hmark]

/-- The character after a gap is neither blank nor the start of a comment. -/
theorem mark_of_takeGap {b : Bool} {cs gap rest : List Char} {c : Char}
    (h : takeGap b cs = (gap, c :: rest)) : Text.isBlank c = false ∧ c ≠ '#' := by
  induction cs generalizing b gap with
  | nil => cases h
  | cons d cs ih =>
      rcases takeGap_cases b d with ⟨b', hd⟩ | ⟨-, hblank, hmark, hd⟩
      · rw [hd] at h
        exact ih (Prod.ext rfl (Prod.ext_iff.mp h).2)
      · rw [hd] at h
        cases h
        exact ⟨hblank, hmark⟩

/-- At the end of a gap that a token ends, no comment is open. -/
theorem takeGap_closed {b : Bool} {gap rest : List Char} {c : Char}
    (h : takeGap b (gap ++ c :: rest) = (gap, c :: rest)) (cs : List Char) :
    takeGap b (gap ++ cs) = (gap ++ (takeGap false cs).1, (takeGap false cs).2) := by
  induction gap generalizing b with
  | nil =>
      rw [List.nil_append] at h
      rcases takeGap_cases b c with ⟨b', hc⟩ | ⟨hb, -⟩
      · rw [hc] at h
        cases (Prod.ext_iff.mp h).1
      · rw [hb]
        rfl
  | cons d gap ih =>
      rw [List.cons_append] at h ⊢
      rcases takeGap_cases b d with ⟨b', hd⟩ | ⟨-, -, -, hd⟩
      · rw [hd] at h ⊢
        have hgap := ih (Prod.ext (List.cons.inj (Prod.ext_iff.mp h).1).2 (Prod.ext_iff.mp h).2)
        rw [hgap]
        rfl
      · rw [hd] at h
        cases (Prod.ext_iff.mp h).1

/-- A gap that a token ends does not see what is behind the first character of the token. -/
theorem takeGap_exchange {cs gap rest : List Char} {c : Char}
    (h : takeGap false cs = (gap, c :: rest)) (other : List Char) :
    takeGap false (gap ++ c :: other) = (gap, c :: other) := by
  obtain ⟨hblank, hmark⟩ := mark_of_takeGap h
  have hopen : takeGap false (gap ++ c :: rest) = (gap, c :: rest) := by
    have happend := takeGap_append false cs
    rw [h] at happend
    rw [happend, h]
  rw [takeGap_closed hopen, takeGap_mark hblank hmark]
  simp only [List.append_nil]

/-- A line feed closes a gap that reaches to it. -/
theorem takeGap_newline {b : Bool} {gap : List Char} (h : (takeGap b gap).2 = [])
    (cs : List Char) : (takeGap b (gap ++ '\n' :: cs)).2 = (takeGap false cs).2 := by
  induction gap generalizing b with
  | nil => exact takeGap_newline_cons b cs
  | cons d gap ih =>
      rw [List.cons_append]
      rcases takeGap_cases b d with ⟨b', hd⟩ | ⟨-, -, -, hd⟩
      · rw [hd] at h ⊢
        exact ih h
      · rw [hd] at h
        cases h

/-- The first part of a gap is one. -/
theorem takeGap_left {b : Bool} {xs ys : List Char} (h : (takeGap b (xs ++ ys)).2 = []) :
    (takeGap b xs).2 = [] := by
  induction xs generalizing b with
  | nil => rfl
  | cons d xs ih =>
      rw [List.cons_append] at h
      rcases takeGap_cases b d with ⟨b', hd⟩ | ⟨-, -, -, hd⟩
      · rw [hd] at h ⊢
        exact ih h
      · rw [hd] at h
        cases h

/-! ## Tokens -/

/-- How a token ends: with a quote or a bracket, or before a delimiter or the end of the
text. -/
def EndsToken (last : Char) (after : List Char) : Prop :=
  last = '"' ∨ last = '[' ∨ last = ']' ∨
    (isDelimiter last = false ∧ ∀ d ∈ after.head?, isDelimiter d = true)

/-- The second text may stand where the first one stood behind a token. -/
def Exchanges (after other : List Char) : Prop :=
  other.head? = after.head? ∨ ∀ d ∈ other.head?, isDelimiter d = true

theorem Exchanges.append {after other : List Char} (h : Exchanges after other)
    (core : List Char) : Exchanges (core ++ after) (core ++ other) := by
  cases core with
  | nil => exact h
  | cons c core => exact Or.inl rfl

theorem takeBare_append {word : List Char} (h : ∀ c ∈ word, isDelimiter c = false)
    {after : List Char} (hafter : ∀ d ∈ after.head?, isDelimiter d = true) :
    takeBare (word ++ after) = (word, after) := by
  have hword : ∀ c ∈ word, (!isDelimiter c) = true := by
    intro c hc
    rw [h c hc]
    rfl
  unfold takeBare
  rw [List.takeWhile_append_of_pos hword, List.dropWhile_append_of_pos hword]
  cases after with
  | nil => simp
  | cons d after => simp [hafter d rfl]

theorem takeBare_spec (cs : List Char) :
    (takeBare cs).1 ++ (takeBare cs).2 = cs ∧ (∀ c ∈ (takeBare cs).1, isDelimiter c = false) ∧
      ∀ d ∈ (takeBare cs).2.head?, isDelimiter d = true := by
  unfold takeBare
  refine ⟨List.takeWhile_append_dropWhile, ?_, ?_⟩
  · intro c hc
    simpa using List.all_eq_true.mp (List.all_takeWhile (p := fun c => !isDelimiter c)) c hc
  · intro d hd
    have h := List.head?_dropWhile_not (fun c => !isDelimiter c) cs
    rw [Option.mem_def.mp hd] at h
    simpa using h

theorem Literal.exists_body {cs : List Char} {l : Literal} (h : scanString cs = some l) :
    ∃ body, l.lexeme = body ++ ['"'] := by
  fun_induction scanString cs generalizing l with
  | case1 => cases h
  | case2 cs =>
      cases h
      exact ⟨[], rfl⟩
  | case3 cs ih =>
      obtain ⟨m, hm, rfl⟩ := Option.map_eq_some_iff.mp h
      obtain ⟨body, hbody⟩ := ih hm
      exact ⟨'\\' :: '"' :: body, by rw [Literal.cons, hbody]; rfl⟩
  | case4 c cs _ _ ih =>
      obtain ⟨m, hm, rfl⟩ := Option.map_eq_some_iff.mp h
      obtain ⟨body, hbody⟩ := ih hm
      exact ⟨c :: body, by rw [Literal.cons, hbody]; rfl⟩

theorem Literal.exists_cons {cs : List Char} {l : Literal} (h : scanString cs = some l) :
    ∃ c lexeme, l.lexeme = c :: lexeme := by
  obtain ⟨body, hbody⟩ := exists_body h
  exact List.exists_cons_of_ne_nil (by simp [hbody])

theorem scanString_cons {c : Char} {cs : List Char} (hquote : c ≠ '"')
    (hescape : c = '\\' → ∀ ds, cs ≠ '"' :: ds) :
    scanString (c :: cs) = (scanString cs).map (Literal.cons c [c]) := by
  rw [scanString.eq_def]
  split
  · rename_i h
    cases h
  · rename_i ds h
    exact absurd (List.cons.inj h).1 hquote
  · rename_i ds h
    obtain ⟨hc, hcs⟩ := List.cons.inj h
    exact absurd hcs (hescape hc ds)
  · rename_i h
    obtain ⟨rfl, rfl⟩ := List.cons.inj h
    rfl

/-- A literal ends with its closing quote, whatever follows. -/
theorem scanString_exchange {cs : List Char} {l : Literal} (h : scanString cs = some l)
    (other : List Char) : scanString (l.lexeme ++ other) = some ⟨l.value, l.lexeme, other⟩ := by
  fun_induction scanString cs generalizing l with
  | case1 => cases h
  | case2 cs =>
      cases h
      rfl
  | case3 cs ih =>
      obtain ⟨m, hm, rfl⟩ := Option.map_eq_some_iff.mp h
      change (scanString (m.lexeme ++ other)).map _ = _
      rw [ih hm]
      rfl
  | case4 c cs hquote hescape ih =>
      obtain ⟨m, hm, rfl⟩ := Option.map_eq_some_iff.mp h
      obtain ⟨d, lexeme, hlexeme⟩ := Literal.exists_cons hm
      change scanString (c :: (m.lexeme ++ other)) = _
      rw [scanString_cons hquote, ih hm]
      · rfl
      · -- the character behind a backslash is the one that was there before
        intro hc ds hds
        have hcs := scanString_append hm
        rw [hlexeme] at hds hcs
        obtain ⟨rfl, -⟩ := List.cons.inj hds
        exact hescape (lexeme ++ m.rest) hc hcs.symm

/-- The tokens that the scanner knows. -/
theorem scanToken_cases {c : Char} {cs lexeme after : List Char} {kind : TokenKind}
    (h : scanToken c cs = .token kind lexeme after) :
    (∃ l, c = '"' ∧ scanString cs = some l ∧ kind = .string (String.ofList l.value) ∧
      lexeme = c :: l.lexeme ∧ after = l.rest) ∨
    (c = '[' ∧ kind = .leftBracket ∧ lexeme = [c] ∧ after = cs) ∨
    (c = ']' ∧ kind = .rightBracket ∧ lexeme = [c] ∧ after = cs) ∨
    ((c ≠ '"' ∧ c ≠ '[' ∧ c ≠ ']') ∧ lexeme = c :: (takeBare cs).1 ∧ after = (takeBare cs).2 ∧
      (startsNumber c = true ∧ kind = numberKind lexeme ∨
        startsNumber c = false ∧ startsName c = true ∧ kind = .identifier)) := by
  unfold scanToken at h
  split at h
  · rename_i hc
    split at h
    · rename_i l hl
      cases h
      exact Or.inl ⟨l, hc, hl, rfl, rfl, rfl⟩
    · cases h
  · rename_i hquote
    split at h
    · rename_i hleft
      cases h
      exact Or.inr (Or.inl ⟨hleft, rfl, rfl, rfl⟩)
    · rename_i hleft
      split at h
      · rename_i hright
        cases h
        exact Or.inr (Or.inr (Or.inl ⟨hright, rfl, rfl, rfl⟩))
      · rename_i hright
        refine Or.inr (Or.inr (Or.inr ⟨⟨hquote, hleft, hright⟩, ?_⟩))
        split at h
        · rename_i hnumber
          cases h
          exact ⟨rfl, rfl, Or.inl ⟨hnumber, rfl⟩⟩
        · rename_i hnumber
          split at h
          · rename_i hname
            cases h
            exact ⟨rfl, rfl, Or.inr ⟨by simpa using hnumber, hname, rfl⟩⟩
          · cases h

/-- A token does not see what is behind the character after it. -/
theorem scanToken_exchange {c : Char} {cs lexeme after other : List Char} {kind : TokenKind}
    (h : scanToken c cs = .token kind lexeme after) (hother : Exchanges after other) :
    ∃ body, lexeme = c :: body ∧ scanToken c (body ++ other) = .token kind lexeme other := by
  rcases scanToken_cases h with ⟨l, rfl, hl, rfl, rfl, rfl⟩ | ⟨rfl, rfl, rfl, rfl⟩ |
    ⟨rfl, rfl, rfl, rfl⟩ | ⟨⟨hquote, hleft, hright⟩, rfl, rfl, hkind⟩
  · refine ⟨l.lexeme, rfl, ?_⟩
    rw [scanToken, if_pos rfl, scanString_exchange hl other]
  · exact ⟨[], rfl, rfl⟩
  · exact ⟨[], rfl, rfl⟩
  · refine ⟨(takeBare cs).1, rfl, ?_⟩
    obtain ⟨-, hword, hdelimiter⟩ := takeBare_spec cs
    have hbare : takeBare ((takeBare cs).1 ++ other) = ((takeBare cs).1, other) := by
      refine takeBare_append hword ?_
      rcases hother with hhead | hhead
      · rw [hhead]
        exact hdelimiter
      · exact hhead
    rw [scanToken, if_neg hquote, if_neg hleft, if_neg hright, hbare]
    rcases hkind with ⟨hnumber, rfl⟩ | ⟨hnumber, hname, rfl⟩
    · rw [if_pos hnumber]
    · rw [if_neg (by simp [hnumber]), if_pos hname]

/-- The scanner finds the end of the input nowhere else than at the end. -/
theorem kind_ne_endOfInput {c : Char} {cs lexeme after : List Char} {kind : TokenKind}
    (h : scanToken c cs = .token kind lexeme after) : kind ≠ .endOfInput := by
  rcases scanToken_cases h with ⟨l, -, -, rfl, -, -⟩ | ⟨-, rfl, -, -⟩ | ⟨-, rfl, -, -⟩ |
    ⟨-, -, -, ⟨-, rfl⟩ | ⟨-, -, rfl⟩⟩
  · nofun
  · nofun
  · nofun
  · unfold numberKind
    split
    · nofun
    · split <;> nofun
  · nofun

/-- Delimiters are blanks, marks of tokens of their own, and the start of a comment. -/
theorem isDelimiter_eq_false {c : Char} (hblank : Text.isBlank c = false) (hmark : c ≠ '#')
    (hquote : c ≠ '"') (hleft : c ≠ '[') (hright : c ≠ ']') : isDelimiter c = false := by
  have hrange : ¬ (9 ≤ c.toNat ∧ c.toNat ≤ 13) ∧ c.toNat ≠ 32 := by
    simp [Text.isBlank, Text.blankRanges, Text.inRanges] at hblank
    omega
  have hspace : c ≠ ' ' := by
    rintro rfl
    exact hrange.2 rfl
  simp only [isDelimiter, Bool.or_eq_false_iff, Bool.and_eq_false_iff, beq_eq_false_iff_ne,
    decide_eq_false_iff_not]
  refine ⟨⟨⟨⟨⟨hspace, ?_⟩, hleft⟩, hright⟩, hquote⟩, hmark⟩
  omega

/-- How a token ends. -/
theorem scanToken_ends {c : Char} {cs lexeme after : List Char} {kind : TokenKind}
    (hc : Text.isBlank c = false ∧ c ≠ '#') (h : scanToken c cs = .token kind lexeme after) :
    ∃ body last, lexeme = body ++ [last] ∧ EndsToken last after := by
  rcases scanToken_cases h with ⟨l, rfl, hl, -, rfl, -⟩ | ⟨hleft, -, rfl, -⟩ |
    ⟨hright, -, rfl, -⟩ | ⟨⟨hquote, hleft, hright⟩, rfl, rfl, -⟩
  · obtain ⟨body, hbody⟩ := Literal.exists_body hl
    exact ⟨'"' :: body, '"', by rw [hbody]; rfl, Or.inl rfl⟩
  · exact ⟨[], c, rfl, Or.inr (Or.inl hleft)⟩
  · exact ⟨[], c, rfl, Or.inr (Or.inr (Or.inl hright))⟩
  · -- a bare word begins with a character that is no delimiter and takes no delimiter
    obtain ⟨-, hword, hdelimiter⟩ := takeBare_spec cs
    obtain ⟨body, last, hlast⟩ := (List.eq_nil_or_concat (c :: (takeBare cs).1)).resolve_left
      (List.cons_ne_nil _ _)
    rw [List.concat_eq_append] at hlast
    refine ⟨body, last, hlast, Or.inr (Or.inr (Or.inr ⟨?_, hdelimiter⟩))⟩
    have hmem : last ∈ c :: (takeBare cs).1 := by
      rw [hlast]
      simp
    rcases List.mem_cons.mp hmem with rfl | hmem
    · exact isDelimiter_eq_false hc.1 hc.2 hquote hleft hright
    · exact hword last hmem

/-! ## Rows of tokens -/

/-- A gap, the token behind it and what follows make up a text. -/
theorem gap_append_token {cs gap rest lexeme after : List Char} {c : Char} {kind : TokenKind}
    (hgap : takeGap false cs = (gap, c :: rest))
    (htoken : scanToken c rest = .token kind lexeme after) : gap ++ (lexeme ++ after) = cs := by
  have hcs := takeGap_append false cs
  rw [hgap] at hcs
  rw [Lexed.lexeme_append htoken, hcs]

namespace Scans

theorem trans {cs u v : List Char} {ps qs : List Piece} (h : Scans cs ps u)
    (h' : Scans u qs v) : Scans cs (ps ++ qs) v := by
  induction h with
  | nil cs => exact h'
  | cons hgap htoken _ ih => exact .cons hgap htoken (ih h')

/-- The gap, the token and the rest of the row make up the text of a row. -/
theorem core_eq {core core' gap rest lexeme u : List Char} {c : Char} {kind : TokenKind}
    (hgap : takeGap false (core ++ u) = (gap, c :: rest))
    (htoken : scanToken c rest = .token kind lexeme (core' ++ u)) :
    core = gap ++ (lexeme ++ core') := by
  apply (List.append_left_inj u).mp
  rw [← gap_append_token hgap htoken]
  simp only [List.append_assoc]

/-- What is left behind the tokens is at the end of the text. -/
theorem exists_core {cs u : List Char} {ps : List Piece} (h : Scans cs ps u) :
    ∃ core, cs = core ++ u := by
  induction h with
  | nil cs => exact ⟨[], rfl⟩
  | @cons cs gap rest lexeme after u c kind ps hgap htoken _ ih =>
      obtain ⟨core, rfl⟩ := ih
      refine ⟨gap ++ lexeme ++ core, ?_⟩
      rw [← gap_append_token hgap htoken]
      simp only [List.append_assoc]

/-- A gap and the token behind it stay what they are in front of another text. -/
theorem cons_exchange {cs gap rest lexeme after other u : List Char} {c : Char}
    {kind : TokenKind} {ps : List Piece} (hgap : takeGap false cs = (gap, c :: rest))
    (htoken : scanToken c rest = .token kind lexeme after) (hother : Exchanges after other)
    (h : Scans other ps u) :
    Scans (gap ++ (lexeme ++ other)) (⟨kind, String.ofList lexeme⟩ :: ps) u := by
  obtain ⟨body, rfl, hscan⟩ := scanToken_exchange htoken hother
  exact .cons (takeGap_exchange hgap (body ++ other)) hscan h

/-- Tokens stay what they are when the text behind them is exchanged. -/
theorem exchange {core u other : List Char} {ps : List Piece} (h : Scans (core ++ u) ps u)
    (hother : Exchanges u other) : Scans (core ++ other) ps other := by
  generalize hcs : core ++ u = cs at h
  induction h generalizing core with
  | nil cs =>
      have hnil : core = [] := by simpa using hcs
      rw [hnil]
      exact .nil other
  | @cons cs gap rest lexeme after u c kind ps hgap htoken h ih =>
      obtain ⟨core', rfl⟩ := h.exists_core
      subst hcs
      have hcore : core ++ other = gap ++ (lexeme ++ (core' ++ other)) := by
        rw [core_eq hgap htoken]
        simp only [List.append_assoc]
      rw [hcore]
      exact cons_exchange hgap htoken (hother.append core') (ih hother rfl)

/-- How the text of a row of tokens ends. -/
theorem boundary {core u : List Char} {ps : List Piece} (h : Scans (core ++ u) ps u) :
    (core = [] ∧ ps = []) ∨ ∃ body last, core = body ++ [last] ∧ EndsToken last u := by
  generalize hcs : core ++ u = cs at h
  induction h generalizing core with
  | nil cs => exact Or.inl ⟨by simpa using hcs, rfl⟩
  | @cons cs gap rest lexeme after u c kind ps hgap htoken h ih =>
      obtain ⟨core', rfl⟩ := h.exists_core
      subst hcs
      refine Or.inr ?_
      rw [core_eq hgap htoken]
      rcases ih rfl with ⟨rfl, -⟩ | ⟨body, last, rfl, hlast⟩
      · obtain ⟨body, last, rfl, hlast⟩ := scanToken_ends (mark_of_takeGap hgap) htoken
        exact ⟨gap ++ body, last, by simp, hlast⟩
      · exact ⟨gap ++ (lexeme ++ body), last, by simp, hlast⟩

end Scans

end Lexer
end SceneReader
