import SceneReader.Proofs.Token.Words

/-!
# Quoted texts and literals

Quoting a text puts a backslash before each of its quotes and nothing else, and a literal
drops the backslashes that stand right before a quote.  The two undo each other for all texts
but those with a backslash at their end: there the last backslash meets the closing quote,
and the literal is never closed.

No literal has such a value.  The last character of a value stands before the closing
quote, where a backslash would have taken the quote along.  So the values of literals are
the texts that can be quoted, and quoting writes any of them so that it is read again.

**Results.**
* `Literal.getLast?_value_ne`: the value of a literal does not end with a backslash.
* `tokenize_quote_of_not_quotable`: what is wrong with a text that cannot be quoted.
* `readsBack_iff`: the texts that quoting keeps are the values of literals.
-/

namespace SceneReader
namespace Lexer

/-! ## Values of literals -/

/-- The empty literal is closed at once. -/
theorem Literal.eq_quote_cons {cs : List Char} {l : Literal} (h : scanString cs = some l)
    (hvalue : l.value = []) : ∃ ds, cs = '"' :: ds := by
  fun_cases scanString cs with
  | case1 => cases h
  | case2 ds => exact ⟨ds, rfl⟩
  | case3 ds =>
      obtain ⟨m, -, rfl⟩ := Option.map_eq_some_iff.mp h
      cases hvalue
  | case4 c ds hquote hescape =>
      rw [scanString_cons hquote fun hc ds' hds => hescape ds' hc hds] at h
      obtain ⟨m, -, rfl⟩ := Option.map_eq_some_iff.mp h
      cases hvalue

/-- The value of a literal does not end with a backslash. -/
theorem Literal.getLast?_value_ne {cs : List Char} {l : Literal} (h : scanString cs = some l) :
    l.value.getLast? ≠ some '\\' := by
  fun_induction scanString cs generalizing l with
  | case1 => cases h
  | case2 cs =>
      cases h
      simp
  | case3 cs ih =>
      obtain ⟨m, hm, rfl⟩ := Option.map_eq_some_iff.mp h
      have hlast := ih hm
      simp only [Literal.cons, List.getLast?_cons]
      cases hvalue : m.value.getLast? with
      | none => simp
      | some d => simpa [hvalue] using hlast
  | case4 c cs hquote hescape ih =>
      obtain ⟨m, hm, rfl⟩ := Option.map_eq_some_iff.mp h
      have hlast := ih hm
      simp only [Literal.cons, List.getLast?_cons]
      cases hvalue : m.value.getLast? with
      | none =>
          -- the character is the last one, so that the closing quote stands behind it
          obtain ⟨ds, hds⟩ := Literal.eq_quote_cons hm (List.getLast?_eq_none_iff.mp hvalue)
          simpa using fun hc => hescape ds hc hds
      | some d => simpa [hvalue] using hlast

/-- Every token of a scan but the end of the input was found at some place. -/
theorem exists_scanToken {file : Option String} {lines : List String} {place : Position}
    {cs : List Char} {t : Token} (h : t ∈ (scanFrom file lines place cs).tokens)
    (hend : t.kind ≠ .endOfInput) :
    ∃ c rest after, scanToken c rest = .token t.kind t.lexeme.toList after := by
  fun_induction scanFrom file lines place cs with
  | case1 =>
      obtain rfl := List.mem_singleton.mp h
      exact absurd rfl hend
  | case2 =>
      rename_i htoken _ _ ih
      rcases List.mem_cons.mp h with rfl | h
      · rw [String.toList_ofList]
        exact ⟨_, _, _, htoken⟩
      · exact ih h
  | case3 => cases h
  | case4 => cases h

/-- Some text has a literal with this value. -/
def IsLiteral (value : String) : Prop :=
  ∃ source file, ∃ t ∈ (scan source file).tokens, t.kind = .string value

theorem IsLiteral.quotable {value : String} (h : IsLiteral value) : Quotable value := by
  obtain ⟨source, file, t, ht, hkind⟩ := h
  obtain ⟨c, rest, after, htoken⟩ := exists_scanToken ht (by rw [hkind]; nofun)
  rw [hkind] at htoken
  rcases scanToken_cases htoken with ⟨l, -, hl, hvalue, -, -⟩ | ⟨-, hvalue, -, -⟩ |
    ⟨-, hvalue, -, -⟩ | ⟨-, -, -, ⟨-, hvalue⟩ | ⟨-, -, hvalue⟩⟩
  · obtain rfl := TokenKind.string.inj hvalue
    rw [Quotable, String.toList_ofList]
    exact Literal.getLast?_value_ne hl
  · cases hvalue
  · cases hvalue
  · unfold numberKind at hvalue
    split at hvalue
    · cases hvalue
    · split at hvalue <;> cases hvalue
  · cases hvalue

/-! ## Reading back -/

/-- A quoted text is one literal with the text as its value, and nothing else. -/
def ReadsBack (file : Option String) (s : String) : Prop :=
  ∃ t last, tokenize (Text.quote s) file = .ok [t, last] ∧ t.kind = .string s ∧
    last.kind = .endOfInput

theorem ReadsBack.isLiteral {file : Option String} {s : String} (h : ReadsBack file s) :
    IsLiteral s := by
  obtain ⟨t, last, htokens, hkind, -⟩ := h
  refine ⟨Text.quote s, file, t, ?_, hkind⟩
  unfold tokenize at htokens
  split at htokens
  · rename_i hscan
    cases htokens
    rw [hscan]
    exact List.mem_cons_self
  · cases htokens

theorem Quotable.readsBack {s : String} (h : Quotable s) (file : Option String) :
    ReadsBack file s := by
  have hspells : Spells (Text.quote s).toList [⟨.string s, Text.quote s⟩] := by
    have hscans := scans_quote h []
    rw [List.append_nil] at hscans
    exact ⟨[], hscans, rfl⟩
  obtain ⟨ts, htokens, hpieces⟩ := (spells_iff file).mp hspells
  rw [String.ofList_toList] at htokens
  obtain ⟨t, rest, rfl, ht, hrest⟩ := List.map_eq_cons_iff.mp hpieces
  obtain ⟨last, rest, rfl, hlast, hnil⟩ := List.map_eq_cons_iff.mp hrest
  obtain rfl := List.map_eq_nil_iff.mp hnil
  exact ⟨t, last, htokens, congrArg Piece.kind ht, congrArg Piece.kind hlast⟩

theorem scanString_escaped_eq_none {s : String} (h : ¬ Quotable s) :
    scanString (escaped s.toList ++ ['"']) = none := by
  obtain ⟨body, hbody⟩ := List.getLast?_eq_some_iff.mp (Decidable.not_not.mp h)
  have hescaped : escaped s.toList ++ ['"'] = escaped body ++ ['\\', '"'] := by
    rw [hbody]
    simp [escaped]
  rw [hescaped, scanString_escaped_append (by simp)]
  rfl

theorem scanFrom_of_unterminated {file : Option String} {lines : List String} {place : Position}
    {cs gap rest : List Char} {c : Char} (hgap : takeGap false cs = (gap, c :: rest))
    (htoken : scanToken c rest = .unterminated) :
    scanFrom file lines place cs = .fail lines .unterminatedString
      ⟨file, place.advanceAll gap, (place.advanceAll gap).advanceAll (c :: rest)⟩ := by
  obtain rfl : (takeGap false cs).1 = gap := congrArg Prod.fst hgap
  unfold scanFrom
  split
  · rename_i hcs
    rw [hgap] at hcs
    cases hcs
  · rename_i hcs
    rw [hgap] at hcs
    cases hcs
    split
    · rename_i hfound
      rw [htoken] at hfound
      cases hfound
    · rename_i hfound
      rw [htoken] at hfound
      cases hfound
    · rfl

/-- A text with a backslash at its end stays open when it is quoted: the fault is an open
literal from the first character to the last. -/
theorem tokenize_quote_of_not_quotable {s : String} (h : ¬ Quotable s) (file : Option String) :
    tokenize (Text.quote s) file = .error
      ⟨.unterminatedString, ⟨file, .start, Position.start.advanceAll (Text.quote s).toList⟩,
        Text.lineAt? (Text.splitLines (Text.quote s)) 1⟩ := by
  have htext : (Text.quote s).toList = '"' :: (escaped s.toList ++ ['"']) := by
    rw [Text.quote, String.toList_ofList]
    rfl
  have hgap : takeGap false (Text.quote s).toList = ([], '"' :: (escaped s.toList ++ ['"'])) := by
    rw [htext]
    exact takeGap_mark (by decide) (by decide) _
  have htoken : scanToken '"' (escaped s.toList ++ ['"']) = .unterminated := by
    rw [scanToken, if_pos rfl, scanString_escaped_eq_none h]
  rw [tokenize, scan, scanFrom_of_unterminated hgap htoken, htext]
  rfl

/-- Quoting and reading keep a text exactly if it has no backslash at its end, and these texts
are the values that literals have. -/
theorem readsBack_iff (file : Option String) (s : String) :
    (ReadsBack file s ↔ Quotable s) ∧ (IsLiteral s ↔ Quotable s) := by
  refine ⟨⟨?_, fun h => h.readsBack file⟩, IsLiteral.quotable, fun h => (h.readsBack none).isLiteral⟩
  rintro ⟨t, last, htokens, -, -⟩
  by_contra hs
  rw [tokenize_quote_of_not_quotable hs] at htokens
  cases htokens

/-- Backslashes before a quote, a hash and a line feed are read as they were. -/
example : (scan (Text.quote "a\\\\\" #\n") none).tokens.map (·.string?) =
    [some "a\\\\\" #\n", none] := by
  decide +kernel

end Lexer
end SceneReader
