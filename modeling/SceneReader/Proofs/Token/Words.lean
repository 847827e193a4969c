import Mathlib.Data.List.Forall2
import SceneReader.Proofs.Number.Text
import SceneReader.Proofs.Token.Reading

/-!
# Words that are one token

A name, a number, a bracket and most quoted texts are one token each, wherever a blank
stands in front of them and behind them.  A text in such words gives one token after the
other.

A quoted text is one token as long as it does not end with a backslash.  If it does, the
backslash takes the closing quote along, and the literal goes on into what follows.

**Results.**
* `IsBare.scans`: a bare word is one token, and its characters say which.
* `Lexes.name`, `Lexes.number`, `Lexes.quote`: the words that are one token.
* `Tokens.split`: a text in words gives its tokens first, and then those of what follows.
* `Tokens.quoted`: what a quoted text gives, with and without a backslash at its end.
-/

namespace SceneReader
namespace Lexer

/-- The text is empty, or it begins with a character that ends a bare word. -/
def Cut (cs : List Char) : Prop :=
  ∀ d ∈ cs.head?, isDelimiter d = true

theorem cut_nil : Cut [] := nofun

theorem cut_blank {b : Char} (h : isDelimiter b = true) (cs : List Char) : Cut (b :: cs) := by
  intro d hd
  obtain rfl : b = d := Option.some.inj hd
  exact h

/-- The word is one token of the kind where a delimiter follows it. -/
def Lexes (word : String) (kind : TokenKind) : Prop :=
  ∀ after, Cut after → Scans (word.toList ++ after) [⟨kind, word⟩] after

/-! ## Bare words -/

theorem ne_of_isDelimiter {c d : Char} (hc : isDelimiter c = false) (hd : isDelimiter d = true) :
    c ≠ d := by
  rintro rfl
  rw [hc] at hd
  cases hd

/-- What a bare word is. -/
def wordKind : List Char → TokenKind
  | [] => .identifier
  | c :: cs => if startsNumber c then numberKind (c :: cs) else .identifier

/-- The characters make up a bare word. -/
structure IsBare (word : List Char) : Prop where
  head : ∃ c, word.head? = some c ∧ Text.isBlank c = false ∧
    (startsNumber c = true ∨ startsName c = true)
  whole : ∀ c ∈ word, isDelimiter c = false

/-- A bare word is one token where a delimiter follows it. -/
theorem scanToken_bare {c : Char} {cs after : List Char} (h : IsBare (c :: cs))
    (hafter : Cut after) :
    scanToken c (cs ++ after) = .token (wordKind (c :: cs)) (c :: cs) after := by
  obtain ⟨⟨d, hd, -, hstart⟩, hwhole⟩ := h
  obtain rfl := Option.some.inj hd
  have hc : isDelimiter c = false := hwhole c List.mem_cons_self
  have hbare : takeBare (cs ++ after) = (cs, after) :=
    takeBare_append (fun d hd => hwhole d (List.mem_cons_of_mem c hd)) hafter
  rw [scanToken, if_neg (ne_of_isDelimiter hc (by decide)),
    if_neg (ne_of_isDelimiter hc (by decide)), if_neg (ne_of_isDelimiter hc (by decide)), hbare,
    wordKind]
  by_cases hnumber : startsNumber c = true
  · rw [if_pos hnumber, if_pos hnumber]
  · rw [if_neg hnumber, if_neg hnumber, if_pos (hstart.resolve_left hnumber)]

theorem IsBare.scans {word after : List Char} (h : IsBare word) (hafter : Cut after) :
    Scans (word ++ after) [⟨wordKind word, String.ofList word⟩] after := by
  obtain ⟨c, hc, hblank, -⟩ := h.head
  obtain ⟨cs, rfl⟩ := List.head?_eq_some_iff.mp hc
  have hmark : c ≠ '#' := ne_of_isDelimiter (h.whole c List.mem_cons_self) (by decide)
  exact .cons (takeGap_mark hblank hmark _) (scanToken_bare h hafter) (.nil after)

/-- A name is one token where a delimiter follows it. -/
theorem scans_name (c : Char) (cs after : List Char) (hgap : Text.isBlank c = false ∧ c ≠ '#')
    (hnumber : startsNumber c = false) (hname : startsName c = true)
    (hall : (c :: cs).all (fun d => !isDelimiter d) = true)
    (hafter : ∀ d ∈ after.head?, isDelimiter d = true) :
    Scans (c :: (cs ++ after)) [⟨.identifier, String.ofList (c :: cs)⟩] after := by
  have hword : ∀ d ∈ c :: cs, isDelimiter d = false := by
    intro d hd
    simpa using List.all_eq_true.mp hall d hd
  have hbare : IsBare (c :: cs) := ⟨⟨c, rfl, hgap.1, Or.inr hname⟩, hword⟩
  have hscans := hbare.scans hafter
  rwa [wordKind, if_neg (by simp [hnumber])] at hscans

/-- The characters make up a name. -/
def isName : List Char → Bool
  | [] => false
  | c :: cs =>
      !Text.isBlank c && !startsNumber c && startsName c &&
        (c :: cs).all (fun d => !isDelimiter d)

theorem Lexes.name {word : String} (h : isName word.toList = true) : Lexes word .identifier := by
  intro after hafter
  cases hword : word.toList with
  | nil =>
      rw [hword] at h
      cases h
  | cons c cs =>
      rw [hword] at h
      simp only [isName, Bool.and_eq_true, Bool.not_eq_true'] at h
      obtain ⟨⟨⟨hblank, hnumber⟩, hname⟩, hall⟩ := h
      have hmark : c ≠ '#' := by
        rintro rfl
        simp [isDelimiter] at hall
      have hscans := scans_name c cs after ⟨hblank, hmark⟩ hnumber hname hall hafter
      rwa [← hword, String.ofList_toList] at hscans

/-- The characters of numbers neither end a bare word nor spoil it. -/
theorem marks_bare : ∀ c ∈ Number.marks, isDelimiter c = false ∧ c ≠ '_' := by
  have hall : Number.marks.all (fun c => !isDelimiter c && c != '_') = true := by decide
  simpa only [List.all_eq_true, Bool.and_eq_true, bne_iff_ne, Bool.not_eq_true'] using hall

theorem marks_not_blank : ∀ c ∈ Number.marks, Text.isBlank c = false := by
  have hall : Number.marks.all (fun c => !Text.isBlank c) = true := by decide
  simpa only [List.all_eq_true, Bool.not_eq_true'] using hall

theorem numberKind_of_denotes {word : List Char} {x : Float} (h : Number.Denotes word x) :
    numberKind word = .number x := by
  have hunderscore : ¬ word.contains '_' = true := by
    rw [List.contains_iff_mem]
    exact fun hmem => (marks_bare '_' (h.marks '_' hmem)).2 rfl
  rw [numberKind, if_neg hunderscore, h.value]

/-- A word that is read as a number is a number token. -/
theorem Lexes.number {word : String} {x : Float} (h : Number.Denotes word.toList x) :
    Lexes word (.number x) := by
  intro after hafter
  obtain ⟨c, cs, hword, hhead⟩ := h.head
  have hkind := numberKind_of_denotes h
  have hmarks := h.marks
  rw [hword] at hkind hmarks ⊢
  have hc : c ∈ Number.marks := hmarks c List.mem_cons_self
  have hnumber : startsNumber c = true := by
    rcases hhead with hdigit | rfl
    · simp [startsNumber, Text.isDigit, hdigit]
    · simp [startsNumber]
  have hbare : IsBare (c :: cs) :=
    ⟨⟨c, rfl, marks_not_blank c hc, Or.inl hnumber⟩, fun d hd => (marks_bare d (hmarks d hd)).1⟩
  have hscans := hbare.scans hafter
  rw [wordKind, if_pos hnumber, hkind, ← hword, String.ofList_toList, hword] at hscans
  exact hscans

theorem lexes_leftBracket : Lexes "[" .leftBracket := fun after _ =>
  .cons (takeGap_mark (by decide) (by decide) _) rfl (.nil after)

theorem lexes_rightBracket : Lexes "]" .rightBracket := fun after _ =>
  .cons (takeGap_mark (by decide) (by decide) _) rfl (.nil after)

/-! ## Quoted texts -/

/-- A text as it stands between its quotes. -/
def escaped (s : List Char) : List Char :=
  s.flatMap (fun c => if c = '"' then ['\\', '"'] else [c])

/-- A text between quotes is read as it stands up to its end, unless a backslash at the
end meets a quote. -/
theorem scanString_escaped_append {s cs : List Char}
    (h : s.getLast? = some '\\' → ∀ ds, cs ≠ '"' :: ds) :
    scanString (escaped s ++ cs) =
      (scanString cs).map fun l => ⟨s ++ l.value, escaped s ++ l.lexeme, l.rest⟩ := by
  induction s with
  | nil =>
      simp only [escaped, List.flatMap_nil, List.nil_append]
      exact Option.map_id'.symm
  | cons c s ih =>
      have hs : s.getLast? = some '\\' → ∀ ds, cs ≠ '"' :: ds := by
        intro hlast
        refine h ?_
        cases s with
        | nil => cases hlast
        | cons d s => rwa [List.getLast?_cons_cons]
      by_cases hc : c = '"'
      · subst hc
        change (scanString (escaped s ++ cs)).map _ = _
        rw [ih hs, Option.map_map]
        rfl
      · have hcons : escaped (c :: s) = c :: escaped s := by
          simp [escaped, hc]
        rw [hcons, List.cons_append, scanString_cons hc, ih hs, Option.map_map]
        · rfl
        · -- the character behind a backslash is no quote, since each quote has its own
          intro hescape ds hds
          cases s with
          | nil => exact h (by rw [hescape]; rfl) ds hds
          | cons d s =>
              by_cases hd : d = '"'
              · subst hd
                cases hds
              · simp only [escaped, List.flatMap_cons, if_neg hd] at hds
                exact hd (List.cons.inj hds).1

/-- A quoted text reads back, whatever follows its closing quote. -/
theorem scanString_escaped {s : List Char} (h : s.getLast? ≠ some '\\') (after : List Char) :
    scanString (escaped s ++ '"' :: after) = some ⟨s, escaped s ++ ['"'], after⟩ := by
  rw [scanString_escaped_append fun hlast => absurd hlast h]
  simp [scanString]

/-- A quoted text is one token. -/
theorem scans_quote {s : String} (h : s.toList.getLast? ≠ some '\\') (after : List Char) :
    Scans ((Text.quote s).toList ++ after) [⟨.string s, Text.quote s⟩] after := by
  have hquote : Text.quote s = String.ofList ('"' :: (escaped s.toList ++ ['"'])) := rfl
  have hscan : scanToken '"' (escaped s.toList ++ '"' :: after) =
      .token (.string s) ('"' :: (escaped s.toList ++ ['"'])) after := by
    rw [scanToken, if_pos rfl, scanString_escaped h after]
    simp only [String.ofList_toList]
  have hscans := Scans.cons (takeGap_mark (by decide) (by decide) _) hscan (.nil after)
  rw [hquote, String.toList_ofList]
  simpa only [List.cons_append, List.append_assoc, List.nil_append] using hscans

/-- The text has no backslash at its end that would take the closing quote along. -/
def Quotable (s : String) : Prop :=
  s.toList.getLast? ≠ some '\\'

instance (s : String) : Decidable (Quotable s) := inferInstanceAs (Decidable (_ ≠ _))

theorem Lexes.quote {s : String} (h : Quotable s) : Lexes (Text.quote s) (.string s) :=
  fun after _ => scans_quote h after

/-- What a text is read as when it was quoted with a backslash at its end: the quote
that should close the literal is part of it. -/
def Overruns (s value : String) : Prop :=
  ∃ body more, s.toList = body ++ ['\\'] ∧ value.toList = body ++ '"' :: more

theorem Overruns.not_quotable {s value : String} (h : Overruns s value) : ¬ Quotable s := by
  obtain ⟨body, more, hs, -⟩ := h
  simp [Quotable, hs]

theorem Overruns.ne {s value : String} (h : Overruns s value) : value ≠ s := by
  rintro rfl
  obtain ⟨body, more, hs, hvalue⟩ := h
  rw [hs, List.append_cancel_left_eq] at hvalue
  cases hvalue

theorem overruns_of_scanString {s : String} {after : List Char} {l : Literal}
    (h : ¬ Quotable s) (hl : scanString (escaped s.toList ++ '"' :: after) = some l) :
    Overruns s (String.ofList l.value) := by
  obtain ⟨body, hbody⟩ := List.getLast?_eq_some_iff.mp (Decidable.not_not.mp h)
  have hescaped : escaped s.toList ++ '"' :: after = escaped body ++ '\\' :: '"' :: after := by
    rw [hbody]
    simp [escaped]
  rw [hescaped, scanString_escaped_append (by simp)] at hl
  obtain ⟨m, hm, rfl⟩ := Option.map_eq_some_iff.mp hl
  obtain ⟨n, -, rfl⟩ := Option.map_eq_some_iff.mp (hm : (scanString after).map _ = some m)
  exact ⟨body, n.value, hbody, String.toList_ofList⟩

/-! ## Tokens of a text -/

/-- A text that begins with a token gives this token first. -/
theorem Spells.uncons {cs after : List Char} {p : Piece} {ps : List Piece}
    (h : Spells cs ps) (hp : Scans cs [p] after) : ∃ qs, ps = p :: qs ∧ Spells after qs := by
  obtain ⟨u, hscans, hend⟩ := h
  cases hp with
  | cons hgap htoken hnil =>
      cases hnil
      cases hscans with
      | nil =>
          rw [hgap] at hend
          cases hend
      | cons hgap' htoken' hscans' =>
          rw [hgap] at hgap'
          cases hgap'
          rw [htoken] at htoken'
          cases htoken'
          exact ⟨_, rfl, _, hscans', hend⟩

/-- The tokens are those of the text, wherever it stands. -/
def Tokens (cs : List Char) (ts : List Token) : Prop :=
  ∃ ps, Spells cs ps ∧ ts.map Token.piece = ps ++ [.atEnd]

theorem tokens_of_tokenize {source : String} {file : Option String} {ts : List Token}
    (h : tokenize source file = .ok ts) : Tokens source.toList ts := by
  obtain ⟨ps, hrow⟩ := tokenize_ok_iff.mp h
  exact ⟨ps, hrow.spells, hrow.map_piece⟩

namespace Tokens

variable {cs ds after : List Char} {ts : List Token}

/-- A gap in front of a text has no part in its tokens. -/
theorem congr (h : Tokens cs ts) (hgap : (takeGap false ds).2 = (takeGap false cs).2) :
    Tokens ds ts := by
  obtain ⟨ps, hspells, hpieces⟩ := h
  exact ⟨ps, hspells.congr hgap, hpieces⟩

theorem of_blank {b : Char} (hb : Text.isBlank b = true) (h : Tokens (b :: cs) ts) :
    Tokens cs ts :=
  h.congr (takeGap_blank_cons hb cs).symm

/-- The token at the front of a text, and the tokens of the rest. -/
theorem uncons {p : Piece} (h : Tokens cs ts) (hp : Scans cs [p] after) :
    ∃ t rest, ts = t :: rest ∧ t.piece = p ∧ Tokens after rest := by
  obtain ⟨ps, hspells, hpieces⟩ := h
  obtain ⟨qs, rfl, hafter⟩ := hspells.uncons hp
  rw [List.cons_append] at hpieces
  obtain ⟨t, rest, rfl, ht, hrest⟩ := List.map_eq_cons_iff.mp hpieces
  exact ⟨t, rest, rfl, ht, qs, hafter, hrest⟩

/-- At its end a text gives the end of the input. -/
theorem end_of_nil (h : Tokens [] ts) : ∃ t, ts = [t] ∧ t.piece = .atEnd := by
  obtain ⟨ps, ⟨u, hscans, -⟩, hpieces⟩ := h
  cases hscans with
  | nil =>
      obtain ⟨t, rest, rfl, ht, hrest⟩ := List.map_eq_cons_iff.mp hpieces
      obtain rfl := List.map_eq_nil_iff.mp hrest
      exact ⟨t, rfl, ht⟩
  | cons hgap => cases hgap

/-- What a quoted text gives: the text, or a literal that runs over its end. -/
theorem quoted {s : String} (h : Tokens ((Text.quote s).toList ++ after) ts) :
    ∃ t rest value, ts = t :: rest ∧ t.kind = .string value ∧
      ((Quotable s ∧ value = s ∧ Tokens after rest) ∨ Overruns s value) := by
  by_cases hs : Quotable s
  · obtain ⟨t, rest, rfl, ht, hrest⟩ := h.uncons (scans_quote hs after)
    exact ⟨t, rest, s, rfl, congrArg Piece.kind ht, Or.inl ⟨hs, rfl, hrest⟩⟩
  · have htext : (Text.quote s).toList ++ after = '"' :: (escaped s.toList ++ '"' :: after) := by
      rw [show Text.quote s = String.ofList ('"' :: (escaped s.toList ++ ['"'])) from rfl]
      simp
    rw [htext] at h
    obtain ⟨ps, ⟨u, hscans, hend⟩, hpieces⟩ := h
    have hgap : takeGap false ('"' :: (escaped s.toList ++ '"' :: after)) = ([], _) :=
      takeGap_mark (by decide) (by decide) _
    cases hscans with
    | nil =>
        rw [hgap] at hend
        cases hend
    | cons hgap' htoken _ =>
        rw [hgap] at hgap'
        cases hgap'
        obtain ⟨t, rest, rfl, ht, -⟩ := List.map_eq_cons_iff.mp hpieces
        have hkind := congrArg Piece.kind ht
        rw [scanToken, if_pos rfl] at htoken
        split at htoken
        · rename_i l hl
          cases htoken
          exact ⟨t, rest, _, rfl, hkind, Or.inr (overruns_of_scanString hs hl)⟩
        · cases htoken

end Tokens

/-! ## Texts in words -/

/-- The words with a space in front of each. -/
def spaced (words : List String) : List Char :=
  words.flatMap fun w => ' ' :: w.toList

theorem spaced_append (us ws : List String) : spaced (us ++ ws) = spaced us ++ spaced ws :=
  List.flatMap_append

/-- In joined texts the separator stands in front of each but the first. -/
theorem toList_intercalate_cons (sep s : String) (ss : List String) :
    (sep.intercalate (s :: ss)).toList =
      s.toList ++ ss.flatMap (fun t => sep.toList ++ t.toList) := by
  rw [String.toList_intercalate]
  induction ss generalizing s with
  | nil => simp
  | cons t ss ih =>
      rw [List.map_cons, List.map_cons, List.intercalate_cons_cons, ← List.map_cons, ih t,
        List.flatMap_cons, List.append_assoc, List.append_assoc]

/-- Words joined by spaces. -/
theorem toList_intercalate_space (w : String) (ws : List String) :
    (" ".intercalate (w :: ws)).toList = w.toList ++ spaced ws :=
  toList_intercalate_cons " " w ws

theorem cut_spaced {after : List Char} (h : Cut after) (ws : List String) :
    Cut (spaced ws ++ after) := by
  cases ws with
  | nil => exact h
  | cons w ws => exact cut_blank (by decide) _

/-- The first word and what follows it. -/
theorem takeGap_spaced_cons (w : String) (ws : List String) (after : List Char) :
    (takeGap false (spaced (w :: ws) ++ after)).2 =
      (takeGap false (w.toList ++ (spaced ws ++ after))).2 := by
  have htext : spaced (w :: ws) ++ after = ' ' :: (w.toList ++ (spaced ws ++ after)) := by
    simp [spaced]
  rw [htext]
  exact takeGap_blank_cons (by decide) _

/-- A text in words spells its words, and then what follows. -/
theorem spells_spaced {ws : List String} {after : List Char} {ps : List Piece}
    (hwords : ∀ w ∈ ws, ∃ kind, Lexes w kind) (hafter : Cut after) (h : Spells after ps) :
    ∃ qs, Spells (spaced ws ++ after) qs := by
  induction ws with
  | nil => exact ⟨ps, h⟩
  | cons w ws ih =>
      obtain ⟨⟨kind, hword⟩, hrest⟩ := List.forall_mem_cons.mp hwords
      obtain ⟨qs, hqs⟩ := ih hrest
      have hspells := (hword _ (cut_spaced hafter ws)).spells hqs
      exact ⟨_, hspells.congr (takeGap_spaced_cons w ws after)⟩

namespace Tokens

variable {after : List Char} {ts : List Token}

/-- The token of the first word, and the tokens of the rest. -/
theorem front {w : String} {ws : List String} {kind : TokenKind}
    (h : Tokens (spaced (w :: ws) ++ after) ts) (hw : Lexes w kind) (hafter : Cut after) :
    ∃ t rest, ts = t :: rest ∧ t.piece = ⟨kind, w⟩ ∧ Tokens (spaced ws ++ after) rest :=
  (h.congr (takeGap_spaced_cons w ws after).symm).uncons (hw _ (cut_spaced hafter ws))

/-- What the first word gives if it is a quoted text. -/
theorem frontQuoted {s : String} {ws : List String}
    (h : Tokens (spaced (Text.quote s :: ws) ++ after) ts) :
    ∃ t rest value, ts = t :: rest ∧ t.kind = .string value ∧
      ((Quotable s ∧ value = s ∧ Tokens (spaced ws ++ after) rest) ∨ Overruns s value) :=
  (h.congr (takeGap_spaced_cons (Text.quote s) ws after).symm).quoted

variable {α : Type} {word : α → String} {kind : α → TokenKind} {as : List α}

/-- A text in words gives the tokens that the words are, and then those of what follows. -/
theorem split (h : Tokens (spaced (as.map word) ++ after) ts)
    (hwords : ∀ a ∈ as, Lexes (word a) (kind a)) (hafter : Cut after) :
    ∃ us vs, ts = us ++ vs ∧ List.Forall₂ (fun u a => u.kind = kind a) us as ∧
      Tokens after vs := by
  induction as generalizing ts with
  | nil => exact ⟨[], ts, rfl, .nil, h⟩
  | cons a as ih =>
      obtain ⟨hword, hrest⟩ := List.forall_mem_cons.mp hwords
      obtain ⟨t, rest, rfl, ht, htokens⟩ := h.front hword hafter
      obtain ⟨us, vs, rfl, hus, hvs⟩ := ih htokens hrest
      exact ⟨t :: us, vs, rfl, .cons (congrArg Piece.kind ht) hus, hvs⟩

end Tokens

end Lexer
end SceneReader
