import SceneReader.Proofs.Number.Padding
import SceneReader.Proofs.Token.Regions

/-!
# Blanks between words

Any blank is passed over between tokens, but only six of them end a bare word: the space and the
controls from tab to carriage return.  Any other blank right behind a character of a word
becomes part of the word: a joint.  In plain text every blank stands either in a gap, where
another blank may stand as well, or in a word that it does not end.

A number may have blanks behind it, so it is the same number without them.  A name is another name
without its blanks, and what looks like a number is read as something else.

**Results.**
* `Row.locate`: a blank in plain text is in a gap or in a word.
* `Row.hasJoint_iff`: words have blanks exactly where the text has joints.
* `Row.respaced_iff`: what a space in the place of a blank changes.
* `words_solid_iff`: blanks separate words exactly if the text has no joint.
-/

namespace SceneReader

/-- The token is a bare word: a name, a number, or what looks like a number. -/
def Token.isWord (t : Token) : Bool :=
  match t.kind with
  | .identifier => true
  | .number _ => true
  | .malformedNumber => true
  | _ => false

/-- The token reaches over the character with the offset. -/
def Token.ReachesOver (t : Token) (n : Nat) : Prop :=
  t.span.start.offset ≤ n ∧ n < t.span.stop.offset

namespace Lexer

/-- The kind of a piece with its value, which is its text for a name and for what looks like a
number. -/
def Piece.reading (p : Piece) : TokenKind × Option String :=
  match p.kind with
  | .identifier => (p.kind, some p.lexeme)
  | .malformedNumber => (p.kind, some p.lexeme)
  | _ => (p.kind, none)

/-- Behind the first part of a text there is a blank in plain text. -/
structure IsLoose (front : List Char) (c : Char) : Prop where
  blank : Text.isBlank c = true
  outside : regionFrom .plain front = .plain

/-- A blank in plain text goes on with the word that it stands behind. -/
def HasJoint (cs : List Char) : Prop :=
  ∃ front d c back, cs = front ++ d :: c :: back ∧ IsLoose (front ++ [d]) c ∧
    isDelimiter c = false ∧ isDelimiter d = false ∧ Text.isBlank d = false

theorem isDelimiter_space : isDelimiter ' ' = true := by decide

theorem isBlank_space : Text.isBlank ' ' = true := by decide

/-- A blank is none of the marks that are tokens. -/
theorem IsLoose.ne_marks {front : List Char} {c : Char} (h : IsLoose front c) :
    c ≠ '"' ∧ c ≠ '[' ∧ c ≠ ']' := by
  have hne : ∀ d, Text.isBlank d = false → c ≠ d := by
    rintro d hd rfl
    rw [h.blank] at hd
    cases hd
  exact ⟨hne _ (by decide), hne _ (by decide), hne _ (by decide)⟩

/-! ## Where a blank stands -/

variable {file : Option String} {place : Position} {front back cs : List Char} {c : Char}
  {ps : List Piece} {ts : List Token}

/-- The character behind the first part of a text stands in a gap. -/
structure InGap (n : Nat) (front : List Char) (c : Char) (back : List Char) (ps : List Piece)
    (ts : List Token) : Prop where
  apart : isDelimiter c = false → ∀ d ∈ front.getLast?, isDelimiter d = false →
    Text.isBlank d = true
  missed : ∀ t ∈ ts, ¬ t.ReachesOver n
  spells : Spells (front ++ ' ' :: back) ps

/-- The character behind the first part of a text stands in a bare word, behind its first
character.  The part of the word before it is a word in front of any other text that ends words. -/
inductive InWord (n : Nat) (front : List Char) (c : Char) (back : List Char) :
    List Piece → List Token → Prop
  | mk {left right : List Piece} {word more after : List Char} {us vs : List Token} {t : Token}
      (hne : word ≠ []) (hbare : IsBare (word ++ c :: more)) (hback : back = more ++ after)
      (hleft : ∀ other, Cut other →
        Scans (front ++ other) (left ++ [⟨wordKind word, String.ofList word⟩]) other)
      (hright : Spells after right)
      (ht : t.piece = ⟨wordKind (word ++ c :: more), String.ofList (word ++ c :: more)⟩)
      (hreaches : t.ReachesOver n) (hmissed : ∀ u ∈ us ++ vs, ¬ u.ReachesOver n) :
      InWord n front c back (left ++ t.piece :: right) (us ++ t :: vs)

theorem Row.offset_le (h : Row file place cs ps ts) :
    ∀ t ∈ ts, place.offset ≤ t.span.start.offset := by
  induction h with
  | @done place cs gap hgap =>
      intro t ht
      rw [List.mem_singleton.mp ht, Position.offset_advanceAll]
      exact Nat.le_add_right _ _
  | @token place start stop cs gap rest lexeme after c kind ps ts hgap htoken hstart hstop _ ih =>
      have hle : place.offset ≤ start.offset := by
        rw [hstart, Position.offset_advanceAll]
        exact Nat.le_add_right _ _
      refine List.forall_mem_cons.mpr ⟨hle, fun t ht => ?_⟩
      have hstop' : start.offset ≤ stop.offset := by
        rw [hstop, Position.offset_advanceAll]
        exact Nat.le_add_right _ _
      exact Nat.le_trans hle (Nat.le_trans hstop' (ih t ht))

/-- A blank in plain text that is part of a gap. -/
theorem inGap_of_takeGap {gap rest : List Char} (hloose : IsLoose front c)
    (hgap : takeGap false (front ++ c :: back) = (front ++ c :: gap, rest))
    (hspells : Spells (front ++ c :: back) ps)
    (hmissed : ∀ t ∈ ts, ¬ t.ReachesOver (place.offset + front.length)) :
    InGap (place.offset + front.length) front c back ps ts where
  apart _ d hd _ := by
    obtain ⟨body, hbody⟩ := List.getLast?_eq_some_iff.mp hd
    have houtside := hloose.outside
    subst hbody
    simp only [List.append_assoc, List.singleton_append] at hgap
    exact isBlank_of_takeGap (b := false) hgap houtside
  missed := hmissed
  spells := by
    have hother := takeGap_plain (b := false) hgap hloose.outside
    refine hspells.congr ?_
    rw [hother, hother, takeGap_blank_cons isBlank_space, takeGap_blank_cons hloose.blank]

/-- What stands in a gap of the rest of a text stands in a gap of the text. -/
theorem InGap.cons {n : Nat} {gap rest lexeme : List Char} {d : Char} {kind : TokenKind}
    {t : Token} (h : InGap n front c back ps ts)
    (hgap : takeGap false cs = (gap, d :: rest))
    (htoken : scanToken d rest = .token kind lexeme (front ++ c :: back))
    (ht : ¬ t.ReachesOver n) :
    InGap n (gap ++ (lexeme ++ front)) c back (⟨kind, String.ofList lexeme⟩ :: ps) (t :: ts) where
  apart hc e he hword := by
    cases front with
    | nil =>
        obtain ⟨body, last, rfl, hends⟩ := scanToken_ends (mark_of_takeGap hgap) htoken
        obtain rfl : last = e := by simpa [← List.append_assoc] using he
        -- the token before the blank ends by itself, or the blank ends it
        rcases hends with rfl | rfl | rfl | ⟨-, hdelimiter⟩
        · cases hword
        · cases hword
        · cases hword
        · rw [hdelimiter c rfl] at hc
          cases hc
    | cons f front =>
        refine h.apart hc e ?_ hword
        rwa [← List.append_assoc, List.getLast?_append_of_ne_nil _ (List.cons_ne_nil f front)] at he
  missed := List.forall_mem_cons.mpr ⟨ht, h.missed⟩
  spells := by
    obtain ⟨u, hscans, hend⟩ := h.spells
    have hexchange : Exchanges (front ++ c :: back) (front ++ ' ' :: back) :=
      Exchanges.append (Or.inr (cut_blank isDelimiter_space back)) front
    refine ⟨u, ?_, hend⟩
    simpa only [List.append_assoc] using Scans.cons_exchange hgap htoken hexchange hscans

/-- What stands in a word of the rest of a text stands in a word of the text. -/
theorem InWord.cons {n : Nat} {gap rest lexeme : List Char} {d : Char} {kind : TokenKind}
    {t : Token} (h : InWord n front c back ps ts)
    (hgap : takeGap false cs = (gap, d :: rest))
    (htoken : scanToken d rest = .token kind lexeme (front ++ c :: back))
    (ht : ¬ t.ReachesOver n) :
    InWord n (gap ++ (lexeme ++ front)) c back (⟨kind, String.ofList lexeme⟩ :: ps) (t :: ts) := by
  obtain @⟨left, right, word, more, after, us, vs, u, hne, hbare, hback, hleft, hright, hpiece,
    hreaches, hmissed⟩ := h
  refine @InWord.mk n _ c back (⟨kind, String.ofList lexeme⟩ :: left) right word more after (t :: us)
    vs u hne hbare hback (fun other hother => ?_) hright hpiece hreaches
    (List.forall_mem_cons.mpr ⟨ht, hmissed⟩)
  have hexchange : Exchanges (front ++ c :: back) (front ++ other) :=
    Exchanges.append (Or.inr hother) front
  simpa only [List.append_assoc, List.cons_append] using
    Scans.cons_exchange hgap htoken hexchange (hleft other hother)

/-- A blank in plain text that is part of a token. -/
theorem inWord_of_lexeme {n : Nat} {gap rest word more after : List Char} {d : Char}
    {kind : TokenKind} {right : List Piece} {t : Token} (hloose : IsLoose (gap ++ word) c)
    (hgap : takeGap false cs = (gap, d :: rest))
    (htoken : scanToken d rest = .token kind (word ++ c :: more) after)
    (hright : Spells after right) (ht : t.piece = ⟨kind, String.ofList (word ++ c :: more)⟩)
    (hreaches : t.ReachesOver n) (hmissed : ∀ u ∈ ts, ¬ u.ReachesOver n) :
    InWord n (gap ++ word) c (more ++ after)
      (⟨kind, String.ofList (word ++ c :: more)⟩ :: right) (t :: ts) := by
  have hmark := mark_of_takeGap hgap
  have hregion : regionFrom .plain word = .plain := by
    have houtside := hloose.outside
    have hplain : regionFrom .plain gap = .plain := regionFrom_gap (b := false) hgap
    rwa [regionFrom_append, hplain] at houtside
  obtain ⟨hbare, rfl, -⟩ := isBare_of_plain hmark htoken rfl hregion hloose.ne_marks
  -- the first character of the token is no blank
  obtain ⟨word, rfl⟩ : ∃ body, word = d :: body := by
    have happend := Lexed.lexeme_append htoken
    cases word with
    | nil =>
        obtain ⟨rfl, -⟩ := List.cons.inj happend
        have hblank := hloose.blank
        rw [hmark.1] at hblank
        cases hblank
    | cons e word =>
        obtain ⟨rfl, -⟩ := List.cons.inj happend
        exact ⟨word, rfl⟩
  have hfront : IsBare (d :: word) := by
    refine ⟨hbare.head, fun e he => hbare.whole e (List.mem_append_left _ he)⟩
  rw [← ht]
  refine @InWord.mk n _ c _ [] right (d :: word) more after [] ts t (List.cons_ne_nil d word) hbare
    rfl (fun other hother => ?_) hright ht hreaches hmissed
  have hscans := Scans.cons (takeGap_exchange hgap (word ++ other)) (scanToken_bare hfront hother)
    (.nil other)
  simpa using hscans

/-- A character of a text in two parts is in one of them. -/
theorem append_eq_cases {α : Type} {xs ys front back : List α} {c : α}
    (h : xs ++ ys = front ++ c :: back) :
    (∃ more, xs = front ++ c :: more ∧ back = more ++ ys) ∨
      ∃ rest, front = xs ++ rest ∧ ys = rest ++ c :: back := by
  rcases List.append_eq_append_iff.mp h with ⟨rest, hfront, hys⟩ | ⟨rest, hxs, hback⟩
  · exact Or.inr ⟨rest, hfront, hys⟩
  · cases rest with
    | nil => exact Or.inr ⟨[], by simpa using hxs.symm, by simpa using hback.symm⟩
    | cons d more =>
        obtain ⟨rfl, hrest⟩ := List.cons.inj hback
        exact Or.inl ⟨more, hxs, hrest⟩

/-- A blank in plain text is in a gap or in a word. -/
theorem Row.locate (h : Row file place (front ++ c :: back) ps ts) (hloose : IsLoose front c) :
    InGap (place.offset + front.length) front c back ps ts ∨
      InWord (place.offset + front.length) front c back ps ts := by
  generalize hcs : front ++ c :: back = cs at h
  induction h generalizing front with
  | @done place cs gap hgap =>
      left
      have happend := takeGap_append false cs
      rw [hgap, List.append_nil] at happend
      subst happend hcs
      refine inGap_of_takeGap hloose hgap ⟨_, .nil _, by rw [hgap]⟩ fun t ht hreaches => ?_
      rw [List.mem_singleton.mp ht] at hreaches
      exact absurd (Nat.lt_of_le_of_lt hreaches.1 hreaches.2) (Nat.lt_irrefl _)
  | @token place start stop cs gap rest lexeme after d kind ps ts hgap htoken hstart hstop hrow ih =>
      have hstart' : start.offset = place.offset + gap.length := by
        rw [hstart, Position.offset_advanceAll]
      have hstop' : stop.offset = place.offset + gap.length + lexeme.length := by
        rw [hstop, Position.offset_advanceAll, hstart']
      have hlater := hrow.offset_le
      rcases append_eq_cases ((gap_append_token hgap htoken).trans hcs.symm) with
        ⟨more, rfl, rfl⟩ | ⟨front, rfl, hrest⟩
      · left
        subst hcs
        have hspells := (Row.token hgap htoken hstart hstop hrow).spells
        refine inGap_of_takeGap hloose hgap hspells fun t ht hreaches => ?_
        have hle : start.offset ≤ t.span.start.offset := by
          rcases List.mem_cons.mp ht with rfl | ht
          · exact Nat.le_refl _
          · have := hlater t ht
            omega
        have hlt := hreaches.1
        rw [List.length_append, List.length_cons] at hstart'
        omega
      · rcases append_eq_cases hrest with ⟨more, rfl, rfl⟩ | ⟨front, rfl, rfl⟩
        · right
          rw [List.length_append, List.length_cons] at hstop'
          refine inWord_of_lexeme hloose hgap htoken hrow.spells rfl ⟨?_, ?_⟩ fun t ht hreaches => ?_
          · rw [hstart', List.length_append]
            omega
          · rw [hstop', List.length_append]
            omega
          · have hle := hlater t ht
            have hlt := hreaches.1
            rw [List.length_append] at hlt
            omega
        · have hn : place.offset + (gap ++ (lexeme ++ front)).length =
              stop.offset + front.length := by
            simp only [List.length_append]
            omega
          have hmissed : ¬ Token.ReachesOver ⟨kind, String.ofList lexeme, ⟨file, start, stop⟩⟩
              (stop.offset + front.length) :=
            fun hreaches => absurd hreaches.2 (Nat.not_lt.mpr (Nat.le_add_right _ _))
          have hregion : IsLoose front c := by
            have houtside := hloose.outside
            have hplain : regionFrom .plain gap = .plain := regionFrom_gap (b := false) hgap
            rw [regionFrom_append, regionFrom_append, hplain,
              regionFrom_lexeme (mark_of_takeGap hgap) htoken] at houtside
            exact ⟨hloose.blank, houtside⟩
          rw [hn]
          rcases ih hregion rfl with h | h
          · exact Or.inl (h.cons hgap htoken hmissed)
          · exact Or.inr (h.cons hgap htoken hmissed)

/-! ## Words with blanks -/

theorem isWord_of_piece {t : Token} {word : List Char}
    (h : t.piece = ⟨wordKind word, String.ofList word⟩) : t.isWord = true := by
  have hkind : t.kind = wordKind word := congrArg Piece.kind h
  unfold Token.isWord
  rw [hkind]
  rcases wordKind_cases word with hword | hword | ⟨x, hword⟩ <;> rw [hword]

/-- The word that a character stands in. -/
theorem InWord.exists_word {n : Nat} (h : InWord n front c back ps ts) :
    ∃ t ∈ ts, t.isWord = true ∧ c ∈ t.lexeme.toList := by
  obtain @⟨left, right, word, more, after, us, vs, t, -, -, -, -, -, ht, -, -⟩ := h
  refine ⟨t, by simp, isWord_of_piece ht, ?_⟩
  have hlexeme : t.lexeme = String.ofList (word ++ c :: more) := congrArg Piece.lexeme ht
  rw [hlexeme, String.toList_ofList]
  simp

/-- Where a row goes over to a property, two neighbours show it. -/
theorem exists_turn {α : Type} {p : α → Bool} {x : α} {xs : List α} (hx : p x = false)
    (h : ∃ y ∈ xs, p y = true) :
    ∃ front d c back, x :: xs = front ++ d :: c :: back ∧ p d = false ∧ p c = true := by
  induction xs generalizing x with
  | nil => simp at h
  | cons y xs ih =>
      by_cases hy : p y = true
      · exact ⟨[], x, y, xs, rfl, hx, hy⟩
      · have hrest : ∃ z ∈ xs, p z = true := by simpa [hy] using h
        obtain ⟨front, d, c, back, hsplit, hd, hc⟩ := ih (by simpa using hy) hrest
        exact ⟨x :: front, d, c, back, congrArg (x :: ·) hsplit, hd, hc⟩

theorem HasJoint.append {core after : List Char} (hcore : regionFrom .plain core = .plain)
    (h : HasJoint after) : HasJoint (core ++ after) := by
  obtain ⟨front, d, c, back, rfl, hloose, hword⟩ := h
  refine ⟨core ++ front, d, c, back, by simp, ⟨hloose.blank, ?_⟩, hword⟩
  rw [List.append_assoc, regionFrom_append, hcore, hloose.outside]

/-- A bare word with a blank has a joint. -/
theorem IsBare.hasJoint {word : List Char} (h : IsBare word)
    (hblank : ∃ c ∈ word, Text.isBlank c = true) (after : List Char) :
    HasJoint (word ++ after) := by
  obtain ⟨⟨e, he, hfirst, -⟩, hwhole⟩ := h
  obtain ⟨body, rfl⟩ : ∃ body, word = e :: body := by
    cases word with
    | nil => cases he
    | cons d body => exact ⟨body, by rw [Option.some.inj he]⟩
  have hbody : ∃ c ∈ body, Text.isBlank c = true := by simpa [hfirst] using hblank
  obtain ⟨front, d, c, back, hsplit, hd, hc⟩ := exists_turn hfirst hbody
  rw [hsplit] at hwhole ⊢
  refine ⟨front, d, c, back ++ after, by simp, ⟨hc, regionFrom_of_whole fun f hf => ?_⟩,
    hwhole c (by simp), hwhole d (by simp), hd⟩
  refine hwhole f ?_
  rcases List.mem_append.mp hf with hf | hf
  · exact List.mem_append_left _ hf
  · rw [List.mem_singleton.mp hf]
    simp

theorem Row.hasJoint (h : Row file place cs ps ts) {t : Token} (ht : t ∈ ts)
    (hword : t.isWord = true) (hblank : ∃ c ∈ t.lexeme.toList, Text.isBlank c = true) :
    HasJoint cs := by
  induction h with
  | done =>
      rw [List.mem_singleton.mp ht] at hword
      cases hword
  | @token place start stop cs gap rest lexeme after d kind ps ts hgap htoken hstart hstop _ ih =>
      have hmark := mark_of_takeGap hgap
      have hplain : regionFrom .plain gap = .plain := regionFrom_gap (b := false) hgap
      rw [← gap_append_token hgap htoken]
      refine HasJoint.append hplain ?_
      rcases List.mem_cons.mp ht with rfl | ht
      · rw [String.toList_ofList] at hblank
        rcases scanToken_kinds hmark htoken with ⟨l, s, -, -, -, rfl⟩ | ⟨⟨-, rfl⟩ | ⟨-, rfl⟩, -⟩ |
          ⟨hbare, -, -⟩
        · cases hword
        · cases hword
        · cases hword
        · exact hbare.hasJoint hblank after
      · exact (ih ht).append (regionFrom_lexeme hmark htoken)

/-- Some word of a text has a blank exactly if the text has a joint. -/
theorem Row.hasJoint_iff (h : Row file place cs ps ts) :
    HasJoint cs ↔ ∃ t ∈ ts, t.isWord = true ∧ ∃ c ∈ t.lexeme.toList, Text.isBlank c = true := by
  constructor
  · rintro ⟨front, d, c, back, rfl, hloose, hc, hd, hword⟩
    have hsplit : front ++ d :: c :: back = (front ++ [d]) ++ c :: back := by simp
    rw [hsplit] at h
    rcases h.locate hloose with hgap | hin
    · rw [hgap.apart hc d (by simp) hd] at hword
      cases hword
    · obtain ⟨t, ht, hkind, hmem⟩ := hin.exists_word
      exact ⟨t, ht, hkind, c, hmem, hloose.blank⟩
  · rintro ⟨t, ht, hword, hblank⟩
    exact h.hasJoint ht hword hblank

/-! ## A space in the place of a blank -/

/-- What a text spells begins with its first tokens. -/
theorem Spells.exists_append {u : List Char} {qs : List Piece} (h : Spells cs ps)
    (hscans : Scans cs qs u) : ∃ rs, ps = qs ++ rs ∧ Spells u rs := by
  induction hscans generalizing ps with
  | nil => exact ⟨ps, rfl, h⟩
  | cons hgap htoken _ ih =>
      obtain ⟨rest, rfl, hrest⟩ := h.uncons (.cons hgap htoken (.nil _))
      obtain ⟨rs, rfl, hu⟩ := ih hrest
      exact ⟨rs, rfl, hu⟩

theorem takeGap_blanks {blanks : List Char} (h : ∀ d ∈ blanks, Text.isBlank d = true)
    (after : List Char) : (takeGap false (blanks ++ after)).2 = (takeGap false after).2 := by
  induction blanks with
  | nil => rfl
  | cons d blanks ih =>
      obtain ⟨hd, hrest⟩ := List.forall_mem_cons.mp h
      rw [List.cons_append, takeGap_blank_cons hd, ih hrest]

/-- A number with blanks is the number that stands before them. -/
theorem wordKind_of_blank {word more : List Char} {x : Float} (hne : word ≠ [])
    (hbare : IsBare (word ++ c :: more)) (hc : Text.isBlank c = true)
    (h : wordKind (word ++ c :: more) = .number x) :
    wordKind word = .number x ∧ ∀ d ∈ more, Text.isBlank d = true := by
  obtain ⟨e, word, rfl⟩ := List.exists_cons_of_ne_nil hne
  obtain ⟨e', he', hfirst, -⟩ := hbare.head
  obtain rfl := Option.some.inj he'
  have hhead : ∀ d ∈ (e :: word).head?, Text.isBlank d = false := by
    rintro d ⟨rfl⟩
    exact hfirst
  rw [List.cons_append, wordKind] at h
  split at h
  · rename_i hnumber
    unfold numberKind at h
    split at h
    · cases h
    · rename_i hunderscore
      split at h
      · rename_i y hy
        cases h
        obtain ⟨hread, hmore⟩ := Number.ofChars?_of_blank hne hhead hc hy
        refine ⟨?_, hmore⟩
        have hword : ¬ (e :: word).contains '_' = true := by
          simp only [List.contains_iff_mem] at hunderscore ⊢
          exact fun hmem => hunderscore (List.mem_append_left (c :: more) hmem)
        rw [wordKind, if_pos hnumber, numberKind, if_neg hword, hread]
      · cases h
  · cases h

theorem Piece.fst_reading (p : Piece) : p.reading.1 = p.kind := by
  unfold reading
  split <;> rfl

/-- Of two words with one reading but different texts the second one is a number. -/
theorem exists_number_of_reading {word other : List Char}
    (h : (⟨wordKind word, String.ofList word⟩ : Piece).reading =
      (⟨wordKind other, String.ofList other⟩ : Piece).reading) (hne : word ≠ other) :
    ∃ x, wordKind other = .number x := by
  have hkind : wordKind word = wordKind other := by
    simpa only [Piece.fst_reading] using congrArg Prod.fst h
  have htext : ∀ kind, (kind = .identifier ∨ kind = .malformedNumber) →
      wordKind other ≠ kind := by
    rintro kind hkinds rfl
    rcases hkinds with hother | hother
    all_goals
      rw [hkind, hother] at h
      have hlexeme := String.ofList_injective (Option.some.inj (congrArg Prod.snd h))
      exact hne hlexeme
  rcases wordKind_cases other with hother | hother | hnumber
  · exact absurd hother (htext _ (Or.inl rfl))
  · exact absurd hother (htext _ (Or.inr rfl))
  · exact hnumber

/-- In the place of a blank in a word a space changes what is read, unless the word is a
number. -/
theorem InWord.respaced_iff {n : Nat} (h : InWord n front c back ps ts)
    (hc : Text.isBlank c = true) :
    (∃ qs, Spells (front ++ ' ' :: back) qs ∧ qs.map Piece.reading = ps.map Piece.reading) ↔
      ∀ t ∈ ts, t.ReachesOver n → ∃ x, t.kind = .number x := by
  obtain @⟨left, right, word, more, after, us, vs, t, hne, hbare, rfl, hleft, hright, ht, hreaches,
    hmissed⟩ := h
  have hscans := hleft (' ' :: (more ++ after)) (cut_blank isDelimiter_space _)
  have hkind : t.kind = wordKind (word ++ c :: more) := congrArg Piece.kind ht
  have honly : (∀ u ∈ us ++ t :: vs, u.ReachesOver n → ∃ x, u.kind = .number x) ↔
      ∃ x, t.kind = .number x := by
    constructor
    · intro hall
      exact hall t (by simp) hreaches
    · intro hnumber u hu hover
      rcases List.mem_append.mp hu with hu | hu
      · exact absurd hover (hmissed u (List.mem_append_left _ hu))
      · rcases List.mem_cons.mp hu with rfl | hu
        · exact hnumber
        · exact absurd hover (hmissed u (List.mem_append_right _ hu))
  rw [honly, hkind, ht]
  constructor
  · rintro ⟨qs, hspells, hreading⟩
    obtain ⟨rs, rfl, -⟩ := hspells.exists_append hscans
    simp only [List.map_append, List.map_cons, List.append_assoc, List.singleton_append,
      List.append_cancel_left_eq, List.cons.injEq] at hreading
    refine exists_number_of_reading hreading.1 fun hsame => ?_
    have hlength := congrArg List.length hsame
    rw [List.length_append, List.length_cons] at hlength
    omega
  · rintro ⟨x, hx⟩
    obtain ⟨hword, hmore⟩ := wordKind_of_blank hne hbare hc hx
    have hrest : Spells (' ' :: (more ++ after)) right := by
      refine hright.congr ?_
      rw [takeGap_blank_cons isBlank_space, takeGap_blanks hmore]
    refine ⟨_, hscans.spells hrest, ?_⟩
    rw [hword, hx]
    simp [Piece.reading]

/-- What a space in the place of a blank in plain text changes: nothing is read in another way
exactly if no name and nothing that looks like a number reaches over the blank. -/
theorem Row.respaced_iff (h : Row file place (front ++ c :: back) ps ts)
    (hloose : IsLoose front c) :
    (∃ qs, Spells (front ++ ' ' :: back) qs ∧ qs.map Piece.reading = ps.map Piece.reading) ↔
      ∀ t ∈ ts, t.ReachesOver (place.offset + front.length) → ∃ x, t.kind = .number x := by
  rcases h.locate hloose with hgap | hin
  · exact ⟨fun _ t ht hover => absurd hover (hgap.missed t ht), fun _ => ⟨ps, hgap.spells, rfl⟩⟩
  · exact hin.respaced_iff hloose.blank

/-! ## Texts -/

/-- The text has tokens of the same kinds with the same values. -/
def Rereads (file : Option String) (cs : List Char) (ts : List Token) : Prop :=
  ∃ ts', tokenize (String.ofList cs) file = .ok ts' ∧
    ts'.map (fun t => t.piece.reading) = ts.map fun t => t.piece.reading

theorem Row.rereads_iff (h : Row file place cs ps ts) (other : List Char) :
    Rereads file other ts ↔
      ∃ qs, Spells other qs ∧ qs.map Piece.reading = ps.map Piece.reading := by
  have hreading : ∀ {ts : List Token} {ps : List Piece}, ts.map Token.piece = ps ++ [.atEnd] →
      ts.map (fun t => t.piece.reading) = ps.map Piece.reading ++ [Piece.atEnd.reading] := by
    intro ts ps hpieces
    have hmap : ts.map (fun t => t.piece.reading) = (ts.map Token.piece).map Piece.reading := by
      rw [List.map_map]
      rfl
    rw [hmap, hpieces, List.map_append]
    rfl
  rw [Rereads, hreading h.map_piece]
  constructor
  · rintro ⟨ts', hts', hsame⟩
    obtain ⟨qs, hrow⟩ := tokenize_ok_iff.mp hts'
    rw [String.toList_ofList] at hrow
    rw [hreading hrow.map_piece] at hsame
    exact ⟨qs, hrow.spells, List.append_cancel_right hsame⟩
  · rintro ⟨qs, hspells, hsame⟩
    obtain ⟨ts', hts', hpieces⟩ := (spells_iff file).mp hspells
    exact ⟨ts', hts', by rw [hreading hpieces, hsame]⟩

/-- No word of a text has a blank exactly if no blank goes on with a word.  In such a text a space
may stand in the place of any blank in plain text.  In any text it may exactly if the blank is not
in a name and not in what looks like a number. -/
theorem words_solid_iff {source : String} (h : tokenize source file = .ok ts) :
    ((∀ t ∈ ts, t.isWord = true → ∀ c ∈ t.lexeme.toList, Text.isBlank c = false) ↔
      ¬ HasJoint source.toList) ∧
    ∀ front c back, source.toList = front ++ c :: back → IsLoose front c →
      (¬ HasJoint source.toList → Rereads file (front ++ ' ' :: back) ts) ∧
      (Rereads file (front ++ ' ' :: back) ts ↔
        ∀ t ∈ ts, t.ReachesOver front.length → ∃ x, t.kind = .number x) := by
  obtain ⟨ps, hrow⟩ := tokenize_ok_iff.mp h
  constructor
  · rw [hrow.hasJoint_iff]
    simp only [not_exists, not_and, Bool.not_eq_true]
  · intro front c back hsource hloose
    rw [hrow.rereads_iff]
    rw [hsource] at hrow ⊢
    refine ⟨fun hjoint => ?_, ?_⟩
    · rcases hrow.locate hloose with hgap | hin
      · exact ⟨ps, hgap.spells, rfl⟩
      · obtain ⟨t, ht, hword, hmem⟩ := hin.exists_word
        exact absurd (hrow.hasJoint ht hword ⟨c, hmem, hloose.blank⟩) hjoint
    · simpa [Position.start] using hrow.respaced_iff hloose

/-- A blank behind a number, before a name. -/
theorem words_solid_iff_paddedNumber :
    ∃ ts, tokenize "1\u2007 a" none = .ok ts ∧
      ((∀ t ∈ ts, t.isWord = true → ∀ c ∈ t.lexeme.toList, Text.isBlank c = false) ↔
        ¬ HasJoint "1\u2007 a".toList) ∧
      IsLoose ['1'] '\u2007' ∧
      (¬ HasJoint "1\u2007 a".toList → Rereads none ['1', ' ', ' ', 'a'] ts) ∧
      (Rereads none ['1', ' ', ' ', 'a'] ts ↔
        ∀ t ∈ ts, t.ReachesOver 1 → ∃ x, t.kind = .number x) := by
  have hrow : Row none .start "1\u2007 a".toList _ _ :=
    .token rfl rfl rfl rfl (.token rfl rfl rfl rfl (.done rfl))
  have h := tokenize_ok_iff.mpr ⟨_, hrow⟩
  have hloose : IsLoose ['1'] '\u2007' := ⟨by decide, rfl⟩
  obtain ⟨hsolid, hspace⟩ := words_solid_iff h
  exact ⟨_, h, hsolid, hloose, hspace ['1'] '\u2007' [' ', 'a'] rfl hloose⟩

/-- A blank between two names makes one name of them, and a space in its place does not. -/
theorem not_solid_noBreakSpace :
    ∃ ts, tokenize "a\u00a0b" none = .ok ts ∧
      (¬ ∀ t ∈ ts, t.isWord = true → ∀ c ∈ t.lexeme.toList, Text.isBlank c = false) ∧
      IsLoose ['a'] '\u00a0' ∧ ¬ Rereads none ['a', ' ', 'b'] ts := by
  have hrow : Row none .start "a\u00a0b".toList _ _ := .token rfl rfl rfl rfl (.done rfl)
  refine ⟨_, tokenize_ok_iff.mpr ⟨_, hrow⟩, ?_, ⟨by decide, rfl⟩, ?_⟩
  · intro hsolid
    have hblank := hsolid _ List.mem_cons_self rfl '\u00a0' (by decide)
    exact absurd hblank (by decide)
  · have hspaced : Row none .start ['a', ' ', 'b'] _ _ :=
      .token rfl rfl rfl rfl (.token rfl rfl rfl rfl (.done rfl))
    intro hreads
    obtain ⟨qs, hspells, hsame⟩ := (hrow.rereads_iff _).mp hreads
    rw [hspells.unique hspaced.spells] at hsame
    exact absurd (congrArg List.length hsame) (by simp)

end Lexer
end SceneReader
