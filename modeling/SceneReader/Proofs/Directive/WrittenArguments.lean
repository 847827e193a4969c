import SceneReader.Proofs.Directive.Declarations

/-!
# Arguments that are read back

The arguments of a directive are written as words, and the parser reads the words again.
What it makes of them is the argument it had, unless the argument is one of two: a number
that is written as a word, which is a name for the lexer, and a text whose last backslash
takes the closing quote along.

**Results.**
* `lexes_numberText`: every number is one token, a number or a name.
* `readsBack_numbers`, `readsBack_matrix`, `readsBack_keyword`, `readsBack_strings`: one
  for each rule of the grammar.
* `readsBack_arguments`: the arguments of a shape are read back when they are legible.
-/

namespace SceneReader

open Lexer (Tokens Cut Quotable spaced)

/-- The shortest digits of the number are read as the number. -/
def Number.Exact (x : Float) : Prop :=
  ofText? (exactText x) = some x

/-- The argument is written in a way that can be read. -/
def Argument.Legible : Argument → Prop
  | number x => Number.isWord x = false
  | text s => Quotable s

/-- The words that the arguments of a shape are written in. -/
def ArgShape.argWords (shape : ArgShape) (args : List Argument) : List String :=
  match shape with
  | matrix => "[" :: (args.map Argument.entryText ++ ["]"])
  | keyword => args.map Argument.bareText
  | _ => args.map Argument.quotedText

theorem legible_map_number {xs : List Float} :
    (∀ a ∈ xs.map Argument.number, a.Legible) ↔ ∀ x ∈ xs, Number.isWord x = false :=
  List.forall_mem_map

theorem legible_map_text {ss : List String} :
    (∀ a ∈ ss.map Argument.text, a.Legible) ↔ ∀ s ∈ ss, Quotable s :=
  List.forall_mem_map

/-! ## Numbers and names as tokens -/

theorem Token.identifier?_of_piece {t : Token} {word : String}
    (h : t.piece = ⟨.identifier, word⟩) : t.identifier? = some word :=
  identifier?_eq_some_iff.mpr ⟨congrArg Lexer.Piece.kind h, congrArg Lexer.Piece.lexeme h⟩

/-- What a written number is for the lexer. -/
def numberToken (x : Float) : TokenKind :=
  if Number.isWord x then .identifier else .number x

theorem lexes_numberText {x : Float} (h : Number.Exact x) :
    Lexer.Lexes (numberText x) (numberToken x) := by
  unfold numberToken
  by_cases hword : Number.isWord x = true
  · rw [if_pos hword]
    rcases Number.numberText_of_isWord hword with htext | htext
    · rw [htext]
      exact .name (by decide)
    · rw [htext]
      exact .name (by decide)
  · rw [if_neg hword]
    exact .number (Number.denotes_numberText h (Bool.eq_false_iff.mpr hword))

theorem number?_of_numberToken {t : Token} {x : Float} (h : t.kind = numberToken x) :
    t.number? = if Number.isWord x then none else some x := by
  rw [Token.number?, h, numberToken]
  by_cases hword : Number.isWord x = true
  · simp [hword]
  · simp [hword]

theorem lexes_keyword {word : String} (h : word ∈ activeKeywords) :
    Lexer.Lexes word .identifier := by
  have hname : ∀ w ∈ activeKeywords, Lexer.isName w.toList = true := by decide
  exact .name (hname word h)

namespace Parser

/-- A rule of the grammar reads something back: it finds the right value when it is able
to, and only then, and it leaves the tokens of what follows. -/
structure ReadsBack {m : Type → Type} [Monad m] {α : Type} (rule : m (Parsed α))
    (Right : α → Prop) (able : Prop) (after : List Char) : Prop where
  finds : able → ∃ p, rule = pure p ∧ Right p.value
  leaves : ∀ p, rule = pure p → Right p.value → able ∧ Tokens after p.rest

variable {ctx : Context} {directive : Token} {after : List Char} {ts us rest : List Token}
  {xs : List Float} {count : Nat}

/-! ## Rows of numbers -/

/-- The tokens of numbers are taken if none of the numbers is written as a word. -/
theorem takeNumbers_of_numbers (stop : Position)
    (hus : List.Forall₂ (fun u x => u.kind = numberToken x) us xs)
    (hxs : ∀ x ∈ xs, Number.isWord x = false) (hcount : xs.length ≤ count)
    (hend : ∀ stop, takeNumbers (count - xs.length) stop rest = ⟨[], stop, rest⟩) :
    ∃ stop', takeNumbers count stop (us ++ rest) = ⟨xs.map .number, stop', rest⟩ := by
  induction hus generalizing count stop with
  | nil => exact ⟨stop, hend stop⟩
  | @cons u x us xs hu _ ih =>
      obtain ⟨hx, hxs⟩ := List.forall_mem_cons.mp hxs
      cases count with
      | zero => cases hcount
      | succ count =>
          rw [List.length_cons, Nat.add_sub_add_right] at hend
          obtain ⟨stop', htake⟩ :=
            ih (stopOf u) hxs (Nat.le_of_succ_le_succ hcount) hend
          refine ⟨stop', ?_⟩
          rw [List.cons_append, takeNumbers, number?_of_numberToken hu, hx]
          simp [htake]

/-- A number that is written as a word is not taken. -/
theorem length_takeNumbers_lt (count : Nat) (stop : Position) (rest : List Token)
    (hus : List.Forall₂ (fun u x => u.kind = numberToken x) us xs)
    (hword : ∃ x ∈ xs, Number.isWord x = true) :
    (takeNumbers count stop (us ++ rest)).value.length < xs.length := by
  induction hus generalizing count stop with
  | nil => simp at hword
  | @cons u x us xs hu _ ih =>
      cases count with
      | zero => simp [takeNumbers]
      | succ count =>
          rw [List.cons_append, takeNumbers, number?_of_numberToken hu]
          by_cases hx : Number.isWord x = true
          · simp [hx]
          · have hrest : ∃ y ∈ xs, Number.isWord y = true := by
              obtain ⟨y, hy, hyword⟩ := hword
              rcases List.mem_cons.mp hy with rfl | hy
              · exact absurd hyword hx
              · exact ⟨y, hy, hyword⟩
            have hlt := ih count (stopOf u) hrest
            simp only [hx, Bool.false_eq_true, if_false, List.length_cons]
            omega

theorem not_isWord_of_length {stop : Position}
    (hus : List.Forall₂ (fun u x => u.kind = numberToken x) us xs)
    (hlength : (takeNumbers count stop (us ++ rest)).value.length = xs.length) :
    ∀ x ∈ xs, Number.isWord x = false := by
  intro x hx
  by_contra hword
  have hlt := length_takeNumbers_lt count stop rest hus ⟨x, hx, by simpa using hword⟩
  omega

theorem readsBack_numbers (hexact : ∀ x ∈ xs, Number.Exact x) (hafter : Cut after)
    (h : Tokens (spaced (xs.map numberText) ++ after) ts) :
    ReadsBack (numbers ctx directive xs.length ts) (· = xs.map .number)
      (∀ a ∈ xs.map Argument.number, a.Legible) after := by
  rw [legible_map_number]
  obtain ⟨us, vs, rfl, hus, hvs⟩ := h.split (fun x hx => lexes_numberText (hexact x hx)) hafter
  have htake : (∀ x ∈ xs, Number.isWord x = false) →
      ∃ stop, takeNumbers xs.length (stopOf directive) (us ++ vs) = ⟨xs.map .number, stop, vs⟩ :=
    fun hxs => takeNumbers_of_numbers _ hus hxs (Nat.le_refl _) fun stop => by
      rw [Nat.sub_self, takeNumbers]
  constructor
  · intro hxs
    obtain ⟨stop, htake⟩ := htake hxs
    refine ⟨⟨xs.map .number, stop, vs⟩, ?_, rfl⟩
    unfold numbers
    rw [htake, if_pos (List.length_map _)]
    rfl
  · intro p hp hvalue
    unfold numbers at hp
    dsimp only at hp
    split at hp
    · rename_i hlength
      cases hp
      have hxs := not_isWord_of_length hus hlength
      obtain ⟨stop, htake⟩ := htake hxs
      rw [htake]
      exact ⟨hxs, hvs⟩
    · cases hp

/-- A matrix is always written between brackets. -/
theorem readsBack_matrix (hexact : ∀ x ∈ xs, Number.Exact x) (hlength : xs.length = 16)
    (hafter : Cut after)
    (h : Tokens (spaced ("[" :: (xs.map numberText ++ ["]"])) ++ after) ts) :
    ReadsBack (matrix ctx directive ts) (· = xs.map .number)
      (∀ a ∈ xs.map Argument.number, a.Legible) after := by
  rw [legible_map_number]
  obtain ⟨l, ls, rfl, hl, htokens⟩ := h.front Lexer.lexes_leftBracket hafter
  rw [Lexer.spaced_append, List.append_assoc] at htokens
  obtain ⟨us, vs, rfl, hus, hvs⟩ := htokens.split
    (fun x hx => lexes_numberText (hexact x hx)) (Lexer.cut_spaced hafter _)
  obtain ⟨r, rs, rfl, hr, hrs⟩ := hvs.front Lexer.lexes_rightBracket hafter
  have hleft : l.kind = .leftBracket := congrArg Lexer.Piece.kind hl
  have hright : r.kind = .rightBracket := congrArg Lexer.Piece.kind hr
  have hnumber : r.number? = none := by
    unfold Token.number?
    rw [hright]
  have hcount : xs.length ≤ (us ++ r :: rs).length := by
    rw [← hus.length_eq, List.length_append]
    omega
  have htake : (∀ x ∈ xs, Number.isWord x = false) →
      ∃ stop, takeNumbers (us ++ r :: rs).length (stopOf l) (us ++ r :: rs) =
        ⟨xs.map .number, stop, r :: rs⟩ := by
    refine fun hxs => takeNumbers_of_numbers _ hus hxs hcount fun stop => ?_
    cases (us ++ r :: rs).length - xs.length with
    | zero => rfl
    | succ n => rw [takeNumbers, hnumber]
  have hbracket : rightBracket? (r :: rs) = some (stopOf r, rs) := by
    rw [rightBracket?, hright]
  constructor
  · intro hxs
    obtain ⟨stop, htake⟩ := htake hxs
    refine ⟨⟨xs.map .number, stopOf r, rs⟩, ?_, rfl⟩
    unfold matrix
    simp only [hleft, htake, hbracket]
    rw [if_pos (by rw [List.length_map, hlength])]
    rfl
  · intro p hp hvalue
    unfold matrix at hp
    simp only [hleft] at hp
    split at hp
    · rename_i stop tail hend
      split at hp
      · rename_i h16
        cases hp
        have hxs := not_isWord_of_length hus (h16.trans hlength.symm)
        obtain ⟨stop, htake⟩ := htake hxs
        rw [htake, hbracket] at hend
        cases hend
        exact ⟨hxs, hrs⟩
      · cases hp
    · cases hp

/-! ## Keywords and texts -/

theorem readsBack_keyword {word : String} (hword : word ∈ activeKeywords) (hafter : Cut after)
    (h : Tokens (spaced [word] ++ after) ts) :
    ReadsBack (keyword ctx directive ts) (· = [.text word])
      (∀ a ∈ [Argument.text word], a.Legible) after := by
  rw [List.forall_mem_singleton]
  have hquotable : ∀ w ∈ activeKeywords, Quotable w := by decide
  obtain ⟨t, rest, rfl, ht, hrest⟩ := h.front (lexes_keyword hword) hafter
  have hidentifier : t.identifier? = some word := Token.identifier?_of_piece ht
  have hkeyword : keyword ctx directive (t :: rest) = .ok ⟨[.text word], stopOf t, rest⟩ := by
    unfold keyword
    simp only [hidentifier, hword, if_true]
  constructor
  · exact fun _ => ⟨⟨[.text word], stopOf t, rest⟩, hkeyword, rfl⟩
  · intro p hp _
    rw [hkeyword] at hp
    cases hp
    exact ⟨hquotable word hword, hrest⟩

/-- No text begins there. -/
def NoString (after : List Char) : Prop :=
  ∀ ts, Tokens after ts → ∀ t ∈ ts.head?, t.string? = none

theorem takeStrings_of_noString (most : Nat) (stop : Position)
    (h : ∀ t ∈ ts.head?, t.string? = none) :
    takeStrings most stop ts = ⟨[], stop, ts⟩ := by
  cases most with
  | zero => rfl
  | succ most =>
      cases ts with
      | nil => rfl
      | cons t ts => rw [takeStrings, h t rfl]

/-- Quoted texts are taken as they were as far as they are legible; a text that runs over
its end is taken for another. -/
theorem takeStrings_spaced (stop : Position) {ss : List String} {most : Nat}
    (hmost : ss.length = most ∨ ss.length ≤ most ∧ NoString after)
    (h : Tokens (spaced (ss.map Text.quote) ++ after) ts) :
    ((∀ s ∈ ss, Quotable s) → (takeStrings most stop ts).value = ss.map .text) ∧
      ((takeStrings most stop ts).value = ss.map .text →
        (∀ s ∈ ss, Quotable s) ∧ Tokens after (takeStrings most stop ts).rest) := by
  induction ss generalizing most ts stop with
  | nil =>
      have hnil : takeStrings most stop ts = ⟨[], stop, ts⟩ := by
        rcases hmost with rfl | ⟨-, hnone⟩
        · rfl
        · exact takeStrings_of_noString most stop (hnone ts h)
      rw [hnil]
      exact ⟨fun _ => rfl, fun _ => ⟨List.forall_mem_nil _, h⟩⟩
  | cons s ss ih =>
      obtain ⟨t, rest, value, rfl, hkind, hvalue⟩ := h.frontQuoted
      have hstring : t.string? = some value := Token.string?_eq_some_iff.mpr hkind
      obtain ⟨most, rfl⟩ : ∃ n, most = n + 1 := by
        refine Nat.exists_eq_succ_of_ne_zero ?_
        rintro rfl
        rcases hmost with hmost | ⟨hmost, -⟩
        · cases hmost
        · cases hmost
      have hmost' : ss.length = most ∨ ss.length ≤ most ∧ NoString after := by
        simpa using hmost
      rw [takeStrings, hstring, List.forall_mem_cons]
      rcases hvalue with ⟨hs, rfl, hrest⟩ | hover
      · obtain ⟨hfinds, hleaves⟩ := ih (stopOf t) hmost' hrest
        refine ⟨fun hall => congrArg (Argument.text _ :: ·) (hfinds hall.2), fun heq => ?_⟩
        obtain ⟨hall, htokens⟩ := hleaves (List.cons.inj heq).2
        exact ⟨⟨hs, hall⟩, htokens⟩
      · refine ⟨fun hall => absurd hall.1 hover.not_quotable, fun heq => ?_⟩
        exact absurd (Argument.text.inj (List.cons.inj heq).1) hover.ne

theorem readsBack_strings (ss : List String) {least most : Nat} {expected : String}
    (hleast : least ≤ ss.length)
    (hmost : ss.length = most ∨ ss.length ≤ most ∧ NoString after)
    (h : Tokens (spaced (ss.map Text.quote) ++ after) ts) :
    ReadsBack (strings ctx directive least most expected ts) (· = ss.map .text)
      (∀ a ∈ ss.map Argument.text, a.Legible) after := by
  rw [legible_map_text]
  obtain ⟨hfinds, hleaves⟩ := takeStrings_spaced (stopOf directive) hmost h
  constructor
  · intro hss
    refine ⟨takeStrings most (stopOf directive) ts, ?_, hfinds hss⟩
    unfold strings
    dsimp only
    rw [if_pos (by rw [hfinds hss, List.length_map]; exact hleast)]
    rfl
  · intro p hp hvalue
    unfold strings at hp
    dsimp only at hp
    split at hp
    · cases hp
      exact hleaves hvalue
    · cases hp

/-! ## All shapes -/

/-- The arguments of a shape are read back when they are legible.  Only where one text or
two may stand does it matter that no further text follows. -/
theorem readsBack_arguments {shape : ArgShape} {args : List Argument} (hfits : shape.Fits args)
    (hexact : ∀ x, .number x ∈ args → Number.Exact x) (hafter : Cut after)
    (hnext : shape = .oneOrTwoNames → NoString after)
    (h : Tokens (spaced (shape.argWords args) ++ after) ts) :
    ReadsBack (arguments ctx directive shape ts) (· = args) (∀ a ∈ args, a.Legible) after := by
  cases hfits with
  | nothing =>
      refine ⟨fun _ => ⟨⟨[], stopOf directive, ts⟩, rfl, rfl⟩, ?_⟩
      intro p hp _
      cases hp
      exact ⟨List.forall_mem_nil _, h⟩
  | numbers xs =>
      replace hexact : ∀ x ∈ xs, Number.Exact x :=
        fun x hx => hexact x (List.mem_map_of_mem hx)
      simp only [ArgShape.argWords, List.map_map] at h
      exact readsBack_numbers hexact hafter h
  | matrix xs hlength =>
      replace hexact : ∀ x ∈ xs, Number.Exact x :=
        fun x hx => hexact x (List.mem_map_of_mem hx)
      rw [ArgShape.argWords, List.map_map] at h
      exact readsBack_matrix hexact hlength hafter h
  | keyword word hword => exact readsBack_keyword hword hafter h
  | name s => exact readsBack_strings [s] (Nat.le_refl _) (Or.inl rfl) h
  | oneName s =>
      exact readsBack_strings [s] (Nat.le_refl _) (Or.inr ⟨by simp, hnext rfl⟩) h
  | twoNames s s' => exact readsBack_strings [s, s'] (by simp) (Or.inl rfl) h
  | named s => exact readsBack_strings [s] (Nat.le_refl _) (Or.inl rfl) h
  | texture name type kind =>
      exact readsBack_strings [name, type, kind] (Nat.le_refl _) (Or.inl rfl) h

end Parser

/-- The words of legible arguments are one token each. -/
theorem lexes_argWords {shape : ArgShape} {args : List Argument} (hfits : shape.Fits args)
    (hexact : ∀ x, .number x ∈ args → Number.Exact x) (hlegible : ∀ a ∈ args, a.Legible) :
    ∀ w ∈ shape.argWords args, ∃ kind, Lexer.Lexes w kind := by
  have hquoted : ∀ w ∈ args.map Argument.quotedText, ∃ kind, Lexer.Lexes w kind := by
    refine List.forall_mem_map.mpr fun a ha => ?_
    cases a with
    | number x => exact ⟨_, lexes_numberText (hexact x ha)⟩
    | text s => exact ⟨_, .quote (hlegible _ ha)⟩
  cases hfits with
  | matrix xs hlength =>
      rw [List.map_map] at hquoted
      rw [ArgShape.argWords, List.forall_mem_cons, List.forall_mem_append, List.map_map,
        List.forall_mem_singleton]
      exact ⟨⟨_, Lexer.lexes_leftBracket⟩, hquoted, _, Lexer.lexes_rightBracket⟩
  | keyword word hword => exact List.forall_mem_singleton.mpr ⟨_, lexes_keyword hword⟩
  | nothing | numbers | name | oneName | twoNames | named | texture => exact hquoted

end SceneReader
