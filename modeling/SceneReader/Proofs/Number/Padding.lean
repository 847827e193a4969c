import SceneReader.Proofs.Number.Text

/-!
# Blanks around numerals

A numeral may have blanks before it and behind it, and none inside.  So a blank in a text
that is read as a number, with some other character before it, is one of those behind the
numeral: nothing but blanks follows it, and without them the text is the same number.

**Results.**
* `isBlank_of_isPadding_plainChar`: what is taken for padding is a blank.
* `not_isBlank_of_unsignedNumeral?`: a numeral has no blank inside.
* `trimPadding_append`: padding behind a text that has none is trimmed.
* `ofChars?_of_blank`: a number up to its first blank.
-/

namespace SceneReader
namespace Number

open Text (isBlank)

variable {c : Char} {cs ds : List Char}

/-! ## Blanks as they are read -/

theorem toNat_of_isDigit (h : c.isDigit = true) : 48 ≤ c.toNat ∧ c.toNat ≤ 57 := by
  simpa [Char.isDigit, UInt32.le_iff_toNat_le] using h

theorem isForeign_of_isBlank (h : isBlank c = true) : IsForeign c := by
  have hne : ∀ d, isBlank d = false → c ≠ d := by
    rintro d hd rfl
    rw [h] at hd
    cases hd
  refine ⟨?_, ⟨hne _ (by decide), hne _ (by decide)⟩, hne _ (by decide), hne _ (by decide)⟩
  by_contra hdigit
  have hrange := toNat_of_isDigit (Bool.not_eq_false _ ▸ hdigit)
  simp [isBlank, Text.blankRanges, Text.inRanges] at h
  omega

/-- A blank stays a blank when the text is brought to ASCII. -/
theorem isBlank_plainChar (h : isBlank c = true) : isBlank (plainChar c) = true := by
  unfold plainChar
  split
  · exact h
  · decide

theorem isBlank_of_isPadding (h : isPadding c = true) : isBlank c = true := by
  have hrange : c.toNat = 32 ∨ (9 ≤ c.toNat ∧ c.toNat ≤ 13) := by
    simp only [isPadding, Bool.or_eq_true, beq_iff_eq, Bool.and_eq_true, decide_eq_true_eq] at h
    exact h.imp_left (congrArg Char.toNat)
  simp [isBlank, Text.blankRanges, Text.inRanges]
  omega

theorem decimalDigit?_lt {d : Nat} (h : Text.decimalDigit? c = some d) : d < 10 := by
  unfold Text.decimalDigit? at h
  split at h
  · rename_i hdigit
    have hrange := toNat_of_isDigit hdigit
    cases h
    omega
  · obtain ⟨first, hfirst, rfl⟩ := Option.map_eq_some_iff.mp h
    have hfound := List.find?_some hfirst
    simp only [Bool.and_eq_true, decide_eq_true_eq] at hfound
    omega

/-- What is taken for padding is a blank. -/
theorem isBlank_of_isPadding_plainChar (h : isPadding (plainChar c) = true) :
    isBlank c = true := by
  have hdigit : ∀ d, d < 10 → isPadding (Nat.digitChar d) = false := by decide
  unfold plainChar at h
  split at h
  · exact isBlank_of_isPadding h
  · split at h
    · assumption
    · split at h
      · rename_i d hd
        rw [hdigit d (decimalDigit?_lt hd)] at h
        cases h
      · exact absurd h (by decide)

/-! ## Inside of numerals -/

theorem toLower_of_isBlank (h : isBlank c = true) : c.toLower = c := by
  have hrange : ¬ (65 ≤ c.toNat ∧ c.toNat ≤ 90) := by
    intro hupper
    simp [isBlank, Text.blankRanges, Text.inRanges] at h
    omega
  unfold Char.toLower
  rw [dif_neg]
  simpa [UInt32.le_iff_toNat_le] using hrange

theorem not_mem_of_exponent?_takeFraction (hc : IsForeign c) (hpoint : c ≠ '.') {e : Int}
    (h : exponent? (takeFraction cs).2 = some e) : c ∉ cs := by
  intro hmem
  refine not_mem_of_exponent? hc h ?_
  unfold takeFraction
  split
  · exact mem_dropWhile_isDigit hc.digit ((List.mem_cons.mp hmem).resolve_left hpoint)
  · exact hmem

/-- A numeral has no blank inside. -/
theorem not_isBlank_of_unsignedNumeral? {n : Numeral} (h : unsignedNumeral? cs = some n) :
    ∀ c ∈ cs, isBlank c = false := by
  intro c hmem
  by_contra hblank
  rw [Bool.not_eq_false] at hblank
  -- a blank has no part in the words, and none in digits with a point and an exponent
  have hword : ∀ word : List Char, word.all (fun d => !isBlank d) = true →
      cs.map Char.toLower ≠ word := by
    rintro word hall rfl
    have hlower := List.all_eq_true.mp hall _ (List.mem_map_of_mem hmem)
    rw [toLower_of_isBlank hblank, hblank] at hlower
    cases hlower
  unfold unsignedNumeral? at h
  dsimp only at h
  rw [if_neg (not_or.mpr ⟨hword _ (by decide), hword _ (by decide)⟩),
    if_neg (hword _ (by decide))] at h
  unfold digitNumeral? at h
  dsimp only at h
  split at h
  · cases h
  · obtain ⟨e, he, -⟩ := Option.map_eq_some_iff.mp h
    have hforeign := isForeign_of_isBlank hblank
    have hpoint : c ≠ '.' := by
      rintro rfl
      exact absurd hblank (by decide)
    exact not_mem_of_exponent?_takeFraction hforeign hpoint he
      (mem_dropWhile_isDigit hforeign.digit hmem)

/-- With its sign, too. -/
theorem not_isBlank_of_takeSign {n : Numeral}
    (h : unsignedNumeral? (takeSign cs).2 = some n) : ∀ c ∈ cs, isBlank c = false := by
  intro c hmem
  by_contra hblank
  rw [Bool.not_eq_false] at hblank
  have hbody := mem_takeSign (isForeign_of_isBlank hblank).sign hmem
  rw [not_isBlank_of_unsignedNumeral? h c hbody] at hblank
  cases hblank

/-! ## Padding -/

/-- Padding behind a text that has none is trimmed. -/
theorem trimPadding_append (hcs : ∀ c ∈ cs, isPadding c = false) (hne : cs ≠ [])
    (hds : ∀ d ∈ ds, isPadding d = true) : trimPadding (cs ++ ds) = cs := by
  have hfront : (cs ++ ds).dropWhile isPadding = cs ++ ds := by
    obtain ⟨c, cs, rfl⟩ := List.exists_cons_of_ne_nil hne
    rw [List.cons_append, List.dropWhile_cons, hcs c List.mem_cons_self, if_neg Bool.false_ne_true]
  have hback : cs.reverse.dropWhile isPadding = cs.reverse :=
    dropWhile_of_forall fun c hc => hcs c (List.mem_reverse.mp hc)
  rw [trimPadding, hfront, List.reverse_append,
    List.dropWhile_append_of_pos fun d hd => hds d (List.mem_reverse.mp hd), hback,
    List.reverse_reverse]

/-- Nothing but padding is trimmed. -/
theorem exists_trimPadding_append (hhead : ∀ c ∈ cs.head?, isPadding c = false) :
    ∃ ds, cs = trimPadding cs ++ ds ∧ ∀ d ∈ ds, isPadding d = true := by
  have hfront : cs.dropWhile isPadding = cs := by
    cases cs with
    | nil => rfl
    | cons c cs => rw [List.dropWhile_cons, hhead c rfl, if_neg Bool.false_ne_true]
  refine ⟨(cs.reverse.takeWhile isPadding).reverse, ?_, fun d hd => ?_⟩
  · rw [trimPadding, hfront, ← List.reverse_append, List.takeWhile_append_dropWhile,
      List.reverse_reverse]
  · exact List.all_eq_true.mp List.all_takeWhile d (List.mem_reverse.mp hd)

/-- A text that is read as a number is a numeral without blanks, and padding. -/
theorem exists_body {x : Float} (hhead : ∀ c ∈ cs.head?, isBlank c = false)
    (h : ofChars? cs = some x) :
    ∃ body padding, cs.map plainChar = body ++ padding ∧ (∀ d ∈ body, isBlank d = false) ∧
      (∀ d ∈ padding, isPadding d = true) ∧
      ∀ ds, trimPadding (ds.map plainChar) = body → ofChars? ds = some x := by
  obtain ⟨⟨negative, n⟩, hnumeral, hvalue⟩ := Option.map_eq_some_iff.mp h
  have hplain : ∀ d ∈ (cs.map plainChar).head?, isPadding d = false := by
    intro d hd
    rw [List.head?_map] at hd
    obtain ⟨c, hc, rfl⟩ := Option.map_eq_some_iff.mp hd
    by_contra hpadding
    have hblank := isBlank_of_isPadding_plainChar (Bool.not_eq_false _ ▸ hpadding)
    rw [hhead c hc] at hblank
    cases hblank
  obtain ⟨padding, htext, hpadding⟩ := exists_trimPadding_append hplain
  unfold numeral? at hnumeral
  dsimp only at hnumeral
  obtain ⟨m, hm, -⟩ := Option.map_eq_some_iff.mp hnumeral
  refine ⟨_, padding, htext, not_isBlank_of_takeSign hm, hpadding, fun ds hds => ?_⟩
  unfold ofChars? numeral?
  dsimp only
  rw [hds, hnumeral]
  exact congrArg some hvalue

/-- In a number that does not start with a blank, what follows a blank is blank, and what stands
before it is the same number. -/
theorem ofChars?_of_blank {x : Float} (hne : cs ≠ [])
    (hhead : ∀ d ∈ cs.head?, isBlank d = false) (hc : isBlank c = true)
    (h : ofChars? (cs ++ c :: ds) = some x) :
    ofChars? cs = some x ∧ ∀ d ∈ ds, isBlank d = true := by
  have hhead' : ∀ d ∈ (cs ++ c :: ds).head?, isBlank d = false := by
    obtain ⟨d, cs, rfl⟩ := List.exists_cons_of_ne_nil hne
    exact hhead
  obtain ⟨body, padding, htext, hbody, hpadding, hread⟩ := exists_body hhead' h
  rw [List.map_append, List.map_cons] at htext
  -- the blank is behind the numeral, and so is all that follows it
  obtain ⟨front, hcs, rfl⟩ : ∃ front, cs.map plainChar = body ++ front ∧
      padding = front ++ plainChar c :: ds.map plainChar := by
    rcases List.append_eq_append_iff.mp htext with ⟨part, rfl, hpart⟩ | ⟨front, hcs, hback⟩
    · cases part with
      | nil => exact ⟨[], by simp, by simpa using hpart.symm⟩
      | cons d part =>
          obtain ⟨rfl, -⟩ := List.cons.inj hpart
          have hblank := hbody (plainChar c) (by simp)
          rw [isBlank_plainChar hc] at hblank
          cases hblank
    · exact ⟨front, hcs, hback⟩
  rw [List.forall_mem_append, List.forall_mem_cons] at hpadding
  have hne' : body ≠ [] := by
    rintro rfl
    obtain ⟨d, cs, rfl⟩ := List.exists_cons_of_ne_nil hne
    have hblank : isBlank d = true := by
      refine isBlank_of_isPadding_plainChar (hpadding.1 _ ?_)
      rw [← List.nil_append front, ← hcs]
      simp
    rw [hhead d rfl] at hblank
    cases hblank
  have hunpadded : ∀ d ∈ body, isPadding d = false := by
    intro d hd
    by_contra hpad
    have hblank := isBlank_of_isPadding (Bool.not_eq_false _ ▸ hpad)
    rw [hbody d hd] at hblank
    cases hblank
  refine ⟨hread cs ?_, fun d hd => ?_⟩
  · rw [hcs, trimPadding_append hunpadded hne' hpadding.1]
  · exact isBlank_of_isPadding_plainChar (hpadding.2.2 _ (List.mem_map_of_mem hd))

/-- A space of fixed width behind a numeral. -/
example : numeral? ['1', '.', '\u2007'] = numeral? ['1', '.'] := by decide

end Number
end SceneReader
