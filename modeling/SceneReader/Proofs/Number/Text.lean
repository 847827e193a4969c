import SceneReader.Directive.Basic
import SceneReader.Proofs.Number.Rounding

/-!
# Numbers as they are written

Numbers are written as words: a digit or a minus comes first, and there are only digits,
points, signs and the letters of exponents and of infinity after it.  Such a word is read
as the number, and so is the word without a point and zero at its end.  Two values are
written as words that no number begins like: the undefined one and infinity.

**Results.**
* `isDigit_of_digitNumeral?`: only digits stand in front of a point with a zero.
* `denotes_integerText`: integers that are values are read as they were written.
* `denotes_numberText`: so are values, if the shortest digits are.
-/

namespace SceneReader
namespace Number

/-! ## Characters of numbers -/

/-- The characters that numbers are written with. -/
def marks : List Char :=
  ['0', '1', '2', '3', '4', '5', '6', '7', '8', '9', '.', '+', '-', 'e', 'i', 'n', 'f']

theorem mem_marks_of_isDigit {c : Char} (h : c.isDigit = true) : c ∈ marks := by
  have hrange : 48 ≤ c.toNat ∧ c.toNat ≤ 57 := by
    simpa [Char.isDigit, UInt32.le_iff_toNat_le] using h
  have hdigits : ∀ n : Nat, 48 ≤ n → n ≤ 57 → Char.ofNat n ∈ marks := by
    intro n hlower hupper
    have hall : ∀ k : Fin 10, Char.ofNat (48 + k) ∈ marks := by decide
    have hk := hall ⟨n - 48, by omega⟩
    rwa [Nat.add_sub_cancel' hlower] at hk
  rw [← Char.ofNat_toNat c]
  exact hdigits c.toNat hrange.1 hrange.2

theorem marks_plain : ∀ c ∈ marks, plainChar c = c ∧ isPadding c = false := by
  have hall : marks.all (fun c => plainChar c == c && !isPadding c) = true := by decide
  simpa only [List.all_eq_true, Bool.and_eq_true, beq_iff_eq, Bool.not_eq_true'] using hall

theorem marks_lower : ∀ c ∈ marks, c.toLower = c := by
  have hall : marks.all (fun c => c.toLower == c) = true := by decide
  simpa only [List.all_eq_true, beq_iff_eq] using hall

theorem dropWhile_of_forall {p : Char → Bool} {cs : List Char} (h : ∀ c ∈ cs, p c = false) :
    cs.dropWhile p = cs := by
  cases cs with
  | nil => rfl
  | cons c cs => rw [List.dropWhile_cons, h c List.mem_cons_self, if_neg Bool.false_ne_true]

/-- A text of marks is read as it stands. -/
theorem numeral?_of_marks {cs : List Char} (h : ∀ c ∈ cs, c ∈ marks) :
    numeral? cs = (unsignedNumeral? (takeSign cs).2).map fun n => ((takeSign cs).1, n) := by
  have hmap : cs.map plainChar = cs :=
    (List.map_congr_left fun c hc => (marks_plain c (h c hc)).1).trans (List.map_id cs)
  have hpadding : ∀ c ∈ cs, isPadding c = false := fun c hc => (marks_plain c (h c hc)).2
  have htrim : trimPadding cs = cs := by
    unfold trimPadding
    rw [dropWhile_of_forall hpadding,
      dropWhile_of_forall fun c hc => hpadding c (List.mem_reverse.mp hc), List.reverse_reverse]
  unfold numeral?
  rw [hmap, htrim]

/-! ## Digits -/

theorem digitsValue_concat (ds : List Char) : digitsValue (ds ++ ['0']) = 10 * digitsValue ds := by
  unfold digitsValue
  rw [List.foldl_append]
  rfl

theorem digitsValue_decimalDigits (n : Nat) : digitsValue (decimalDigits n) = n :=
  Nat.ofDigitChars_ten_toDigits

theorem isDigit_of_mem_decimalDigits {n : Nat} {c : Char} (h : c ∈ decimalDigits n) :
    c.isDigit = true := Nat.isDigit_of_mem_toDigits (by decide) (by decide) h

/-- No word begins with a digit. -/
theorem unsignedNumeral?_of_isDigit {c : Char} (cs : List Char) (hc : c.isDigit = true) :
    unsignedNumeral? (c :: cs) = digitNumeral? (c :: cs) := by
  have hlower : c.toLower = c := marks_lower c (mem_marks_of_isDigit hc)
  have hne : c ≠ 'i' ∧ c ≠ 'n' := by
    constructor <;>
    · rintro rfl
      cases hc
  unfold unsignedNumeral?
  dsimp only
  rw [List.map_cons, hlower, if_neg (by simp [hne.1]), if_neg (by simp [hne.2])]

theorem digitNumeral?_digits {ds : List Char} (h : ∀ c ∈ ds, c.isDigit = true) (hne : ds ≠ []) :
    digitNumeral? ds = some (.finite (digitsValue ds) 0) := by
  have htake : (ds ++ []).takeWhile Char.isDigit = ds ++ [] := List.takeWhile_append_of_pos h
  have hdrop : (ds ++ []).dropWhile Char.isDigit = [] := List.dropWhile_append_of_pos h
  rw [List.append_nil] at htake hdrop
  unfold digitNumeral?
  rw [htake, hdrop]
  simp [takeFraction, exponent?, hne]

/-- A point with a zero behind digits. -/
theorem digitNumeral?_pointZero {ds : List Char} (h : ∀ c ∈ ds, c.isDigit = true) :
    digitNumeral? (ds ++ ['.', '0']) = some (.finite (10 * digitsValue ds) (-1)) := by
  have htake : (ds ++ ['.', '0']).takeWhile Char.isDigit = ds :=
    (List.takeWhile_append_of_pos h).trans (List.append_nil ds)
  have hdrop : (ds ++ ['.', '0']).dropWhile Char.isDigit = ['.', '0'] :=
    List.dropWhile_append_of_pos h
  have hfraction : takeFraction ['.', '0'] = (['0'], []) := by decide
  unfold digitNumeral?
  rw [htake, hdrop, hfraction]
  dsimp only
  rw [digitsValue_concat]
  simp [exponent?]

theorem mem_takeSign {c : Char} {cs : List Char} (hsign : c ≠ '+' ∧ c ≠ '-') (h : c ∈ cs) :
    c ∈ (takeSign cs).2 := by
  unfold takeSign
  split
  · simpa [hsign.2] using h
  · simpa [hsign.1] using h
  · exact h

/-- The character is neither a digit nor a sign nor the mark of an exponent. -/
structure IsForeign (c : Char) : Prop where
  digit : c.isDigit = false
  sign : c ≠ '+' ∧ c ≠ '-'
  mark : c ≠ 'e' ∧ c ≠ 'E'

theorem isForeign_point : IsForeign '.' := ⟨by decide, by decide, by decide⟩

/-- An exponent has digits, a sign and its mark only. -/
theorem not_mem_of_exponent? {c : Char} (hc : IsForeign c) {cs : List Char} {e : Int}
    (h : exponent? cs = some e) : c ∉ cs := by
  intro hmem
  unfold exponent? at h
  split at h
  · cases hmem
  · rename_i d cs
    split at h
    · rename_i hd
      have hrest : c ∈ cs := by
        rcases List.mem_cons.mp hmem with rfl | hrest
        · exact absurd hd (not_or.mpr hc.mark)
        · exact hrest
      dsimp only at h
      split at h
      · cases h
      · rename_i hdigits
        have hall : ∀ d ∈ (takeSign cs).2, d.isDigit = true := by
          simp at hdigits
          exact hdigits.2
        have hdigit := hall c (mem_takeSign hc.sign hrest)
        rw [hc.digit] at hdigit
        cases hdigit
    · cases h

theorem isDigit_of_mem_takeWhile {c : Char} {cs : List Char}
    (h : c ∈ cs.takeWhile Char.isDigit) : c.isDigit = true :=
  List.all_eq_true.mp List.all_takeWhile c h

theorem mem_dropWhile_isDigit {c : Char} {cs : List Char} (hc : c.isDigit = false) (h : c ∈ cs) :
    c ∈ cs.dropWhile Char.isDigit := by
  rw [← List.takeWhile_append_dropWhile (p := Char.isDigit) (l := cs), List.mem_append] at h
  refine h.resolve_left fun hdigit => ?_
  rw [isDigit_of_mem_takeWhile hdigit] at hc
  cases hc

/-- Only digits stand in front of a point with a zero. -/
theorem isDigit_of_digitNumeral? {p : List Char} {n : Numeral}
    (h : digitNumeral? (p ++ ['.', '0']) = some n) : ∀ c ∈ p, c.isDigit = true := by
  have hdrop : p.dropWhile Char.isDigit = [] := by
    cases hp : p.dropWhile Char.isDigit with
    | nil => rfl
    | cons d r =>
        exfalso
        have hrest : (p ++ ['.', '0']).dropWhile Char.isDigit = d :: (r ++ ['.', '0']) := by
          rw [List.dropWhile_append, hp]
          rfl
        unfold digitNumeral? at h
        rw [hrest] at h
        have hfraction : '.' ∈ (takeFraction (d :: (r ++ ['.', '0']))).2 := by
          unfold takeFraction
          split
          · rename_i heq
            obtain ⟨-, rfl⟩ := List.cons.inj heq
            exact mem_dropWhile_isDigit isForeign_point.digit (by simp)
          · simp
        dsimp only at h
        split at h
        · cases h
        · obtain ⟨e, he, -⟩ := Option.map_eq_some_iff.mp h
          exact not_mem_of_exponent? isForeign_point he hfraction
  intro c hc
  rw [← List.takeWhile_append_dropWhile (p := Char.isDigit) (l := p), hdrop, List.append_nil] at hc
  exact isDigit_of_mem_takeWhile hc

/-! ## Layouts -/

theorem mem_marks_of_mem_decimalDigits {n : Nat} {c : Char} (h : c ∈ decimalDigits n) :
    c ∈ marks := mem_marks_of_isDigit (isDigit_of_mem_decimalDigits h)

theorem marks_exponentText {e : Int} {c : Char} (h : c ∈ Layout.exponentText e) : c ∈ marks := by
  unfold Layout.exponentText at h
  simp only [List.mem_cons, List.mem_append, List.mem_replicate] at h
  rcases h with rfl | rfl | ⟨-, rfl⟩ | h
  · decide
  · split <;> decide
  · decide
  · exact mem_marks_of_mem_decimalDigits h

theorem marks_scientific {ds : List Char} {e : Int} (hds : ∀ c ∈ ds, c ∈ marks) {c : Char}
    (h : c ∈ Layout.scientific ds e) : c ∈ marks := by
  unfold Layout.scientific at h
  split at h
  · cases h
  · rcases List.mem_cons.mp h with rfl | h
    · exact hds c List.mem_cons_self
    · exact marks_exponentText h
  · rename_i d rest _
    simp only [List.mem_cons, List.mem_append] at h
    rcases h with rfl | rfl | h | h
    · exact hds c List.mem_cons_self
    · decide
    · exact hds c (List.mem_cons_of_mem d h)
    · exact marks_exponentText h

theorem marks_positional (l : Layout) {ds : List Char} {e : Int} (hds : ∀ c ∈ ds, c ∈ marks)
    {c : Char} (h : c ∈ l.positional ds e) : c ∈ marks := by
  unfold Layout.positional at h
  split at h
  · simp only [List.mem_cons, List.mem_append, List.mem_replicate] at h
    rcases h with rfl | rfl | ⟨-, rfl⟩ | h
    · decide
    · decide
    · decide
    · exact hds c h
  · dsimp only at h
    split at h
    · simp only [List.mem_append, List.mem_replicate] at h
      rcases h with (h | ⟨-, rfl⟩) | h
      · exact hds c h
      · decide
      · split at h
        · simp only [List.mem_cons, List.not_mem_nil, or_false] at h
          rcases h with rfl | rfl <;> decide
        · cases h
    · simp only [List.mem_append, List.mem_cons] at h
      rcases h with h | rfl | h
      · exact hds c (List.mem_of_mem_take h)
      · decide
      · exact hds c (List.mem_of_mem_drop h)

theorem marks_render (l : Layout) (d : Decimal) : ∀ c ∈ l.render d, c ∈ marks := by
  intro c h
  unfold Layout.render at h
  dsimp only at h
  split at h
  · exact marks_positional l (fun _ => mem_marks_of_mem_decimalDigits) h
  · exact marks_scientific (fun _ => mem_marks_of_mem_decimalDigits) h

/-- Every layout begins with a digit. -/
theorem exists_render_eq (l : Layout) (d : Decimal) :
    ∃ c cs, l.render d = c :: cs ∧ c.isDigit = true := by
  obtain ⟨c, cs, hds⟩ : ∃ c cs, decimalDigits d.digits = c :: cs :=
    List.exists_cons_of_ne_nil Nat.toDigits_ne_nil
  have hc : c.isDigit = true := isDigit_of_mem_decimalDigits (hds ▸ List.mem_cons_self)
  unfold Layout.render
  dsimp only
  rw [hds]
  split
  · unfold Layout.positional
    split
    · exact ⟨'0', _, rfl, rfl⟩
    · dsimp only
      split
      · exact ⟨c, _, rfl, hc⟩
      · exact ⟨c, _, rfl, hc⟩
  · unfold Layout.scientific
    cases cs with
    | nil => exact ⟨c, _, rfl, hc⟩
    | cons d cs => exact ⟨c, _, rfl, hc⟩

/-! ## Words that are numbers -/

/-- The word begins like a number, has no other character than the marks, and is read as
the value. -/
structure Denotes (word : List Char) (x : Float) : Prop where
  head : ∃ c cs, word = c :: cs ∧ (c.isDigit = true ∨ c = '-')
  marks : ∀ c ∈ word, c ∈ marks
  value : ofChars? word = some x

/-- A word with a minus in front, or none. -/
def withSign (negative : Bool) (word : List Char) : List Char :=
  if negative then '-' :: word else word

theorem takeSign_withSign (negative : Bool) {c : Char} (cs : List Char) (hc : c.isDigit = true) :
    takeSign (withSign negative (c :: cs)) = (negative, c :: cs) := by
  cases negative with
  | true => rfl
  | false =>
      unfold takeSign withSign
      split
      · rename_i heq
        cases heq
        cases hc
      · rename_i heq
        cases heq
        cases hc
      · rfl

theorem mem_withSign {negative : Bool} {word : List Char} (h : ∀ c ∈ word, c ∈ marks) :
    ∀ c ∈ withSign negative word, c ∈ marks := by
  cases negative with
  | true => exact List.forall_mem_cons.mpr ⟨by decide, h⟩
  | false => exact h

theorem exists_withSign_eq (negative : Bool) {c : Char} (cs : List Char) (hc : c.isDigit = true) :
    ∃ d ds, withSign negative (c :: cs) = d :: ds ∧ (d.isDigit = true ∨ d = '-') := by
  cases negative with
  | true => exact ⟨'-', c :: cs, rfl, Or.inr rfl⟩
  | false => exact ⟨c, cs, rfl, Or.inl hc⟩

/-- A numeral with an optional minus. -/
theorem ofChars?_withSign (negative : Bool) {c : Char} {cs : List Char} (hc : c.isDigit = true)
    (h : ∀ d ∈ c :: cs, d ∈ marks) :
    ofChars? (withSign negative (c :: cs)) =
      (digitNumeral? (c :: cs)).map fun n => if negative then -n.value else n.value := by
  unfold ofChars?
  rw [numeral?_of_marks (mem_withSign h), takeSign_withSign negative cs hc,
    unsignedNumeral?_of_isDigit cs hc, Option.map_map]
  rfl

theorem denotes_digits (negative : Bool) {c : Char} {cs : List Char}
    (h : ∀ d ∈ c :: cs, d.isDigit = true) :
    Denotes (withSign negative (c :: cs))
      (if negative then -nearest (digitsValue (c :: cs)) 0
        else nearest (digitsValue (c :: cs)) 0) := by
  have hc : c.isDigit = true := h c List.mem_cons_self
  have hmarks : ∀ d ∈ c :: cs, d ∈ marks := fun d hd => mem_marks_of_isDigit (h d hd)
  refine ⟨exists_withSign_eq negative cs hc, mem_withSign hmarks, ?_⟩
  rw [ofChars?_withSign negative hc hmarks, digitNumeral?_digits h (List.cons_ne_nil c cs)]
  rfl

/-- An integer that is a value is written as a word that is read as it. -/
theorem denotes_integerText {x : Float} {i : Int} (h : integer? x = some i) :
    ∃ y, Denotes (integerText i).toList y ∧ integer? y = some i := by
  obtain ⟨c, cs, hds⟩ : ∃ c cs, decimalDigits i.natAbs = c :: cs :=
    List.exists_cons_of_ne_nil Nat.toDigits_ne_nil
  have hdigits : ∀ d ∈ c :: cs, d.isDigit = true :=
    fun d hd => isDigit_of_mem_decimalDigits (hds ▸ hd)
  have htext : (integerText i).toList = withSign (decide (i < 0)) (c :: cs) := by
    unfold integerText withSign
    rw [String.toList_ofList, hds]
    by_cases hi : i < 0
    · simp [hi]
    · simp [hi]
  have hvalue := denotes_digits (decide (i < 0)) hdigits
  rw [← hds, digitsValue_decimalDigits, hds, ← htext] at hvalue
  refine ⟨_, hvalue, ?_⟩
  have hinteger := integer?_nearest h
  by_cases hi : i < 0
  · simpa [hi] using hinteger
  · simpa [hi] using hinteger

/-- Values that are written as words: the undefined one, and the infinite one above all
others. -/
def isWord (x : Float) : Bool :=
  x.isNaN || (!isFinite x && !signBit x)

theorem toList_exactText {x : Float} (h : x.isNaN = false) :
    (exactText x).toList = withSign (signBit x)
      (if isFinite x then exactLayout.render (Binary.ofFloat x).shortest else ['i', 'n', 'f']) := by
  unfold exactText Number.signed withSign
  rw [h]
  exact String.toList_ofList

theorem numberText_of_isWord {x : Float} (h : isWord x = true) :
    numberText x = "nan" ∨ numberText x = "inf" := by
  by_cases hnan : x.isNaN = true
  · left
    rw [numberText, exactText, Number.signed, if_pos hnan]
    decide
  · right
    have htext := toList_exactText (Bool.eq_false_iff.mpr hnan)
    simp only [isWord, hnan, Bool.false_or, Bool.and_eq_true, Bool.not_eq_true'] at h
    rw [h.1, h.2] at htext
    have hinf : exactText x = "inf" := String.toList_inj.mp htext
    rw [numberText, hinf]
    decide

/-- A point with a zero at the end stands behind digits, not behind the sign. -/
theorem exists_of_withSign_eq {negative : Bool} {c : Char} {cs q : List Char}
    (hc : c.isDigit = true) (h : withSign negative (c :: cs) = q ++ ['.', '0']) :
    ∃ p, q = withSign negative (c :: p) ∧ cs = p ++ ['.', '0'] := by
  have hpoint : c ≠ '.' := by
    rintro rfl
    cases hc
  cases negative with
  | false =>
      cases q with
      | nil => exact absurd (List.cons.inj h).1 hpoint
      | cons d p =>
          obtain ⟨rfl, hcs⟩ := List.cons.inj h
          exact ⟨p, rfl, hcs⟩
  | true =>
      cases q with
      | nil => exact absurd (List.cons.inj h).1 (by decide)
      | cons d q =>
          obtain ⟨rfl, hq⟩ := List.cons.inj h
          cases q with
          | nil => exact absurd (List.cons.inj hq).1 hpoint
          | cons d p =>
              obtain ⟨rfl, hcs⟩ := List.cons.inj hq
              exact ⟨p, rfl, hcs⟩

/-- Dropping a point with a zero does not change what a word is read as. -/
theorem denotes_dropPointZero {negative : Bool} {c : Char} {cs : List Char} {s : String} {x : Float}
    (hs : s.toList = withSign negative (c :: cs)) (hc : c.isDigit = true)
    (hmarks : ∀ d ∈ c :: cs, d ∈ marks) (hx : ofText? s = some x) :
    Denotes (dropPointZero s).toList x := by
  have hvalue := hx
  unfold ofText? at hvalue
  rw [hs, ofChars?_withSign negative hc hmarks] at hvalue
  obtain ⟨n, hn, hxn⟩ := Option.map_eq_some_iff.mp hvalue
  unfold dropPointZero
  split
  · rename_i r hr
    have hsplit : s.toList = r.reverse ++ ['.', '0'] := by
      rw [← List.reverse_reverse s.toList, hr]
      simp
    obtain ⟨p, hp, rfl⟩ := exists_of_withSign_eq hc (hs.symm.trans hsplit)
    have hdigits : ∀ d ∈ c :: p, d.isDigit = true := isDigit_of_digitNumeral? hn
    rw [← List.cons_append, digitNumeral?_pointZero hdigits, Option.some.injEq] at hn
    rw [String.toList_ofList, hp, ← hxn, ← hn]
    have hdenotes := denotes_digits negative hdigits
    rw [← nearest_tenfold] at hdenotes
    exact hdenotes
  · rw [hs]
    refine ⟨exists_withSign_eq negative cs hc, mem_withSign hmarks, ?_⟩
    rw [← hs]
    exact hx

/-- A number that is not written as a word is written as one that is read as it. -/
theorem denotes_numberText {x : Float} (hx : ofText? (exactText x) = some x)
    (hword : isWord x = false) : Denotes (numberText x).toList x := by
  obtain ⟨hnan, hinfinite⟩ := Bool.or_eq_false_iff.mp hword
  have htext := toList_exactText hnan
  unfold numberText
  by_cases hfinite : isFinite x = true
  · obtain ⟨c, cs, hrender, hc⟩ := exists_render_eq exactLayout (Binary.ofFloat x).shortest
    rw [if_pos hfinite, hrender] at htext
    exact denotes_dropPointZero htext hc (hrender ▸ marks_render _ _) hx
  · have hsign : signBit x = true := by simpa [hfinite] using hinfinite
    have hminus : exactText x = "-inf" := by
      rw [if_neg hfinite, hsign] at htext
      exact String.toList_inj.mp htext
    rw [hminus] at hx ⊢
    have hmarks : ∀ c ∈ ['-', 'i', 'n', 'f'], c ∈ marks := by simp [marks]
    exact ⟨⟨'-', ['i', 'n', 'f'], rfl, Or.inr rfl⟩, hmarks, hx⟩

end Number
end SceneReader
