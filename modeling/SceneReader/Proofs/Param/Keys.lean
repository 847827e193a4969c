import SceneReader.Proofs.Directive.Declarations

/-!
# The writing of keys

A key is a name with blanks around it, or a type and a name with blanks between them and around
them.  Any blanks will do, and there may be any number of them; only between a type and a name
there is at least one.

**Results.**
* `Text.wordsOf_eq_cons_iff`: the first word of a text and the words behind it.
* `splitKey_eq_ok_iff`: a key is taken apart exactly as it is written.
* `splitKey_of_isMalformed`: any other key is reported as it stands.
-/

namespace SceneReader

namespace Text

variable {cs w : List Char} {ws : List (List Char)}

/-- All characters are blanks. -/
def AllBlank (cs : List Char) : Prop := ∀ c ∈ cs, isBlank c = true

theorem wordsOf_append_of_allBlank {before : List Char} (h : AllBlank before) (cs : List Char) :
    wordsOf (before ++ cs) = wordsOf cs := by
  induction before with
  | nil => rfl
  | cons c before ih =>
      obtain ⟨hc, hrest⟩ := List.forall_mem_cons.mp h
      rw [List.cons_append, wordsOf, if_pos hc, ih hrest]

theorem wordsOf_eq_nil_iff : wordsOf cs = [] ↔ AllBlank cs := by
  constructor
  · intro h
    fun_induction wordsOf cs with
    | case1 => exact List.forall_mem_nil _
    | case2 c cs hc ih => exact List.forall_mem_cons.mpr ⟨hc, ih h⟩
    | case3 c cs hc ih => cases h
  · intro h
    rw [← List.append_nil cs, wordsOf_append_of_allBlank h, wordsOf]

/-- What follows the first word starts with a blank. -/
theorem isBlank_head?_takeWord (cs : List Char) :
    ∀ c ∈ (takeWord cs).2.head?, isBlank c = true := by
  induction cs with
  | nil => exact nofun
  | cons c cs ih =>
      unfold takeWord
      split
      · rename_i hc
        rintro d hd
        cases hd
        exact hc
      · exact ih

/-- The first word stands behind blanks, and the other words are those of the text behind it. -/
theorem wordsOf_eq_cons_iff :
    wordsOf cs = w :: ws ↔ ∃ before after, cs = before ++ (w ++ after) ∧ AllBlank before ∧
      w ≠ [] ∧ (∀ c ∈ w, isBlank c = false) ∧ (∀ c ∈ after.head?, isBlank c = true) ∧
      wordsOf after = ws := by
  constructor
  · intro h
    fun_induction wordsOf cs with
    | case1 => cases h
    | case2 c cs hc ih =>
        obtain ⟨before, after, rfl, hbefore, hword⟩ := ih h
        exact ⟨c :: before, after, rfl, List.forall_mem_cons.mpr ⟨hc, hbefore⟩, hword⟩
    | case3 c cs hc ih =>
        cases h
        refine ⟨[], (takeWord cs).2, ?_, List.forall_mem_nil _, List.cons_ne_nil _ _, ?_,
          isBlank_head?_takeWord cs, rfl⟩
        · rw [List.nil_append, List.cons_append, takeWord_append]
        · exact List.forall_mem_cons.mpr
            ⟨by simpa using hc, fun d hd => isBlank_eq_false_of_mem_takeWord hd⟩
  · rintro ⟨before, after, rfl, hbefore, hne, hword, hafter, rfl⟩
    rw [wordsOf_append_of_allBlank hbefore, wordsOf_word hne hword hafter]

/-- A text with one word is this word with blanks around it. -/
theorem wordsOf_eq_singleton_iff :
    wordsOf cs = [w] ↔ w ≠ [] ∧ (∀ c ∈ w, isBlank c = false) ∧
      ∃ before after, cs = before ++ (w ++ after) ∧ AllBlank before ∧ AllBlank after := by
  rw [wordsOf_eq_cons_iff]
  constructor
  · rintro ⟨before, after, hcs, hbefore, hne, hword, -, hafter⟩
    exact ⟨hne, hword, before, after, hcs, hbefore, wordsOf_eq_nil_iff.mp hafter⟩
  · rintro ⟨hne, hword, before, after, hcs, hbefore, hafter⟩
    exact ⟨before, after, hcs, hbefore, hne, hword, fun c hc => hafter c (List.mem_of_mem_head? hc),
      wordsOf_eq_nil_iff.mpr hafter⟩

/-- A text with two words is these words with a blank between them at least. -/
theorem wordsOf_eq_pair_iff {v : List Char} :
    wordsOf cs = [v, w] ↔ (v ≠ [] ∧ ∀ c ∈ v, isBlank c = false) ∧
      (w ≠ [] ∧ ∀ c ∈ w, isBlank c = false) ∧ ∃ before between after,
        cs = before ++ (v ++ (between ++ (w ++ after))) ∧
        AllBlank before ∧ AllBlank between ∧ AllBlank after ∧ between ≠ [] := by
  rw [wordsOf_eq_cons_iff]
  constructor
  · rintro ⟨before, rest, hcs, hbefore, hne, hword, hrest, hlast⟩
    obtain ⟨hne', hword', between, after, rfl, hbetween, hafter⟩ :=
      wordsOf_eq_singleton_iff.mp hlast
    refine ⟨⟨hne, hword⟩, ⟨hne', hword'⟩, before, between, after, hcs, hbefore, hbetween, hafter, ?_⟩
    -- Without a blank the second word would go on with the first.
    rintro rfl
    obtain ⟨c, w, rfl⟩ := List.exists_cons_of_ne_nil hne'
    have hblank := hrest c rfl
    rw [hword' c List.mem_cons_self] at hblank
    cases hblank
  · rintro ⟨⟨hne, hword⟩, ⟨hne', hword'⟩, before, between, after, hcs, hbefore, hbetween, hafter,
      hapart⟩
    refine ⟨before, _, hcs, hbefore, hne, hword, ?_, wordsOf_eq_singleton_iff.mpr
      ⟨hne', hword', between, after, rfl, hbetween, hafter⟩⟩
    obtain ⟨c, between, rfl⟩ := List.exists_cons_of_ne_nil hapart
    rintro d hd
    cases hd
    exact hbetween c List.mem_cons_self

theorem words_eq_iff {s : String} {vs : List String} :
    words s = vs ↔ wordsOf s.toList = vs.map String.toList := by
  rw [words]
  constructor
  · rintro rfl
    simp [List.map_map, Function.comp_def]
  · intro h
    rw [h]
    simp [List.map_map, Function.comp_def]

end Text

open Text (IsWord AllBlank)

/-- How a key is written that speaks of a name, and which type it declares. -/
inductive KeyOf (key : String) : String → String → Prop
  | bare {before after : List Char} {name : String} (hname : IsWord name)
      (hkey : key.toList = before ++ (name.toList ++ after))
      (hbefore : AllBlank before) (hafter : AllBlank after) : KeyOf key "" name
  | typed {before between after : List Char} {type name : String} (htype : IsWord type)
      (hname : IsWord name)
      (hkey : key.toList = before ++ (type.toList ++ (between ++ (name.toList ++ after))))
      (hbefore : AllBlank before) (hbetween : AllBlank between) (hafter : AllBlank after)
      (hapart : between ≠ []) : KeyOf key type name

/-- A key that is written as none. -/
def IsMalformed (key : String) : Prop := ∀ type name, ¬ KeyOf key type name

variable {key type name : String}

theorem isMalformed_or_keyOf (key : String) :
    IsMalformed key ∨ ∃ type name, KeyOf key type name := by
  rw [or_iff_not_imp_left]
  simp [IsMalformed]

theorem keyOf_iff_words :
    KeyOf key type name ↔ type = "" ∧ Text.words key = [name] ∨ Text.words key = [type, name] := by
  simp only [Text.words_eq_iff, List.map_cons, List.map_nil, Text.wordsOf_eq_singleton_iff,
    Text.wordsOf_eq_pair_iff]
  constructor
  · rintro (⟨hname, hkey, hbefore, hafter⟩ |
      ⟨htype, hname, hkey, hbefore, hbetween, hafter, hapart⟩)
    · exact Or.inl ⟨rfl, hname.1, hname.2, _, _, hkey, hbefore, hafter⟩
    · exact Or.inr ⟨htype, hname, _, _, _, hkey, hbefore, hbetween, hafter, hapart⟩
  · rintro (⟨rfl, hne, hword, before, after, hkey, hbefore, hafter⟩ |
      ⟨htype, hname, before, between, after, hkey, hbefore, hbetween, hafter, hapart⟩)
    · exact .bare ⟨hne, hword⟩ hkey hbefore hafter
    · exact .typed htype hname hkey hbefore hbetween hafter hapart

/-- A key is taken apart exactly as it is written. -/
theorem splitKey_eq_ok_iff : splitKey key = .ok (type, name) ↔ KeyOf key type name := by
  rw [keyOf_iff_words]
  unfold splitKey
  split
  · rename_i hwords
    rw [hwords]
    simp [eq_comm]
  · rename_i hwords
    rw [hwords]
    simp [eq_comm]
  · rename_i hbare htyped
    constructor
    · exact nofun
    · rintro (⟨-, hwords⟩ | hwords)
      · exact absurd hwords (hbare name)
      · exact absurd hwords (htyped type name)

/-- A malformed key is reported as it stands. -/
theorem splitKey_of_isMalformed (h : IsMalformed key) : splitKey key = .error ⟨key⟩ := by
  have hnot : ∀ type name, splitKey key ≠ .ok (type, name) :=
    fun type name hkey => h type name (splitKey_eq_ok_iff.mp hkey)
  unfold splitKey at hnot ⊢
  split
  · rename_i hwords
    rw [hwords] at hnot
    exact absurd rfl (hnot _ _)
  · rename_i hwords
    rw [hwords] at hnot
    exact absurd rfl (hnot _ _)
  · rfl

theorem ParamMap.nameOf?_of_keyOf (h : KeyOf key type name) : nameOf? key = some name := by
  rw [nameOf?, splitKey_eq_ok_iff.mpr h]

theorem ParamMap.nameOf?_of_isMalformed (h : IsMalformed key) : nameOf? key = none := by
  rw [nameOf?, splitKey_of_isMalformed h]

end SceneReader
