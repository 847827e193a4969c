import SceneReader.Text.Ranges

/-!
# Blank characters and words

Blanks are the characters of white space: the Unicode property together with the
four information separators U+001C to U+001F.  A text splits into its words, the
longest runs without a blank.

**Results.**
* `words_ne_nil`: no word is empty.
* `isBlank_eq_false_of_mem_words`: no word holds a blank.
-/

namespace SceneReader
namespace Text

/-- The blank characters, Unicode 14. -/
def blankRanges : List Range :=
  [(0x9, 0xD), (0x1C, 0x20), (0x85, 0x85), (0xA0, 0xA0), (0x1680, 0x1680), (0x2000, 0x200A),
   (0x2028, 0x2029), (0x202F, 0x202F), (0x205F, 0x205F), (0x3000, 0x3000)]

/-- White space of any script. -/
def isBlank (c : Char) : Bool :=
  inRanges blankRanges c.toNat

/-- The first word of a text without leading blank, and what follows it. -/
def takeWord : List Char → List Char × List Char
  | [] => ([], [])
  | c :: cs => if isBlank c then ([], c :: cs) else (c :: (takeWord cs).1, (takeWord cs).2)

theorem length_takeWord_snd_le (cs : List Char) : (takeWord cs).2.length ≤ cs.length := by
  induction cs with
  | nil => simp [takeWord]
  | cons c cs ih =>
      unfold takeWord
      split
      · simp
      · simp only [List.length_cons]
        omega

/-- The words of a text: the longest runs without a blank, in order. -/
def wordsOf : List Char → List (List Char)
  | [] => []
  | c :: cs =>
      if isBlank c then wordsOf cs
      else (c :: (takeWord cs).1) :: wordsOf (takeWord cs).2
  termination_by cs => cs.length
  decreasing_by
    · simp
    · have := length_takeWord_snd_le cs
      simp only [List.length_cons]
      omega

/-- The words of a string. -/
def words (s : String) : List String :=
  (wordsOf s.toList).map String.ofList

theorem isBlank_eq_false_of_mem_takeWord {c : Char} {cs : List Char}
    (h : c ∈ (takeWord cs).1) : isBlank c = false := by
  induction cs with
  | nil => simp [takeWord] at h
  | cons d cs ih =>
      unfold takeWord at h
      split at h
      · simp at h
      · rename_i hd
        rcases List.mem_cons.1 h with rfl | h
        · simpa using hd
        · exact ih h

theorem words_ne_nil {w : List Char} {cs : List Char} (h : w ∈ wordsOf cs) : w ≠ [] := by
  fun_induction wordsOf cs with
  | case1 => simp at h
  | case2 c cs hc ih => exact ih h
  | case3 c cs hc ih =>
      rcases List.mem_cons.1 h with rfl | h
      · simp
      · exact ih h

theorem isBlank_eq_false_of_mem_words {c : Char} {w : List Char} {cs : List Char}
    (h : w ∈ wordsOf cs) (hc : c ∈ w) : isBlank c = false := by
  fun_induction wordsOf cs with
  | case1 => simp at h
  | case2 d cs hd ih => exact ih h
  | case3 d cs hd ih =>
      rcases List.mem_cons.1 h with rfl | h
      · rcases List.mem_cons.1 hc with rfl | hc
        · simpa using hd
        · exact isBlank_eq_false_of_mem_takeWord hc
      · exact ih h

end Text
end SceneReader
