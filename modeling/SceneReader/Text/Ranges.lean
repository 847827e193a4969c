/-!
# Classes of characters as ranges of code points

A class of characters is a list of closed ranges, ascending and apart.  A class
lists the characters beyond ASCII only where the ASCII part is said by a test of
its own.
-/

namespace SceneReader
namespace Text

/-- A closed range of code points. -/
abbrev Range := Nat × Nat

/-- Membership of a code point in a list of ranges. -/
def inRanges : List Range → Nat → Bool
  | [], _ => false
  | r :: rs, n => (decide (r.1 ≤ n) && decide (n ≤ r.2)) || inRanges rs n

/-- Ranges that are ascending and do not touch. -/
def Ascending : List Range → Prop
  | [] => True
  | [r] => r.1 ≤ r.2
  | r :: s :: rs => r.1 ≤ r.2 ∧ r.2 + 1 < s.1 ∧ Ascending (s :: rs)

theorem inRanges_append (rs ss : List Range) (n : Nat) :
    inRanges (rs ++ ss) n = (inRanges rs n || inRanges ss n) := by
  induction rs with
  | nil => simp [inRanges]
  | cons r rs ih => simp [inRanges, ih, Bool.or_assoc]

end Text
end SceneReader
