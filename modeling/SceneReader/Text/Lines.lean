/-!
# Lines of a text

A text is cut into lines at every line boundary of Unicode.  A carriage return and
the line feed after it are one boundary, and a boundary at the end of the text
starts no further line.

The reader counts lines in another way, by line feeds alone; `splitLines` is the cut
that quoted source lines are taken from.
-/

namespace SceneReader
namespace Text

/-- Characters that end a line. -/
def isLineBreak (c : Char) : Bool :=
  let n := c.toNat
  (decide (0x0A ≤ n) && decide (n ≤ 0x0D)) || (decide (0x1C ≤ n) && decide (n ≤ 0x1E)) ||
    n == 0x85 || n == 0x2028 || n == 0x2029

/-- Lines of a text, given the characters of the current line in reverse order. -/
def splitLinesFrom (line : List Char) : List Char → List String
  | [] => if line.isEmpty then [] else [String.ofList line.reverse]
  | '\r' :: '\n' :: cs => String.ofList line.reverse :: splitLinesFrom [] cs
  | c :: cs =>
      if isLineBreak c then String.ofList line.reverse :: splitLinesFrom [] cs
      else splitLinesFrom (c :: line) cs

/-- The lines of a text without their ends. -/
def splitLines (s : String) : List String :=
  splitLinesFrom [] s.toList

/-- Line `n` of a list of lines, counted from one. -/
def lineAt? (lines : List String) (n : Nat) : Option String :=
  if n = 0 then none else lines[n - 1]?

/-- Every end of line as a line feed: a carriage return, with or without a line feed
after it, becomes one. -/
def universalNewlines : List Char → List Char
  | [] => []
  | '\r' :: '\n' :: cs => '\n' :: universalNewlines cs
  | '\r' :: cs => '\n' :: universalNewlines cs
  | c :: cs => c :: universalNewlines cs

end Text
end SceneReader
