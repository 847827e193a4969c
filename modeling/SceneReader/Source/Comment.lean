/-!
# Comments

A comment runs from a hash to the end of its line.  A hash inside a string literal is
text; a backslash inside a literal takes the next character along, whatever it is.
Stripping a text removes its comments and nothing else: the line feed that ends a
comment stays, so that lines keep their numbers.

The scanner is an automaton over the regions of a text.

**Results.**
* `strip_append`: stripping runs through a text from left to right.
* `strip_sublist`: the result is a sublist of the text.
-/

namespace SceneReader
namespace Comment

/-- Where the scanner stands. -/
inductive Region where
  | plain
  | literal
  | escaped
  | comment
deriving DecidableEq

namespace Region

/-- The region after a character. -/
def after : Region → Char → Region
  | plain, c => if c = '"' then literal else if c = '#' then comment else plain
  | literal, c => if c = '"' then plain else if c = '\\' then escaped else literal
  | escaped, _ => literal
  | comment, c => if c = '\n' then plain else comment

/-- The character is no part of a comment. -/
def keeps : Region → Char → Bool
  | plain, c => c != '#'
  | literal, _ => true
  | escaped, _ => true
  | comment, c => c == '\n'

/-- The region after a row of characters. -/
def afterAll (r : Region) (cs : List Char) : Region :=
  cs.foldl after r

end Region

/-- Strips a text that is entered in the given region. -/
def stripFrom (r : Region) : List Char → List Char
  | [] => []
  | c :: cs => if r.keeps c then c :: stripFrom (r.after c) cs else stripFrom (r.after c) cs

/-- The text without its comments. -/
def strip (cs : List Char) : List Char :=
  stripFrom .plain cs

/-- The string without its comments. -/
def stripText (s : String) : String :=
  String.ofList (strip s.toList)

theorem strip_append (r : Region) (cs ds : List Char) :
    stripFrom r (cs ++ ds) = stripFrom r cs ++ stripFrom (r.afterAll cs) ds := by
  induction cs generalizing r with
  | nil => rfl
  | cons c cs ih =>
      simp only [List.cons_append, stripFrom, Region.afterAll, List.foldl_cons]
      split <;> simp [ih, Region.afterAll]

theorem strip_sublist (r : Region) (cs : List Char) : (stripFrom r cs).Sublist cs := by
  induction cs generalizing r with
  | nil => exact List.Sublist.refl []
  | cons c cs ih =>
      unfold stripFrom
      split
      · exact (ih (r.after c)).cons_cons c
      · exact (ih (r.after c)).cons c

end Comment
end SceneReader
