/-!
# Positions and spans in a text

A position counts lines and columns from one and characters from zero.  Only the line
feed starts a new line.  A span runs from the position of its first character to the
position after its last one and names the file it lies in, if there is one.
-/

namespace SceneReader

/-- A place between two characters of a text. -/
structure Position where
  line : Nat
  column : Nat
  offset : Nat
deriving DecidableEq

namespace Position

/-- The place before the first character. -/
def start : Position := ⟨1, 1, 0⟩

/-- The place after one more character. -/
def advance (p : Position) (c : Char) : Position :=
  if c = '\n' then ⟨p.line + 1, 1, p.offset + 1⟩ else ⟨p.line, p.column + 1, p.offset + 1⟩

/-- The place after a row of characters. -/
def advanceAll (p : Position) (cs : List Char) : Position :=
  cs.foldl advance p

theorem advanceAll_nil (p : Position) : p.advanceAll [] = p := rfl

theorem advanceAll_append (p : Position) (cs ds : List Char) :
    p.advanceAll (cs ++ ds) = (p.advanceAll cs).advanceAll ds := by
  simp [advanceAll]

theorem offset_advance (p : Position) (c : Char) : (p.advance c).offset = p.offset + 1 := by
  unfold advance
  split <;> rfl

theorem offset_advanceAll (p : Position) (cs : List Char) :
    (p.advanceAll cs).offset = p.offset + cs.length := by
  induction cs generalizing p with
  | nil => rfl
  | cons c cs ih =>
      have h := ih (p.advance c)
      simp only [advanceAll, List.foldl_cons, List.length_cons] at *
      rw [h, offset_advance]
      omega

end Position

/-- A stretch of a text. -/
structure Span where
  file : Option String
  start : Position
  stop : Position
deriving DecidableEq

namespace Span

/-- The span of a message that belongs to no place of any text. -/
def unknown : Span := ⟨none, ⟨0, 0, 0⟩, ⟨0, 0, 0⟩⟩

/-- The file name in front of a place; an empty name counts as none. -/
def fileText (s : Span) : String :=
  match s.file with
  | some f => if f.isEmpty then "" else f ++ ":"
  | none => ""

/-- The place where the span starts, as messages show it. -/
def startText (s : Span) : String :=
  s.fileText ++ toString s.start.line ++ ":" ++ toString s.start.column

/-- Both ends of the span. -/
def text (s : Span) : String :=
  s.startText ++ "-" ++ toString s.stop.line ++ ":" ++ toString s.stop.column

end Span
end SceneReader
