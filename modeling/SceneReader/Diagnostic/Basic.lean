import SceneReader.Source.Position

/-!
# Diagnostics

A diagnostic has a code, a message and a severity, the span it is about, the source
line to show and hints.  Its text is a header, the source line with carets under the
span, and one line for each hint.  A span that does not end on its first line is
underlined to the end of the line.
-/

namespace SceneReader

/-- How serious a diagnostic is. -/
inductive Severity where
  | error
  | warning
  | info
deriving DecidableEq

/-- The word for a severity. -/
def Severity.text : Severity → String
  | error => "error"
  | warning => "warning"
  | info => "info"

/-- A message about a scene. -/
structure Diagnostic where
  code : String
  message : String
  severity : Severity
  span : Span
  sourceLine : Option String
  hints : List String

namespace Diagnostic

/-- The span is a place in a text. -/
def hasLocation (d : Diagnostic) : Bool :=
  decide (0 < d.span.start.line)

/-- The first line: place, severity, code and message. -/
def header (d : Diagnostic) : String :=
  (if d.hasLocation then d.span.startText ++ ": " else "") ++
    d.severity.text ++ "[" ++ d.code ++ "]: " ++ d.message

/-- The column after the last underlined character. -/
def underlineEnd (d : Diagnostic) (line : String) : Nat :=
  if d.span.start.line = d.span.stop.line then d.span.stop.column else line.length + 1

/-- Carets under the span, one at least. -/
def underline (d : Diagnostic) (line : String) : String :=
  let column := d.span.start.column
  String.ofList (List.replicate (column - 1) ' ' ++
    List.replicate (max 1 (d.underlineEnd line - column)) '^')

/-- A line number, right-aligned in three columns. -/
def lineNumber (n : Nat) : String :=
  let ds := (toString n).toList
  String.ofList (List.replicate (3 - ds.length) ' ' ++ ds)

/-- The source line with its number and the carets below it. -/
def sourceBlock (d : Diagnostic) (line : String) : List String :=
  ["  |", lineNumber d.span.start.line ++ " | " ++ line, "    | " ++ d.underline line]

/-- The text of a diagnostic, with or without its source line. -/
def format (d : Diagnostic) (showSource : Bool) : String :=
  let source := match d.sourceLine with
    | some line => if showSource && d.hasLocation then d.sourceBlock line else []
    | none => []
  "\n".intercalate (d.header :: source ++ d.hints.map ("    = hint: " ++ ·))

end Diagnostic
end SceneReader
