import SceneReader.Diagnostic.Basic
import SceneReader.Document

/-!
# Reports of diagnostics

Diagnostics are collected in the order in which they arise.  A report shows all of them
and ends with their count when there are errors or warnings among them.
-/

namespace SceneReader

/-- A position for other programs. -/
def Position.document (p : Position) : Document :=
  .object [("line", .nat p.line), ("column", .nat p.column), ("offset", .nat p.offset)]

/-- A diagnostic for other programs; the source line is left to them. -/
def Diagnostic.document (d : Diagnostic) : Document :=
  .object [
    ("code", .text d.code),
    ("message", .text d.message),
    ("severity", .text d.severity.text),
    ("range", .object [("start", d.span.start.document), ("end", d.span.stop.document)]),
    ("file", .optional d.span.file),
    ("hints", .texts d.hints)]

/-- Diagnostics in order. -/
abbrev Diagnostics := List Diagnostic

namespace Diagnostics

/-- How many diagnostics have the given severity. -/
def count (ds : Diagnostics) (s : Severity) : Nat :=
  ds.countP (fun d => decide (d.severity = s))

/-- The warnings among the diagnostics. -/
def warnings (ds : Diagnostics) : Diagnostics :=
  ds.filter (fun d => decide (d.severity = .warning))

/-- The codes in order. -/
def codes (ds : Diagnostics) : List String :=
  ds.map (·.code)

/-- The closing line of a report, behind a blank one. -/
def closing (ds : Diagnostics) : List String :=
  let errors := ds.count .error
  let warnings := ds.count .warning
  if 0 < errors then
    ["\n" ++ toString errors ++ " error(s), " ++ toString warnings ++ " warning(s)"]
  else if 0 < warnings then ["\n" ++ toString warnings ++ " warning(s)"]
  else []

/-- The text of a report. -/
def formatAll (ds : Diagnostics) (showSource : Bool) : String :=
  "\n\n".intercalate (ds.map (fun (d : Diagnostic) => d.format showSource) ++ ds.closing)

/-- The fields of a report for other programs. -/
def fields (ds : Diagnostics) : List (String × Document) :=
  [("diagnostics", .array (ds.map Diagnostic.document)),
   ("error_count", .nat (ds.count .error)),
   ("warning_count", .nat (ds.count .warning))]

end Diagnostics
end SceneReader
