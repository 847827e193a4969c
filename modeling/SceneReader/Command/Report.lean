import SceneReader.Scene.Loading

/-!
# Reports of commands

The texts that commands write: a summary of a checked scene for people, the same for
other programs, and directives one per line.
-/

namespace SceneReader
namespace Report

/-- A line with its end. -/
def line (s : String) : String := s ++ "\n"

/-- Counts as words with an equals sign between name and number. -/
def countWords (counts : List (String × Nat)) : String :=
  " ".intercalate (counts.map fun e => e.1 ++ "=" ++ toString e.2)

/-- Counts in the order of their names. -/
def sorted (counts : List (String × Nat)) : List (String × Nat) :=
  counts.mergeSort (fun a b => decide (a.1 ≤ b.1))

/-- The sum of counts and the counts. -/
def totalWords (t : Table Nat) : String :=
  toString (Statistics.total t) ++ " " ++ countWords (sorted t.entries)

/-- The summary of a scene. -/
def summary {K : Type} (file : String) (s : LoadedScene K) (warnings : Nat) : String :=
  let lines :=
    [file ++ ": OK",
     "  nodes:      " ++ toString s.scene.graph.size,
     "  shapes:     " ++ totalWords s.statistics.shapes,
     "  lights:     " ++ totalWords s.statistics.lights,
     "  objects:    " ++ toString s.statistics.objects ++ " (" ++
       toString s.statistics.instances ++ " instances)",
     "  resources:  " ++ countWords s.scene.resources.counts,
     "  warnings:   " ++ toString warnings]
  String.join (lines.map line)

/-- The report on a scene for other programs. -/
def document {K : Type} (s : LoadedScene K) (notes : Diagnostics) : Document :=
  .object (notes.fields ++
    [("summary", s.scene.summary (notes.count .warning)),
     ("statistics", s.statistics.document)])

/-- Diagnostics as commands show them. -/
def diagnostics (notes : Diagnostics) : String :=
  if notes.isEmpty then "" else line (notes.formatAll true)

/-- Directives, one per line. -/
def directives (o : Options) (ds : List Directive) : String :=
  String.join (ds.map fun d => line (d.format o.valueLimit))

end Report
end SceneReader
