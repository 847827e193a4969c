/-!
# Paths

A path is relative or absolute and has named parts.  Empty parts and single dots are
dropped when a path is read; a double dot stays until the path is resolved against a
directory, where it cancels the part before it.  There are no links, so resolving needs
no look at the files.

**Results.**
* `resolve_not_mem_dotDot`: no double dot is left in a resolved path.
-/

namespace SceneReader

/-- How a path starts: nowhere, at the root, or at the root with the two slashes that a
system may treat apart. -/
inductive PathRoot where
  | relative
  | slash
  | doubleSlash
deriving DecidableEq

/-- The text in front of the parts. -/
def PathRoot.text : PathRoot → String
  | relative => ""
  | slash => "/"
  | doubleSlash => "//"

/-- A path as a name for a file or a directory. -/
structure Path where
  root : PathRoot
  parts : List String
deriving DecidableEq

/-- An absolute place in the file system: the names from the root down. -/
abbrev Location := List String

/-- A place as text. -/
def Location.text (l : Location) : String :=
  "/" ++ "/".intercalate l

namespace Path

/-- The pieces of a text between slashes; `piece` is the current one in reverse. -/
def splitSlashes (piece : List Char) : List Char → List String
  | [] => [String.ofList piece.reverse]
  | c :: cs =>
      if c = '/' then String.ofList piece.reverse :: splitSlashes [] cs
      else splitSlashes (c :: piece) cs

/-- The parts that a text of names and slashes has. -/
def partsOf (cs : List Char) : List String :=
  (splitSlashes [] cs).filter (fun p => p != "" && p != ".")

/-- How many slashes a text starts with. -/
def leadingSlashes (cs : List Char) : Nat :=
  (cs.takeWhile (· == '/')).length

/-- The root of a path text. -/
def rootOf (cs : List Char) : PathRoot :=
  match leadingSlashes cs with
  | 0 => .relative
  | 2 => .doubleSlash
  | _ => .slash

/-- Reads a path. -/
def ofText (s : String) : Path :=
  ⟨rootOf s.toList, partsOf s.toList⟩

/-- The path of a place. -/
def ofLocation (l : Location) : Path := ⟨.slash, l⟩

/-- A path as text; the path without parts is a dot. -/
def text (p : Path) : String :=
  if p.root = .relative ∧ p.parts = [] then "."
  else p.root.text ++ "/".intercalate p.parts

/-- The path starts at the root. -/
def isAbsolute (p : Path) : Bool :=
  p.root != .relative

/-- A path seen from a directory. -/
def join (dir p : Path) : Path :=
  if p.isAbsolute then p else ⟨dir.root, dir.parts ++ p.parts⟩

/-- The last part. -/
def name (p : Path) : String :=
  p.parts.getLastD ""

/-- The path without its last part. -/
def parent (p : Path) : Path :=
  ⟨p.root, p.parts.dropLast⟩

/-- A name cut before its last dot; a dot at either end of the name cuts nothing. -/
def splitSuffix (name : String) : String × String :=
  let cs := name.toList
  let ending := cs.reverse.takeWhile (· != '.')
  let stem := cs.take (cs.length - ending.length - 1)
  if ending.length < cs.length ∧ stem ≠ [] ∧ ending ≠ [] then
    (String.ofList stem, String.ofList ('.' :: ending.reverse))
  else (name, "")

/-- The ending of the name with its dot, or nothing. -/
def suffix (p : Path) : String := (splitSuffix p.name).2

/-- The name without its ending. -/
def stem (p : Path) : String := (splitSuffix p.name).1

/-- One more part below a place. -/
def step (l : Location) (part : String) : Location :=
  if part = ".." then l.dropLast else l ++ [part]

/-- The place that a path means, seen from a directory. -/
def resolve (here : Location) (p : Path) : Location :=
  p.parts.foldl step (if p.isAbsolute then [] else here)

theorem foldl_step_not_mem_dotDot (ps : List String) (l : Location) (h : ".." ∉ l) :
    ".." ∉ ps.foldl step l := by
  induction ps generalizing l with
  | nil => exact h
  | cons p ps ih =>
      apply ih
      unfold step
      split
      · exact fun hm => h ((List.dropLast_sublist l).subset hm)
      · rename_i hp
        intro hm
        rcases List.mem_append.1 hm with hm | hm
        · exact h hm
        · exact hp (List.mem_singleton.1 hm).symm

theorem resolve_not_mem_dotDot (here : Location) (p : Path) (h : ".." ∉ here) :
    ".." ∉ p.resolve here := by
  unfold resolve
  apply foldl_step_not_mem_dotDot
  split
  · simp
  · exact h

end Path
end SceneReader
