import SceneReader.File.Tree

/-!
# Directories to search

Relative file names are looked up in a stack of directories, the one entered last
first.  An absolute name is looked up as it stands.

**Results.**
* `entered_push`: entering a directory puts it after those entered before.
* `pop_push`: leaving a directory leads back to those before it.
-/

namespace SceneReader

/-- Directories that were entered and not left, the last one first. -/
structure DirectoryStack where
  dirs : List Path
deriving DecidableEq

namespace DirectoryStack

/-- No directory. -/
def empty : DirectoryStack := ⟨[]⟩

/-- A stack from directories in the order in which they were entered. -/
def ofList (ps : List Path) : DirectoryStack := ⟨ps.reverse⟩

/-- The directories in the order in which they were entered. -/
def entered (s : DirectoryStack) : List Path := s.dirs.reverse

/-- How many directories are entered. -/
def depth (s : DirectoryStack) : Nat := s.dirs.length

/-- The directory entered last. -/
def top? (s : DirectoryStack) : Option Path := s.dirs.head?

/-- Enters a directory. -/
def push (s : DirectoryStack) (p : Path) : DirectoryStack := ⟨p :: s.dirs⟩

/-- Leaves the directory entered last. -/
def pop? (s : DirectoryStack) : Option (Path × DirectoryStack) :=
  match s.dirs with
  | [] => none
  | p :: ps => some (p, ⟨ps⟩)

/-- The paths that a name may mean, in the order of the search. -/
def candidates (s : DirectoryStack) (name : Path) : List Path :=
  if name.isAbsolute then [name] else s.dirs.map (·.join name)

/-- The first file that a name may mean. -/
def find? (s : DirectoryStack) (files : FileTree) (name : Path) : Option Location :=
  ((s.candidates name).find? files.isFile).map files.resolve

theorem entered_push (s : DirectoryStack) (p : Path) :
    (s.push p).entered = s.entered ++ [p] := by
  simp [entered, push]

theorem pop_push (s : DirectoryStack) (p : Path) : (s.push p).pop? = some (p, s) := rfl

end DirectoryStack
end SceneReader
