import SceneReader.Diagnostic.Cause
import SceneReader.File.Encoding
import SceneReader.File.Path
import SceneReader.Packed.Gzip
import SceneReader.Text.Lines

/-!
# File trees

The files that a scene may draw on: directories and files by their places, and the
directory from which relative paths are seen.  A file holds bytes.

A path is followed part by part, and every part but the last must lead to a directory;
a double dot leads back to the directory above.
-/

namespace SceneReader

/-- What stands at a place. -/
inductive FileNode where
  | directory
  | file (bytes : List UInt8)

/-- Directories and files by place, and the current directory. -/
structure FileTree where
  nodes : List (Location × FileNode)
  here : Location

/-- Where a path leads. -/
inductive Found where
  | missing
  /-- A part of the path is below a file. -/
  | blocked
  | directory (place : Location)
  | file (place : Location) (bytes : List UInt8)

namespace FileTree

/-- The places from the root down to a place. -/
def initials (l : Location) : List Location :=
  (List.range (l.length + 1)).map l.take

/-- The directories from the root down to a place. -/
def above (l : Location) : List (Location × FileNode) :=
  (initials l).map (fun d => (d, .directory))

/-- The tree with nothing in it but the current directory. -/
def rooted (here : Location) : FileTree := ⟨above here, here⟩

/-- What stands at a place. -/
def node? (t : FileTree) (l : Location) : Option FileNode :=
  t.nodes.lookup l

/-- Puts something at a place, replacing what stood there. -/
def put (t : FileTree) (l : Location) (n : FileNode) : FileTree :=
  { t with nodes := (l, n) :: t.nodes.filter (fun e => e.1 != l) }

/-- The directories above a place, made where they are missing. -/
def ensureAbove (t : FileTree) (l : Location) : FileTree :=
  (initials l.dropLast).foldl
    (fun t d => if (t.node? d).isSome then t else t.put d .directory) t

/-- Puts a file or a directory at a place together with the directories above it. -/
def place (t : FileTree) (l : Location) (n : FileNode) : FileTree :=
  (t.ensureAbove l).put l n

/-- Follows parts from a place. -/
def follow (t : FileTree) (l : Location) : List String → Found
  | [] =>
      match t.node? l with
      | none => .missing
      | some .directory => .directory l
      | some (.file bytes) => .file l bytes
  | p :: ps =>
      match t.node? l with
      | none => .missing
      | some (.file _) => .blocked
      | some .directory => t.follow (Path.step l p) ps

/-- Where a path leads, seen from the current directory. -/
def find (t : FileTree) (p : Path) : Found :=
  t.follow (if p.isAbsolute then [] else t.here) p.parts

/-- There is something at the path. -/
def pathExists (t : FileTree) (p : Path) : Bool :=
  match t.find p with
  | .directory _ => true
  | .file _ _ => true
  | _ => false

/-- The path leads to a file. -/
def isFile (t : FileTree) (p : Path) : Bool :=
  match t.find p with
  | .file _ _ => true
  | _ => false

/-- The place that a path means. -/
def resolve (t : FileTree) (p : Path) : Location :=
  p.resolve t.here

end FileTree

/-- Why no text was read from a file. -/
inductive ReadError where
  | scene (e : SceneError)
  /-- The file is there, and there is no such encoding. -/
  | unknownEncoding (name : String)
  /-- The file is a compressed stream whose bits mean nothing. -/
  | corruptStream

/-- The text in bytes, or the fault of the file that holds them. -/
def decodeFile (path encoding : String) (bytes : List UInt8) : Except ReadError String :=
  match Encoding.ofName? encoding with
  | none => .error (.unknownEncoding encoding)
  | some e =>
      match e.decode bytes with
      | .ok cs => .ok (String.ofList (Text.universalNewlines cs))
      | .error f =>
          .error (.scene (.unplaced (.fileUnreadable path (.notText encoding f.text))))

/-- The text of a scene file, unpacked if its name ends so.  Every end of line is read
as a line feed. -/
def FileTree.readScene (t : FileTree) (p : Path) (encoding : String) :
    Except ReadError String :=
  let refused : ReadError := .scene (.unplaced (.fileUnreadable p.text .refused))
  match t.find p with
  | .missing => .error (.scene (.unplaced (.fileNotFound p.text [])))
  | .blocked => .error refused
  | .directory _ => .error refused
  | .file _ bytes =>
      if p.suffix = ".gz" then
        match Encoding.ofName? encoding, Packed.Gzip.unpack bytes with
        | none, _ => .error (.unknownEncoding encoding)
        | _, .error .refused => .error refused
        | _, .error .corrupt => .error .corruptStream
        | _, .ok bytes => decodeFile p.text encoding bytes
      else decodeFile p.text encoding bytes

end SceneReader
