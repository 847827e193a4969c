import SceneReader.Command.Run

/-!
# The program

The program takes up the files below the current directory and around the files of its
command line, runs the command on them, and writes what the command writes.  An archive is
unpacked in memory only.
-/

namespace SceneReader
namespace Program

/-- How many directories deep files are looked for. -/
def depthLimit : Nat := 32

/-- The greatest size of a file that is read whatever its name is. -/
def sizeLimit : Nat := 4194304

/-- The bytes of the file may matter; of any other only its presence does. -/
def isRead (name : String) (size : Nat) : Bool :=
  size ≤ sizeLimit || [".pbrt", ".gz", ".tgz"].any fun s => name.endsWith s

/-- Takes up what is at a place and below it. -/
def gather : (depth : Nat) → FileTree → Location → IO FileTree
  | 0, t, _ => return t
  | depth + 1, t, l => do
      let path ← IO.FS.realPath (Location.text l)
      if ← path.isDir then
        let names := (← path.readDir).toList.map (·.fileName)
        names.foldlM (fun t name => gather depth t (l ++ [name])) (t.place l .directory)
      else if ← path.pathExists then
        let size := (← path.metadata).byteSize.toNat
        let bytes ← if isRead (Location.text l) size then IO.FS.readBinFile path else pure .empty
        return t.place l (.file bytes.toList)
      else return t

/-- Takes up what is at a place, or nothing if it cannot be looked at. -/
def gatherIfReadable (t : FileTree) (l : Location) : IO FileTree := do
  try gather depthLimit t l catch _ => return t

/-- The files that a command line may be about. -/
def surroundings (words : List String) : IO FileTree := do
  let here := (Path.ofText (← IO.currentDir).toString).parts
  let t ← gatherIfReadable (.rooted here) here
  let around := words.map fun w => ((Path.ofText w).resolve here).dropLast
  (around.filter fun l => !here.isPrefixOf l && !l.isEmpty).foldlM gatherIfReadable t

/-- Where archives are unpacked. -/
def archivePlace : Location := ["tmp", "unpacked-scene"]

/-- How the program is used. -/
def usage : String :=
  "usage: scene-reader [-h] [-v] {check,tree,flatten,dump} FILE [--strict] [--config FILE]\n" ++
  "                    [--no-includes] [--json] [--no-components] [--omit-long-values]\n"

/-- What is said of a command that ends without a report. -/
def complaint : Command.Breakdown → String
  | .usage _ => usage
  | .config f => "Error: " ++ f.message ++ "\n"
  | .unknownEncoding name => "Error: unknown encoding: " ++ name ++ "\n"
  | .corruptStream => "Error: a compressed file is corrupt\n"
  | .zeroInName => "Error: " ++ Archive.zeroInNameText ++ "\n"
  | .transform f => "Error: " ++ f.message ++ "\n"
  | .build _ => "Error: the directives make no scene\n"
  | .shown _ => "Error: a transform has no rotation\n"

/-- The exit code of a command that ends without a report. -/
def exitCode : Command.Breakdown → UInt32
  | .usage .help => 0
  | .usage .misuse => 2
  | _ => 1

end Program
end SceneReader

/-- Runs the command line. -/
def main (words : List String) : IO UInt32 := do
  let files ← SceneReader.Program.surroundings words
  match SceneReader.Command.run ⟨files, SceneReader.Program.archivePlace⟩ words with
  | .ok w =>
      IO.print w.out
      IO.eprint w.err
      return w.code.toUInt32
  | .error b =>
      if b matches .usage .help then IO.print (SceneReader.Program.complaint b)
      else IO.eprint (SceneReader.Program.complaint b)
      return SceneReader.Program.exitCode b
