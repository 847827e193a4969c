import SceneReader.Directive.Parser
import SceneReader.Engine.Execution
import SceneReader.Engine.Statistics
import SceneReader.File.Archive
import SceneReader.Include.Expansion
import SceneReader.Scene.Builder

/-!
# Loading scenes

A scene is loaded from a file, from an archive that holds one, or from text that is at
hand: includes are expanded, the text is read as directives, these are executed, and
their events make the scene.  Diagnostics of all stages are kept in order.
-/

namespace SceneReader

/-- Why no scene was loaded. -/
inductive LoadFault (K : Type) where
  /-- A file, or text that is no row of directives. -/
  | read (e : ReadError)
  /-- An archive with a member whose name has a zero in it. -/
  | zeroInName
  | rejected (r : Rejection K)
  | build (f : BuildFault)

/-- The fault of an archive as a reason why no scene was loaded. -/
def LoadFault.ofArchive {K : Type} : Archive.Fault → LoadFault K
  | .scene e => .read (.scene e)
  | .zeroInName => .zeroInName

/-- A loaded scene with its statistics. -/
structure LoadedScene (K : Type) where
  scene : Scene K
  statistics : Statistics

/-- The directives of a text. -/
def directivesOf (o : Options) (file : Option String) (text : String) :
    Reported SceneError (List Directive) := do
  let tokens ← Reported.ofExcept (Lexer.tokenize text file)
  Parser.parse (.ofSource (some text) o.strictNumbers) tokens

/-- The directives of a scene file, includes expanded, and their text. -/
def readDirectives (files : FileTree) (o : Options) (path : String) :
    Reported ReadError (List Directive × String) := do
  let text ← Include.expandFile files o path
  let ds ← (directivesOf o (some path) text).mapError .scene
  return (ds, text)

section Load

variable {K : Type} [Scalar K]

/-- The events of directives, all of which have to be admitted. -/
def eventsOf (c : EngineContext) (ds : List Directive) :
    Reported (LoadFault K) (List (Event K)) :=
  let p := Engine.run c ds (.initial .empty)
  ⟨p.notes, match p.rejection with
    | some r => .error (.rejected r)
    | none => .ok p.events⟩

/-- The scene of directives from a text. -/
def sceneOf (files : FileTree) (source : Option String) (text : String) (ds : List Directive) :
    Reported (LoadFault K) (LoadedScene K) := do
  let events ← eventsOf ⟨files, Text.splitLines text, source⟩ ds
  let scene ← Reported.ofExcept ((Scene.ofEvents files.here events).mapError .build)
  return ⟨scene, .ofEvents events⟩

/-- The path of the scene file that a path leads to, and the files among which it lies:
an archive is unpacked into the directory `fresh`. -/
def sceneFile (files : FileTree) (path : String) (fresh : Location) :
    Except Archive.Fault (String × FileTree) :=
  if Archive.isArchiveName path then
    let unpacked := Archive.extract (files.place fresh .directory) (Path.ofText path) fresh
    unpacked.scene.map fun l => (Location.text l, unpacked.files)
  else .ok ((Path.ofText path).text, files)

/-- Loads a scene from a file or an archive. -/
def loadScene (files : FileTree) (o : Options) (fresh : Location) (path : String) :
    Reported (LoadFault K) (LoadedScene K) := do
  let (path, files) ← Reported.ofExcept
    ((sceneFile files path fresh).mapError LoadFault.ofArchive)
  let (ds, text) ← (readDirectives files o path).mapError .read
  sceneOf files (some path) text ds

/-- Loads a scene from text; names in it are looked up from a directory. -/
def loadText (files : FileTree) (o : Options) (base : Path) (file : Option String)
    (text : String) : Reported (LoadFault K) (LoadedScene K) := do
  let expanded ← (Include.expandText files o base file text).mapError LoadFault.read
  let ds ← (directivesOf o file expanded).mapError fun e => LoadFault.read (.scene e)
  sceneOf files file expanded ds

end Load
end SceneReader
