import SceneReader.Command.Arguments
import SceneReader.Command.Report
import SceneReader.Options.Loading

/-!
# Running commands

A command reads a scene and writes a report.  Its exit code is zero if the scene could
be read, one if not, and two if the configuration is no good.
-/

namespace SceneReader
namespace Command

/-- What a command writes, and its exit code. -/
structure Written where
  code : Nat
  out : String
  err : String

/-- Why a command ends without a report. -/
inductive Breakdown where
  /-- The command line asks for help or cannot be understood. -/
  | usage (r : Refusal)
  | config (f : ConfigFault)
  | unknownEncoding (name : String)
  | corruptStream
  | zeroInName
  | transform (f : TransformFault Float)
  | build (f : BuildFault)
  | shown (f : DecompositionFault)

/-- The files that a command sees, and a directory to unpack archives into. -/
structure Surroundings where
  files : FileTree
  fresh : Location

/-- The report of a failure that is told to the user. -/
def failure (code : Nat) (message : String) : Written := ⟨code, "", Report.line message⟩

/-- The report of an error while files are read. -/
def ofReadError : ReadError → Except Breakdown Written
  | .scene e => .ok (failure 1 e.text)
  | .unknownEncoding name => .error (.unknownEncoding name)
  | .corruptStream => .error .corruptStream

/-- The report of an error while a scene is loaded. -/
def ofLoadFault : LoadFault Float → Except Breakdown Written
  | .read e => ofReadError e
  | .zeroInName => .error .zeroInName
  | .rejected (.scene e) => .ok (failure 1 e.text)
  | .rejected (.transform f) => .error (.transform f)
  | .build f => .error (.build f)

/-- Reports what a step of reading comes to. -/
def report {ε α : Type} (x : Reported ε α) (bad : ε → Except Breakdown Written)
    (good : α → Diagnostics → Except Breakdown Written) : Except Breakdown Written :=
  match x.result with
  | .error e => bad e
  | .ok a => good a x.notes

/-- Reports on a scene. -/
def check (w : Surroundings) (o : Options) (file : String) (json : Bool) :
    Except Breakdown Written :=
  report (loadScene w.files o w.fresh file) ofLoadFault fun s notes =>
    if json then .ok ⟨0, Report.line (Report.document s notes).render, ""⟩
    else .ok ⟨0, Report.summary file s (notes.count .warning), Report.diagnostics notes⟩

/-- Writes the graph of a scene. -/
def tree (w : Surroundings) (o : Options) (file : String) (showComponents : Bool) :
    Except Breakdown Written :=
  report (loadScene w.files o w.fresh file) ofLoadFault fun s notes =>
    match s.scene.graph.treeText showComponents with
    | .error f => .error (.shown f)
    | .ok text => .ok ⟨0, Report.line text, Report.diagnostics notes⟩

/-- Writes the text of a scene, includes expanded. -/
def flatten (w : Surroundings) (o : Options) (file : String) : Except Breakdown Written :=
  report (Include.expandFile w.files o file) ofReadError fun text notes =>
    .ok ⟨0, text, Report.diagnostics notes⟩

/-- Writes the directives of a scene. -/
def dump (w : Surroundings) (o : Options) (file : String) : Except Breakdown Written :=
  report (readDirectives w.files o file) ofReadError fun r notes =>
    .ok ⟨0, Report.directives o r.1, Report.diagnostics notes⟩

/-- The options that choices start from: those of a file if one is named, else the standard
ones. -/
def baseOptions (files : FileTree) (config : Option String) : Except ConfigFault Options :=
  match config.filter (!·.isEmpty) with
  | none => .ok Options.standard
  | some path => Options.load files (Path.ofText path)

/-- Options with the choices of a command line: a choice can only add to what a file says. -/
def Choices.applyTo (c : Choices) (o : Options) : Options :=
  { o with
    strictNumbers := o.strictNumbers || c.strict
    expandIncludes := o.expandIncludes && !c.noIncludes
    omitLongValues := o.omitLongValues || c.omitLongValues }

/-- The fault is one that the user is told of. -/
def isTold : ConfigFault → Bool
  | .unnamed => false
  | .directory => false
  | .undecodable => false
  | _ => true

/-- Runs the task of a command line. -/
def perform (w : Surroundings) (a : Arguments) (o : Options) : Except Breakdown Written :=
  match a.task with
  | .check => check w o a.file a.choices.json
  | .tree => tree w o a.file (!a.choices.noComponents)
  | .flatten => flatten w o a.file
  | .dump => dump w o a.file

/-- Runs a command line. -/
def run (w : Surroundings) (words : List String) : Except Breakdown Written :=
  match read words with
  | .error r => .error (.usage r)
  | .ok a =>
      if !w.files.pathExists (Path.ofText a.file) then
        .ok (failure 1 ("Error: File not found: " ++ a.file))
      else
        match baseOptions w.files a.choices.config with
        | .error f =>
            if isTold f then .ok (failure 2 ("Error: " ++ f.message)) else .error (.config f)
        | .ok o => perform w a (a.choices.applyTo o)

end Command
end SceneReader
