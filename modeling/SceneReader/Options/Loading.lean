import SceneReader.File.Tree
import SceneReader.Options.Basic
import SceneReader.Options.Yaml

/-!
# Loading options

Options are read from a file that holds a mapping of option names to values.  An empty
file leaves the defaults.
-/

namespace SceneReader

/-- Why no options were loaded. -/
inductive ConfigFault where
  | missing (path : String)
  | broken (path : String)
  | noMapping (path : String)
  | invalid (fault : OptionFault)
  /-- A name in the mapping is no text. -/
  | unnamed
  /-- The path leads to a directory. -/
  | directory
  /-- The file is no text. -/
  | undecodable

/-- The message about a configuration. -/
def ConfigFault.message : ConfigFault → String
  | missing path => "config not found: " ++ path
  | broken path => "YAML parse error in " ++ path
  | noMapping path => path ++ " must contain a mapping of options"
  | invalid fault => fault.message
  | unnamed => "option names must be text"
  | directory => "configuration is a directory"
  | undecodable => "configuration is not text"

namespace Options

/-- The name of a setting. -/
def settingName? (e : Value × Value) : Option (String × Value) :=
  match e.1 with
  | .string s => some (s, e.2)
  | _ => none

/-- Options from the text of a file. -/
def ofYaml (path : String) (text : List Char) : Except ConfigFault Options :=
  match Yaml.parse text with
  | none => .error (.broken path)
  | some (.scalar .none) => .ok standard
  | some (.mapping es) =>
      match es.mapM settingName? with
      | none => .error .unnamed
      | some es => (ofEntries es).mapError .invalid
  | some _ => .error (.noMapping path)

/-- Options from a file. -/
def load (t : FileTree) (path : Path) : Except ConfigFault Options :=
  match t.find path with
  | .file _ bytes =>
      match Encoding.utf8.decode bytes with
      | .error _ => .error .undecodable
      | .ok cs => ofYaml path.text (Text.universalNewlines cs)
  | .directory _ => .error .directory
  | _ => .error (.missing path.text)

end Options
end SceneReader
