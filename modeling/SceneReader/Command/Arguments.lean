import SceneReader.Text.Digit

/-!
# Command lines

A command line is a row of words: options of the program, a command, and options and
the file of the command in any order.  A word that starts with a dash is an option,
unless it is a lone dash, a negative number or has a blank in it; after a double dash no
word is.  A long option may be shortened as long as it can mean one option only, and
short options may be written together.

**Results.**
* `read_nil`: a command is required.
-/

namespace SceneReader
namespace Command

/-- What a program is told to do. -/
inductive Task where
  | check
  | tree
  | flatten
  | dump
deriving DecidableEq

namespace Task

/-- All tasks. -/
def all : List Task := [.check, .tree, .flatten, .dump]

/-- The word for a task. -/
def text : Task → String
  | check => "check"
  | tree => "tree"
  | flatten => "flatten"
  | dump => "dump"

/-- The task of a word. -/
def ofText? (s : String) : Option Task := all.find? (fun t => t.text == s)

end Task

/-- What options stand for. -/
inductive Switch where
  | help
  | verbose
  | strict
  | config
  | noIncludes
  | json
  | noComponents
  | omitLongValues
deriving DecidableEq

/-- The option is followed by a value. -/
def Switch.takesValue : Switch → Bool
  | config => true
  | _ => false

/-- Options by their spellings. -/
abbrev Vocabulary := List (String × Switch)

/-- The options in front of the command. -/
def programOptions : Vocabulary :=
  [("-h", .help), ("--help", .help), ("-v", .verbose), ("--verbose", .verbose)]

/-- The options of all commands. -/
def commonOptions : Vocabulary :=
  [("-h", .help), ("--help", .help), ("--strict", .strict), ("--config", .config),
   ("--no-includes", .noIncludes)]

/-- The options of a command. -/
def taskOptions : Task → Vocabulary
  | .check => commonOptions ++ [("--json", .json)]
  | .tree => commonOptions ++ [("--no-components", .noComponents)]
  | .flatten => commonOptions
  | .dump => commonOptions ++ [("--omit-long-values", .omitLongValues)]

/-! ## Words -/

/-- The value that is attached to an option in the same word. -/
inductive Attached where
  | none
  /-- Behind an equals sign. -/
  | after (value : List Char)
  /-- Behind the letter of a short option. -/
  | joined (value : List Char)

/-- What a word is. -/
inductive Word where
  | plain
  /-- A double dash. -/
  | divider
  | switch (name : String) (s : Switch) (value : Attached)
  /-- It looks like an option, and there is no such option. -/
  | unknown

/-- The part in front of the first equals sign and the part behind it. -/
def splitEquals (cs : List Char) : List Char × Attached :=
  match cs.dropWhile (· != '=') with
  | [] => (cs, .none)
  | _ :: value => (cs.takeWhile (· != '='), .after value)

/-- A decimal digit of any script. -/
def isDecimalDigit (c : Char) : Bool := (Text.decimalDigit? c).isSome

/-- The characters without a line end behind them. -/
def withoutLineEnd (cs : List Char) : List Char :=
  if cs.getLast? = some '\n' then cs.dropLast else cs

/-- The word is a number below zero: digits, or digits behind a point with or without digits
in front of it.  One line end may follow. -/
def isNegativeNumber (cs : List Char) : Bool :=
  match withoutLineEnd cs with
  | '-' :: ds =>
      match ds.dropWhile isDecimalDigit with
      | [] => !ds.isEmpty
      | '.' :: fraction => !fraction.isEmpty && fraction.all isDecimalDigit
      | _ => false
  | _ => false

/-- What a word with dashes means that is no option as it stands. -/
def looseWord (v : Vocabulary) (cs : List Char) : Except Unit Word :=
  let candidates : List Word :=
    match cs with
    | '-' :: '-' :: _ =>
        let (stem, value) := splitEquals cs
        (v.filter (fun e => stem.isPrefixOf e.1.toList)).map fun e => .switch e.1 e.2 value
    | a :: b :: value =>
        (v.filter (fun e => e.1.toList = [a, b])).map fun e => .switch e.1 e.2 (.joined value)
    | _ => []
  match candidates with
  | [w] => .ok w
  | [] => .ok (if isNegativeNumber cs || cs.contains ' ' then .plain else .unknown)
  | _ => .error ()

/-- What a word is among options; it fails if the word can mean several. -/
def classify (v : Vocabulary) (word : String) : Except Unit Word :=
  let cs := word.toList
  match cs with
  | '-' :: _ :: _ =>
      match v.lookup word with
      | some s => .ok (.switch word s .none)
      | none =>
          let (stem, value) := splitEquals cs
          match value, v.lookup (String.ofList stem) with
          | .after _, some s => .ok (.switch (String.ofList stem) s value)
          | _, _ => looseWord v cs
  | _ => .ok .plain

/-- What words are; behind a double dash all are plain. -/
def classifyAll (v : Vocabulary) : List String → Except Unit (List (String × Word))
  | [] => .ok []
  | w :: ws =>
      if w = "--" then .ok ((w, .divider) :: ws.map fun w => (w, .plain))
      else do
        let first ← classify v w
        let rest ← classifyAll v ws
        return (w, first) :: rest

/-! ## Options -/

/-- The options that one word sets, and whether it has a rest that is no option. -/
structure Setting where
  switches : List Switch
  strange : Bool

/-- The options of short letters written together; none may have a value. -/
def joinedSwitches (v : Vocabulary) : List Char → Option Setting
  | [] => some ⟨[], false⟩
  | '-' :: _ => none
  | '=' :: _ => none
  | c :: cs =>
      match v.lookup (String.ofList ['-', c]) with
      | none => some ⟨[], true⟩
      | some s => (joinedSwitches v cs).map fun r => ⟨s :: r.switches, r.strange⟩

/-- The options that a word without a value of its own sets. -/
def settingOf (v : Vocabulary) (s : Switch) : Attached → Option Setting
  | .none => some ⟨[s], false⟩
  | .after _ => none
  | .joined cs => (joinedSwitches v cs).map fun r => ⟨s :: r.switches, r.strange⟩

/-- Why no arguments were read. -/
inductive Refusal where
  | help
  | misuse
deriving DecidableEq

/-- What options were set to. -/
structure Choices where
  strict : Bool := false
  config : Option String := none
  noIncludes : Bool := false
  json : Bool := false
  noComponents : Bool := false
  omitLongValues : Bool := false
deriving DecidableEq

/-- The choices with an option set. -/
def Choices.apply (c : Choices) : Switch → Except Refusal Choices
  | .help => .error .help
  | .verbose => .ok c
  | .strict => .ok { c with strict := true }
  | .config => .ok c
  | .noIncludes => .ok { c with noIncludes := true }
  | .json => .ok { c with json := true }
  | .noComponents => .ok { c with noComponents := true }
  | .omitLongValues => .ok { c with omitLongValues := true }

/-- What is known of a command while its words are read. -/
structure Partial where
  choices : Choices
  file : Option String
  /-- A word had no place. -/
  strange : Bool

/-- Sets the options of a word without a value. -/
def Partial.set (p : Partial) (s : Setting) : Except Refusal Partial :=
  (s.switches.foldlM Choices.apply p.choices).map fun c =>
    { p with choices := c, strange := p.strange || s.strange }

/-- Words without a double dash in front. -/
def dropDivider : List (String × Word) → List (String × Word)
  | (_, .divider) :: ws => ws
  | ws => ws

theorem length_dropDivider_le (ws : List (String × Word)) :
    (dropDivider ws).length ≤ ws.length := by
  unfold dropDivider
  split <;> simp

/-- The command with the value of an option. -/
def Partial.setConfig (p : Partial) (value : String) : Partial :=
  { p with choices := { p.choices with config := some value } }

/-- The command with its file, or with a word too many. -/
def Partial.setFile (p : Partial) (w : String) : Partial :=
  match p.file with
  | none => { p with file := some w }
  | some _ => { p with strange := true }

/-- The command with a word too many. -/
def Partial.spoil (p : Partial) : Partial := { p with strange := true }

/-- Sets an option that has no value in a word of its own. -/
def Partial.switchOn (v : Vocabulary) (p : Partial) (s : Switch) (value : Attached) :
    Except Refusal Partial :=
  if s.takesValue then
    match value with
    | .none => .error .misuse
    | .after cs => .ok (p.setConfig (String.ofList cs))
    | .joined cs => .ok (p.setConfig (String.ofList cs))
  else
    match settingOf v s value with
    | none => .error .misuse
    | some setting => p.set setting

/-- Reads the words of a command.  A double dash goes with the file next to it. -/
def readWords (v : Vocabulary) (p : Partial) : List (String × Word) → Except Refusal Partial
  | [] => .ok p
  | (w, .plain) :: ws =>
      have := length_dropDivider_le ws
      if p.file.isNone then readWords v (p.setFile w) (dropDivider ws)
      else readWords v p.spoil ws
  | (_, .divider) :: (w, k) :: ws =>
      if p.file.isNone then readWords v (p.setFile w) ws
      else readWords v p.spoil ((w, k) :: ws)
  | (_, .divider) :: [] => .ok p.spoil
  | (_, .unknown) :: ws => readWords v p.spoil ws
  | (_, .switch _ s .none) :: (w, .plain) :: ws =>
      if s.takesValue then readWords v (p.setConfig w) ws
      else (p.switchOn v s .none).bind fun p => readWords v p ((w, .plain) :: ws)
  | (_, .switch _ s value) :: ws => (p.switchOn v s value).bind fun p => readWords v p ws
  termination_by ws => ws.length
  decreasing_by
    all_goals simp only [List.length_cons]
    all_goals omega

/-! ## Whole command lines -/

/-- A task with its file and options. -/
structure Arguments where
  task : Task
  file : String
  choices : Choices
deriving DecidableEq

/-- Reads the words after a command.  `strange` says that a word before it had no place. -/
def readTask (task : Task) (strange : Bool) (words : List String) : Except Refusal Arguments :=
  match classifyAll (taskOptions task) words with
  | .error () => .error .misuse
  | .ok ws => do
      let p ← readWords (taskOptions task) ⟨{}, none, strange⟩ ws
      match p.file with
      | some file => if p.strange then .error .misuse else .ok ⟨task, file, p.choices⟩
      | none => .error .misuse

/-- Reads the words up to the command and those after it. -/
def readProgram (strange : Bool) : List (String × Word) → Except Refusal Arguments
  | [] => .error .misuse
  | (w, .plain) :: ws =>
      match Task.ofText? w with
      | some task => readTask task strange (ws.map (·.1))
      | none => .error .misuse
  | (_, .divider) :: _ => .error .misuse
  | (_, .unknown) :: ws => readProgram true ws
  | (_, .switch _ s value) :: ws =>
      match settingOf programOptions s value with
      | none => .error .misuse
      | some setting =>
          if setting.switches.contains .help then .error .help
          else readProgram (strange || setting.strange) ws

/-- Reads a command line. -/
def read (words : List String) : Except Refusal Arguments :=
  match classifyAll programOptions words with
  | .error () => .error .misuse
  | .ok ws => readProgram false ws

theorem read_nil : (read []).toOption.isNone := rfl

end Command
end SceneReader
