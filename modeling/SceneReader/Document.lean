import SceneReader.Number.Decimal
import SceneReader.Text.Literal

/-!
# Machine-readable documents

Reports for other programs are nested documents: objects with their fields in order,
arrays, texts, integers, truth values and the null value.  A document is written over
several lines, two blanks deeper for each level, and in ASCII alone: other characters
are escaped by their 16-bit units.
-/

namespace SceneReader

/-- Nested data. -/
inductive Document where
  | null
  | bool (b : Bool)
  | int (i : Int)
  | text (s : String)
  | array (items : List Document)
  | object (fields : List (String × Document))

namespace Document

/-- One 16-bit unit as an escape. -/
def unitEscape (n : Nat) : List Char :=
  '\\' :: 'u' :: Text.hexDigits 4 n

/-- One character inside a quoted text. -/
def escapeChar (c : Char) : List Char :=
  let n := c.toNat
  if c = '"' then ['\\', '"']
  else if c = '\\' then ['\\', '\\']
  else if n = 10 then ['\\', 'n']
  else if n = 13 then ['\\', 'r']
  else if n = 9 then ['\\', 't']
  else if n = 12 then ['\\', 'f']
  else if n = 8 then ['\\', 'b']
  else if 32 ≤ n ∧ n < 127 then [c]
  else if n < 0x10000 then unitEscape n
  else unitEscape (0xD800 + (n - 0x10000) / 0x400) ++ unitEscape (0xDC00 + (n - 0x10000) % 0x400)

/-- A text between quotes. -/
def quoted (s : String) : String :=
  String.ofList ('"' :: s.toList.flatMap escapeChar ++ ['"'])

/-- The start of a line at the given depth. -/
def newline (depth : Nat) : String :=
  String.ofList ('\n' :: List.replicate (2 * depth) ' ')

/-- Rendered members between a pair of brackets, each on a line of its own. -/
def enclosed (opening closing : String) (depth : Nat) (members : List String) : String :=
  if members.isEmpty then opening ++ closing
  else opening ++ newline (depth + 1) ++ ("," ++ newline (depth + 1)).intercalate members ++
    newline depth ++ closing

mutual

/-- The text of a document at the given depth. -/
def renderAt (depth : Nat) : Document → String
  | null => "null"
  | bool b => if b then "true" else "false"
  | int i => Number.integerText i
  | text s => quoted s
  | array items => enclosed "[" "]" depth (renderItems (depth + 1) items)
  | object fields => enclosed "\x7b" "\x7d" depth (renderFields (depth + 1) fields)

/-- The texts of the members of an array. -/
def renderItems (depth : Nat) : List Document → List String
  | [] => []
  | d :: ds => renderAt depth d :: renderItems depth ds

/-- The texts of the fields of an object. -/
def renderFields (depth : Nat) : List (String × Document) → List String
  | [] => []
  | (name, d) :: fs => (quoted name ++ ": " ++ renderAt depth d) :: renderFields depth fs

end

/-- The text of a document. -/
def render (d : Document) : String := renderAt 0 d

/-- A natural number. -/
def nat (n : Nat) : Document := int n

/-- A text that may be missing. -/
def optional : Option String → Document
  | some s => text s
  | none => null

/-- A row of texts. -/
def texts (ss : List String) : Document := array (ss.map text)

end Document
end SceneReader
