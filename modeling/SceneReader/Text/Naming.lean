import SceneReader.Text.Blank
import SceneReader.Text.LetterCase

/-!
# Spellings of names

Names of several words come joined by capitals (`upperCamel`) or by underscores
(`snakeCase`).
-/

namespace SceneReader
namespace Text

/-- An underscore before every ASCII capital. -/
def separateCapitals : List Char → List Char
  | [] => []
  | c :: cs => if c.isUpper then '_' :: c :: separateCapitals cs else c :: separateCapitals cs

/-- A name in small letters, an underscore before each capital but a first one. -/
def snakeCase (s : String) : String :=
  match s.toList with
  | [] => ""
  | c :: cs => lower (String.ofList (c :: separateCapitals cs))

/-- Characters that separate the words of a name. -/
def separatesWords (c : Char) : Bool :=
  c == '_' || c == '-' || isBlank c

/-- A name with its words joined, each word with a capital first; `inWord` says that a
word is open. -/
def upperCamelFrom (inWord : Bool) : List Char → List Char
  | [] => []
  | c :: cs =>
      if separatesWords c then upperCamelFrom false cs
      else if inWord then c :: upperCamelFrom true cs
      else upperChar c ++ upperCamelFrom true cs

/-- The words of a name joined, each with a capital first. -/
def upperCamel (s : String) : String :=
  String.ofList (upperCamelFrom false s.toList)

/-- A text between double quotes, each double quote in it behind a backslash. -/
def quote (s : String) : String :=
  String.ofList ('"' :: s.toList.flatMap (fun c => if c = '"' then ['\\', '"'] else [c]) ++ ['"'])

end Text
end SceneReader
