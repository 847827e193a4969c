import SceneReader.Number.Shortest
import SceneReader.Text.Literal

/-!
# Values without a declared type

Options and parameter values that come from outside may be of any of these types.  They
are checked before they are used, and a refusal names the type of what was given.
-/

namespace SceneReader

/-- A value of some type. -/
inductive Value where
  | none
  | bool (b : Bool)
  | int (i : Int)
  | float (x : Float)
  | string (s : String)
  | list
  | mapping
  /-- A day, of which only the type matters. -/
  | date
  /-- A point in time, of which only the type matters. -/
  | dateTime

namespace Value

/-- The name of a value's type. -/
def typeName : Value → String
  | none => "NoneType"
  | bool _ => "bool"
  | int _ => "int"
  | float _ => "float"
  | string _ => "str"
  | list => "list"
  | mapping => "dict"
  | date => "date"
  | dateTime => "datetime"

/-- A value as messages show it. -/
def text : Value → String
  | none => "None"
  | bool b => if b then "True" else "False"
  | int i => Number.integerText i
  | float x => Number.exactText x
  | string s => Text.literal s
  | list => "[]"
  | mapping => "\x7b\x7d"
  | date => "date"
  | dateTime => "datetime"

end Value
end SceneReader
