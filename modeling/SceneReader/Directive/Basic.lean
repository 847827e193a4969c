import SceneReader.Directive.Name
import SceneReader.Number.Reading
import SceneReader.Param.Map
import SceneReader.Text.Naming

/-!
# Directives and how they are written

A directive has a name, positional arguments and parameters.  It is written on one line:
numbers bare, texts in double quotes, a matrix and every parameter value between
brackets.  Long value lists may be cut to their first three items.
-/

namespace SceneReader

/-- A positional argument. -/
inductive Argument where
  | number (x : Float)
  | text (s : String)

/-- One step of a scene description. -/
structure Directive where
  name : DirectiveName
  args : List Argument
  params : ParamMap
  /-- Where the directive was read. -/
  span : Option Span

/-- A text without the point and zero of an integral number at its end. -/
def dropPointZero (s : String) : String :=
  match s.toList.reverse with
  | '0' :: '.' :: cs => String.ofList cs.reverse
  | _ => s

/-- A number in scene text: the shortest digits, and no point after an integral one. -/
def numberText (x : Float) : String :=
  dropPointZero (Number.exactText x)

/-- Items between brackets. -/
def bracketed (items : List String) : String :=
  "[ " ++ " ".intercalate items ++ " ]"

namespace Argument

/-- An argument as most directives write it. -/
def quotedText : Argument → String
  | number x => numberText x
  | text s => Text.quote s

/-- An argument as an entry of a matrix. -/
def entryText : Argument → String
  | number x => numberText x
  | text s => ((Number.ofText? s).map numberText).getD s

/-- An argument as a bare keyword. -/
def bareText : Argument → String
  | number x => Number.exactText x
  | text s => s

end Argument

/-- The word that stands for a truth value. -/
def boolText (b : Bool) : String := if b then "true" else "false"

/-- The items of a property in scene text. -/
def Property.items : Property → List String
  | .floats xs => xs.toList.map numberText
  | .ints is => is.toList.map Number.integerText
  | .strings ss => ss.toList.map Text.quote
  | .bools bs => bs.toList.map (fun b => Text.quote (boolText b))

/-- A list longer than the limit, if there is one, cut to three items and its length. -/
def abbreviate (limit : Option Int) (items : List String) : List String :=
  match limit with
  | none => items
  | some n =>
      if n < items.length then
        items.take 3 ++ ["... (" ++ toString items.length ++ " values)"]
      else items

namespace Directive

/-- The positional arguments in scene text. -/
def argTexts (d : Directive) : List String :=
  match d.name.signature with
  | .matrix => [bracketed (d.args.map Argument.entryText)]
  | .keyword => d.args.map Argument.bareText
  | _ => d.args.map Argument.quotedText

/-- One parameter in scene text: its key and its values. -/
def paramTexts (limit : Option Int) (p : Param) : List String :=
  [Text.quote p.key, bracketed (abbreviate limit p.value.items)]

/-- The directive in scene text; value lists longer than the limit are cut. -/
def format (d : Directive) (limit : Option Int) : String :=
  " ".intercalate (d.name.text :: d.argTexts ++ d.params.entries.flatMap (paramTexts limit))

end Directive
end SceneReader
