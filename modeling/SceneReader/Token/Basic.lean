import SceneReader.Number.Shortest
import SceneReader.Source.Position
import SceneReader.Text.Literal

/-!
# Tokens

A token is a stretch of scene text together with what it stands for.  A word that looks
like a number and is none is a token of its own kind, so that whoever needs the number
can decide what to do.
-/

namespace SceneReader

/-- What a token is. -/
inductive TokenKind where
  | number (value : Float)
  | malformedNumber
  | string (value : String)
  | identifier
  | leftBracket
  | rightBracket
  | endOfInput

/-- A token: its kind, its source text and its place. -/
structure Token where
  kind : TokenKind
  lexeme : String
  span : Span

namespace TokenKind

/-- The name of a kind. -/
def name : TokenKind → String
  | number _ => "NUMBER"
  | malformedNumber => "MALFORMED_NUMBER"
  | string _ => "STRING"
  | identifier => "IDENTIFIER"
  | leftBracket => "LBRACKET"
  | rightBracket => "RBRACKET"
  | endOfInput => "EOF"

end TokenKind

namespace Token

/-- The token is the end of the input. -/
def isEnd (t : Token) : Bool :=
  match t.kind with
  | .endOfInput => true
  | _ => false

/-- The value of a number token. -/
def number? (t : Token) : Option Float :=
  match t.kind with
  | .number x => some x
  | _ => none

/-- The value of a string token. -/
def string? (t : Token) : Option String :=
  match t.kind with
  | .string s => some s
  | _ => none

/-- The name that an identifier token is. -/
def identifier? (t : Token) : Option String :=
  match t.kind with
  | .identifier => some t.lexeme
  | _ => none

theorem isEnd_iff {t : Token} : t.isEnd = true ↔ t.kind = .endOfInput := by
  unfold isEnd
  cases t.kind <;> simp

theorem number?_eq_some_iff {t : Token} {x : Float} :
    t.number? = some x ↔ t.kind = .number x := by
  unfold number?
  cases t.kind <;> simp

theorem string?_eq_some_iff {t : Token} {s : String} :
    t.string? = some s ↔ t.kind = .string s := by
  unfold string?
  cases t.kind <;> simp

theorem identifier?_eq_some_iff {t : Token} {word : String} :
    t.identifier? = some word ↔ t.kind = .identifier ∧ t.lexeme = word := by
  unfold identifier?
  cases t.kind <;> simp

/-- A token as it appears in messages. -/
def describe (t : Token) : String :=
  match t.kind with
  | .endOfInput => "end of input"
  | .string s => "string \"" ++ s ++ "\""
  | _ => "'" ++ t.lexeme ++ "'"

/-- A token with its kind and its value. -/
def text (t : Token) : String :=
  match t.kind with
  | .number x => t.kind.name ++ "(" ++ Number.exactText x ++ ")"
  | .string s => t.kind.name ++ "(" ++ Text.literal s ++ ")"
  | .identifier => t.kind.name ++ "(" ++ Text.literal t.lexeme ++ ")"
  | .malformedNumber => t.kind.name ++ "(" ++ Text.literal t.lexeme ++ ")"
  | _ => t.kind.name

end Token

/-- The truth value that a word stands for, in any mixture of capitals. -/
def boolWord? (s : String) : Option Bool :=
  let word := s.toList.map Char.toLower
  if word = ['t', 'r', 'u', 'e'] then some true
  else if word = ['f', 'a', 'l', 's', 'e'] then some false
  else none

end SceneReader
