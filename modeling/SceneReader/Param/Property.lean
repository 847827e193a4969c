import SceneReader.Value
import SceneReader.Token.Basic

/-!
# Properties

A property is the value of a parameter: one or more numbers, integers, texts or truth
values, all of one kind.  The declared type of a parameter decides the kind, for some
types together with the tokens that stand for the values.  A token that does not fit
the kind is replaced by zero or false, after the caller was told.

**Results.**
* `buildProperty_kind`: what is built has the kind that `kindFor` names.
-/

namespace SceneReader

/-- A list with at least one member. -/
structure OneOrMore (α : Type) where
  head : α
  tail : List α
deriving BEq

namespace OneOrMore

variable {α β : Type}

/-- All members in order. -/
def toList (xs : OneOrMore α) : List α := xs.head :: xs.tail

/-- A list that has a member. -/
def ofList? : List α → Option (OneOrMore α)
  | [] => none
  | a :: as => some ⟨a, as⟩

/-- The number of members. -/
def length (xs : OneOrMore α) : Nat := xs.tail.length + 1

/-- Every member changed by a step. -/
def mapM {m : Type → Type} [Monad m] (f : α → m β) (xs : OneOrMore α) : m (OneOrMore β) := do
  let head ← f xs.head
  let tail ← xs.tail.mapM f
  pure ⟨head, tail⟩

/-- Every member changed by a function. -/
def map (f : α → β) (xs : OneOrMore α) : OneOrMore β := ⟨f xs.head, xs.tail.map f⟩

end OneOrMore

/-- The kinds of properties. -/
inductive PropertyKind where
  | floats
  | ints
  | strings
  | bools
deriving DecidableEq

/-- The word for a kind. -/
def PropertyKind.text : PropertyKind → String
  | floats => "floats"
  | ints => "ints"
  | strings => "strings"
  | bools => "bools"

/-- The value of a parameter. -/
inductive Property where
  | floats (values : OneOrMore Float)
  | ints (values : OneOrMore Int)
  | strings (values : OneOrMore String)
  | bools (values : OneOrMore Bool)
deriving BEq

/-- Why values make no property. -/
inductive PropertyFault where
  | empty (kind : PropertyKind)
  | unfit (kind : PropertyKind) (value : Value)

/-- The message of a refused property. -/
def PropertyFault.message : PropertyFault → String
  | empty kind => kind.text ++ " property must have at least one value"
  | unfit kind value =>
      kind.text ++ " property cannot hold " ++ value.typeName ++ " value " ++ value.text

namespace Property

/-- The kind of a property. -/
def kind : Property → PropertyKind
  | floats _ => .floats
  | ints _ => .ints
  | strings _ => .strings
  | bools _ => .bools

/-- The number of values. -/
def length : Property → Nat
  | floats xs => xs.length
  | ints xs => xs.length
  | strings xs => xs.length
  | bools xs => xs.length

/-- The first value alone. -/
def first : Property → Property
  | floats xs => floats ⟨xs.head, []⟩
  | ints xs => ints ⟨xs.head, []⟩
  | strings xs => strings ⟨xs.head, []⟩
  | bools xs => bools ⟨xs.head, []⟩

/-- The last value alone. -/
def last : Property → Property
  | floats xs => floats ⟨xs.tail.getLastD xs.head, []⟩
  | ints xs => ints ⟨xs.tail.getLastD xs.head, []⟩
  | strings xs => strings ⟨xs.tail.getLastD xs.head, []⟩
  | bools xs => bools ⟨xs.tail.getLastD xs.head, []⟩

/-- The property of one text. -/
def ofString (s : String) : Property := strings ⟨s, []⟩

/-- The first text of a property of texts. -/
def firstString? : Property → Option String
  | strings xs => some xs.head
  | _ => none

/-- The property of the given values, each of which must be of the kind's own type: a
truth value is no integer, and an integer no floating point number. -/
def ofValues (kind : PropertyKind) (values : List Value) : Except PropertyFault Property :=
  match OneOrMore.ofList? values with
  | none => .error (.empty kind)
  | some vs =>
      match kind with
      | .floats => floats <$> vs.mapM fun
          | .float x => .ok x
          | v => .error (.unfit kind v)
      | .ints => ints <$> vs.mapM fun
          | .int i => .ok i
          | v => .error (.unfit kind v)
      | .strings => strings <$> vs.mapM fun
          | .string s => .ok s
          | v => .error (.unfit kind v)
      | .bools => bools <$> vs.mapM fun
          | .bool b => .ok b
          | v => .error (.unfit kind v)

end Property

/-- What a value token should have been. -/
inductive Expectation where
  | number
  | integer
  | bool
deriving DecidableEq

/-- The word for an expectation. -/
def Expectation.text : Expectation → String
  | number => "number"
  | integer => "integer"
  | bool => "bool"

/-- The truth value of a token: a name or a string that is a word for one. -/
def Token.bool? (t : Token) : Option Bool :=
  match t.kind with
  | .string s => boolWord? s
  | .identifier => boolWord? t.lexeme
  | _ => none

/-- The integer of a token: a number without fraction. -/
def Token.integer? (t : Token) : Option Int :=
  t.number?.bind Number.integer?

/-- The text of a token: the contents of a string, or else its source text. -/
def Token.asText (t : Token) : String :=
  t.string?.getD t.lexeme

/-- The kind of a value with no declared type goes by its first token. -/
def untypedKind (first : Token) : PropertyKind :=
  match first.kind with
  | .string _ => .strings
  | .identifier => if (boolWord? first.lexeme).isSome then .bools else .floats
  | _ => .floats

/-- The kind of property for a declared type and its value tokens.  A spectrum is a row
of numbers or names something. -/
def kindFor (type : String) (values : OneOrMore Token) : PropertyKind :=
  if type = "spectrum" then
    if values.toList.all (fun t => t.number?.isSome) then .floats else .strings
  else if type = "string" ∨ type = "texture" then .strings
  else if type = "bool" then .bools
  else if type = "integer" then .ints
  else if type = "" then untypedKind values.head
  else .floats

section Build

variable {m : Type → Type} [Monad m]

/-- The value of a token, or a substitute for it after the caller was told. -/
def valueOr {α : Type} (misfit : Expectation → Token → m Unit) (expected : Expectation)
    (substitute : α) (read? : Token → Option α) (t : Token) : m α :=
  match read? t with
  | some a => pure a
  | none => do
      misfit expected t
      pure substitute

/-- The property that a row of value tokens stands for.  `misfit` is told of each token
that does not fit, in order. -/
def buildProperty (misfit : Expectation → Token → m Unit) (type : String)
    (values : OneOrMore Token) : m Property :=
  match kindFor type values with
  | .strings => pure (.strings (values.map Token.asText))
  | .bools => do
      let bs ← values.mapM (valueOr misfit .bool false Token.bool?)
      pure (.bools bs)
  | .ints => do
      let is ← values.mapM (valueOr misfit .integer 0 Token.integer?)
      pure (.ints is)
  | .floats => do
      let xs ← values.mapM (valueOr misfit .number 0.0 Token.number?)
      pure (.floats xs)

/-- What is built, where nothing can go wrong, has the kind of the declared type. -/
theorem buildProperty_kind (type : String) (values : OneOrMore Token) :
    (Id.run (buildProperty (fun _ _ => pure ()) type values)).kind = kindFor type values := by
  unfold buildProperty
  split <;> simp_all [Property.kind]

end Build
end SceneReader
