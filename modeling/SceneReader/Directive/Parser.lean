import SceneReader.Diagnostic.Reported
import SceneReader.Directive.Basic
import SceneReader.Text.Lines

/-!
# The directive grammar

A text is a row of directives: a name, the arguments that the name asks for and, for
some, a list of parameters.  A parameter is declared by a string of one or two words and
has one literal or a bracketed list of tokens as its value.  Values that do not fit the
declared type are replaced with a warning, or are errors in strict reading.

The functions take the tokens that are left and return those that they leave.

**Results.**
* `length_takeValues_lt`: the value of a parameter takes at least one token.
* `length_args_le`, `length_params_le`: arguments and parameters give no token back.
-/

namespace SceneReader
namespace Parser

/-- What the parser is told beside the tokens. -/
structure Context where
  /-- The lines to quote, if the text is at hand. -/
  lines : Option (List String)
  /-- Values that do not fit are errors. -/
  strict : Bool

/-- The context of a text that may or may not be at hand. -/
def Context.ofSource (source : Option String) (strict : Bool) : Context :=
  ⟨source.map Text.splitLines, strict⟩

/-- The line to quote for a token. -/
def Context.lineOf (ctx : Context) (t : Token) : Option String :=
  ctx.lines.bind (fun ls => Text.lineAt? ls t.span.start.line)

/-- A fault about a token, with its line. -/
def Context.error (ctx : Context) (f : Fault) (t : Token) : SceneError :=
  ⟨f, t.span, ctx.lineOf t⟩

/-- The fault of not finding what was expected.  The end of the input is shown without
a line. -/
def Context.expected (ctx : Context) (what : String) : List Token → SceneError
  | [] => .unplaced (.unexpectedEnd what)
  | t :: _ =>
      if t.isEnd then ⟨.unexpectedEnd what, t.span, none⟩
      else ctx.error (.unexpectedToken what t.describe) t

/-- The place after a token. -/
def stopOf (t : Token) : Position := t.span.stop

/-- What a rule of the grammar reads: its value, the place after its last token, and the
tokens that follow. -/
structure Parsed (α : Type) where
  value : α
  stop : Position
  rest : List Token

/-! ## Arguments -/

/-- Number tokens at the front, `count` of them at most. -/
def takeNumbers : Nat → Position → List Token → Parsed (List Argument)
  | 0, stop, ts => ⟨[], stop, ts⟩
  | _ + 1, stop, [] => ⟨[], stop, []⟩
  | count + 1, stop, t :: ts =>
      match t.number? with
      | none => ⟨[], stop, t :: ts⟩
      | some x =>
          let p := takeNumbers count (stopOf t) ts
          ⟨.number x :: p.value, p.stop, p.rest⟩

theorem length_takeNumbers_le (count : Nat) (stop : Position) (ts : List Token) :
    (takeNumbers count stop ts).rest.length ≤ ts.length := by
  induction count generalizing stop ts with
  | zero => exact Nat.le_refl _
  | succ count ih =>
      cases ts with
      | nil => exact Nat.le_refl _
      | cons t ts =>
          unfold takeNumbers
          split
          · exact Nat.le_refl _
          · exact Nat.le_succ_of_le (ih (stopOf t) ts)

/-- The fault of a directive whose arguments are not of its shape. -/
def Context.wrongArguments (ctx : Context) (directive : Token) (expected : String) :
    SceneError :=
  ctx.error (.wrongArguments directive.lexeme expected) directive

/-- Exactly `count` numbers. -/
def numbers (ctx : Context) (directive : Token) (count : Nat) (ts : List Token) :
    Except SceneError (Parsed (List Argument)) :=
  let p := takeNumbers count (stopOf directive) ts
  if p.value.length = count then .ok p
  else .error (ctx.wrongArguments directive (toString count ++ " numbers"))

/-- A right bracket, and the place after it. -/
def rightBracket? : List Token → Option (Position × List Token)
  | [] => none
  | t :: ts =>
      match t.kind with
      | .rightBracket => some (stopOf t, ts)
      | _ => none

/-- Sixteen numbers, between brackets or bare. -/
def matrix (ctx : Context) (directive : Token) (ts : List Token) :
    Except SceneError (Parsed (List Argument)) :=
  let sixteen (p : Parsed (List Argument)) : Except SceneError (Parsed (List Argument)) :=
    if p.value.length = 16 then .ok p
    else .error (ctx.wrongArguments directive
      ("16 numbers, got " ++ toString p.value.length))
  match ts with
  | [] => sixteen ⟨[], stopOf directive, []⟩
  | t :: rest =>
      match t.kind with
      | .leftBracket =>
          let p := takeNumbers rest.length (stopOf t) rest
          match rightBracket? p.rest with
          | some (stop, after) => sixteen ⟨p.value, stop, after⟩
          | none => .error (ctx.wrongArguments directive "a list of 16 numbers")
      | _ => sixteen (takeNumbers 16 (stopOf directive) (t :: rest))

/-- One of the bare keywords for the halves of the transform. -/
def keyword (ctx : Context) (directive : Token) (ts : List Token) :
    Except SceneError (Parsed (List Argument)) :=
  let refuse := ctx.wrongArguments directive
    ("one of " ++ ", ".intercalate activeKeywords)
  match ts with
  | [] => .error refuse
  | t :: rest =>
      match t.identifier? with
      | some word =>
          if word ∈ activeKeywords then .ok ⟨[.text word], stopOf t, rest⟩ else .error refuse
      | none => .error refuse

/-- String tokens at the front, `count` of them at most. -/
def takeStrings : Nat → Position → List Token → Parsed (List Argument)
  | 0, stop, ts => ⟨[], stop, ts⟩
  | _ + 1, stop, [] => ⟨[], stop, []⟩
  | count + 1, stop, t :: ts =>
      match t.string? with
      | none => ⟨[], stop, t :: ts⟩
      | some s =>
          let p := takeStrings count (stopOf t) ts
          ⟨.text s :: p.value, p.stop, p.rest⟩

/-- Strings, at least `least` and at most `most` of them. -/
def strings (ctx : Context) (directive : Token) (least most : Nat) (expected : String)
    (ts : List Token) : Except SceneError (Parsed (List Argument)) :=
  let p := takeStrings most (stopOf directive) ts
  if least ≤ p.value.length then .ok p
  else .error (ctx.wrongArguments directive expected)

/-- The positional arguments of a shape. -/
def arguments (ctx : Context) (directive : Token) (shape : ArgShape) (ts : List Token) :
    Except SceneError (Parsed (List Argument)) :=
  match shape with
  | .nothing => .ok ⟨[], stopOf directive, ts⟩
  | .numbers count => numbers ctx directive count ts
  | .matrix => matrix ctx directive ts
  | .keyword => keyword ctx directive ts
  | .name => strings ctx directive 1 1 "a quoted name" ts
  | .oneOrTwoNames => strings ctx directive 1 2 "one or two quoted names" ts
  | .named => strings ctx directive 1 1 "a quoted type name" ts
  | .texture => strings ctx directive 3 3 "quoted name, type and class" ts

/-! ## Parameters -/

/-- Value tokens up to the closing bracket. -/
def bracketedValues (ctx : Context) (key : String) :
    List Token → Except SceneError (Parsed (List Token))
  | [] => .error (ctx.expected ("']' closing the values of '" ++ key ++ "'") [])
  | t :: ts =>
      match t.kind with
      | .rightBracket => .ok ⟨[], stopOf t, ts⟩
      | .endOfInput =>
          .error (ctx.expected ("']' closing the values of '" ++ key ++ "'") (t :: ts))
      | .leftBracket => .error (ctx.expected "a value" (t :: ts))
      | _ => (bracketedValues ctx key ts).map (fun p => ⟨t :: p.value, p.stop, p.rest⟩)

/-- A token that is a value by itself. -/
def isLiteral (t : Token) : Bool :=
  match t.kind with
  | .number _ => true
  | .string _ => true
  | .malformedNumber => true
  | .identifier => (boolWord? t.lexeme).isSome
  | _ => false

/-- The value tokens of the parameter with the given declaration: one literal, or a
bracketed list that is not empty. -/
def takeValues (ctx : Context) (key : String) (declaration : Token) (ts : List Token) :
    Except SceneError (Parsed (OneOrMore Token)) :=
  let refuse := ctx.expected ("a value for parameter '" ++ key ++ "'") ts
  match ts with
  | [] => .error refuse
  | t :: rest =>
      match t.kind with
      | .leftBracket =>
          match bracketedValues ctx key rest with
          | .error e => .error e
          | .ok p =>
              match OneOrMore.ofList? p.value with
              | some values => .ok ⟨values, p.stop, p.rest⟩
              | none => .error (ctx.error (.emptyParameter key) declaration)
      | _ => if isLiteral t then .ok ⟨⟨t, []⟩, stopOf t, rest⟩ else .error refuse

theorem length_bracketedValues_lt {ctx : Context} {key : String} {ts : List Token}
    {p : Parsed (List Token)} (h : bracketedValues ctx key ts = .ok p) :
    p.rest.length < ts.length := by
  induction ts generalizing p with
  | nil => simp [bracketedValues] at h
  | cons t ts ih =>
      unfold bracketedValues at h
      split at h
      · cases h
        simp
      · cases h
      · cases h
      · cases hb : bracketedValues ctx key ts with
        | error e => simp [hb, Except.map] at h
        | ok q =>
            simp only [hb, Except.map, Except.ok.injEq] at h
            subst h
            have hlt : q.rest.length < ts.length := ih hb
            exact Nat.lt_succ_of_lt hlt

theorem length_takeValues_lt {ctx : Context} {key : String} {declaration : Token}
    {ts : List Token} {p : Parsed (OneOrMore Token)}
    (h : takeValues ctx key declaration ts = .ok p) : p.rest.length < ts.length := by
  unfold takeValues at h
  split at h
  · cases h
  · split at h
    · split at h
      · cases h
      · rename_i hb
        split at h
        · cases h
          exact Nat.lt_succ_of_lt (length_bracketedValues_lt hb)
        · cases h
    · split at h
      · cases h
        simp
      · cases h

/-- What happens to a value token that does not fit: an error in strict reading, or else
a warning about the substitute. -/
def misfit (ctx : Context) (key : String) (expected : Expectation) (t : Token) :
    Reported SceneError Unit :=
  if ctx.strict then .fail (ctx.error (.malformedValue key t.lexeme expected.text) t)
  else
    let caution : Caution := match expected with
      | .bool => .malformedBool key t.lexeme
      | _ => .malformedNumber key t.lexeme
    .note (caution.diagnostic t.span (ctx.lineOf t))

/-- Type and name of a declaration: a name, or a type and a name. -/
def declaration? (text : String) : Option (String × String) :=
  match Text.words text with
  | [name] => some ("", name)
  | [type, name] => some (type, name)
  | _ => none

/-- Parameters up to the next token that is no string, after those already read. -/
def parameters (ctx : Context) (params : ParamMap) (stop : Position) :
    List Token → Reported SceneError (Parsed ParamMap)
  | [] => pure ⟨params, stop, []⟩
  | t :: ts =>
      match t.string? with
      | none => pure ⟨params, stop, t :: ts⟩
      | some text =>
          match declaration? text with
          | none => .fail (ctx.error (.badDeclaration text) t)
          | some (type, name) =>
              let key := makeKey type name
              if (params.lookup? name).isSome then
                .fail (ctx.error (.duplicateParameter key) t)
              else
                match hv : takeValues ctx key t ts with
                | .error e => .fail e
                | .ok p =>
                    have : p.rest.length < ts.length := length_takeValues_lt hv
                    buildProperty (misfit ctx key) type p.value >>= fun value =>
                      parameters ctx (params.set ⟨type, name, value⟩) p.stop p.rest
  termination_by ts => ts.length

/-! ## Directives -/

/-- The parameters that a shape has. -/
def parametersOf (ctx : Context) (shape : ArgShape) (stop : Position) (ts : List Token) :
    Reported SceneError (Parsed ParamMap) :=
  match shape with
  | .named => parameters ctx .empty stop ts
  | .texture => parameters ctx .empty stop ts
  | _ => pure ⟨.empty, stop, ts⟩

/-- The name that starts a directive. -/
def directiveName (ctx : Context) : List Token → Except SceneError (DirectiveName × Token)
  | [] => .error (ctx.expected "a directive name" [])
  | t :: ts =>
      match t.identifier? with
      | none => .error (ctx.expected "a directive name" (t :: ts))
      | some word =>
          match DirectiveName.ofText? word with
          | none => .error (ctx.error (.unknownDirective word) t)
          | some name => .ok (name, t)

/-- One directive. -/
def directive (ctx : Context) (ts : List Token) : Reported SceneError (Parsed Directive) :=
  match directiveName ctx ts with
  | .error e => .fail e
  | .ok (name, t) =>
      match arguments ctx t name.signature ts.tail with
      | .error e => .fail e
      | .ok args =>
          parametersOf ctx name.signature args.stop args.rest >>= fun params =>
            pure ⟨⟨name, args.value, params.value, some ⟨t.span.file, t.span.start, params.stop⟩⟩,
              params.stop, params.rest⟩

theorem length_numbers_le {ctx : Context} {t : Token} {count : Nat} {ts : List Token}
    {p : Parsed (List Argument)} (h : numbers ctx t count ts = .ok p) :
    p.rest.length ≤ ts.length := by
  unfold numbers at h
  dsimp only at h
  split at h
  · cases h
    exact length_takeNumbers_le _ _ _
  · cases h

theorem length_rightBracket_lt {ts after : List Token} {stop : Position}
    (h : rightBracket? ts = some (stop, after)) : after.length < ts.length := by
  cases ts with
  | nil => cases h
  | cons t ts =>
      unfold rightBracket? at h
      dsimp only at h
      split at h
      · cases h
        exact Nat.lt_succ_self _
      · cases h

theorem length_matrix_le {ctx : Context} {t : Token} {ts : List Token}
    {p : Parsed (List Argument)} (h : matrix ctx t ts = .ok p) :
    p.rest.length ≤ ts.length := by
  unfold matrix at h
  dsimp only at h
  split at h
  · split at h
    · cases h
      exact Nat.le_refl _
    · cases h
  · rename_i u rest
    split at h
    · have hn := length_takeNumbers_le rest.length (stopOf u) rest
      split at h
      · rename_i stop after hb
        have hl := length_rightBracket_lt hb
        split at h
        · cases h
          simp only [List.length_cons]
          omega
        · cases h
      · cases h
    · split at h
      · cases h
        exact length_takeNumbers_le _ _ _
      · cases h

theorem length_keyword_le {ctx : Context} {t : Token} {ts : List Token}
    {p : Parsed (List Argument)} (h : keyword ctx t ts = .ok p) :
    p.rest.length ≤ ts.length := by
  unfold keyword at h
  dsimp only at h
  split at h
  · cases h
  · split at h
    · split at h
      · cases h
        simp
      · cases h
    · cases h

theorem length_takeStrings_le (count : Nat) (stop : Position) (ts : List Token) :
    (takeStrings count stop ts).rest.length ≤ ts.length := by
  induction count generalizing stop ts with
  | zero => exact Nat.le_refl _
  | succ count ih =>
      cases ts with
      | nil => exact Nat.le_refl _
      | cons t ts =>
          unfold takeStrings
          split
          · exact Nat.le_refl _
          · exact Nat.le_succ_of_le (ih (stopOf t) ts)

theorem length_strings_le {ctx : Context} {t : Token} {least most : Nat} {expected : String}
    {ts : List Token} {p : Parsed (List Argument)}
    (h : strings ctx t least most expected ts = .ok p) : p.rest.length ≤ ts.length := by
  unfold strings at h
  dsimp only at h
  split at h
  · cases h
    exact length_takeStrings_le _ _ _
  · cases h

/-- Arguments give no token back. -/
theorem length_args_le {ctx : Context} {t : Token} {shape : ArgShape} {ts : List Token}
    {p : Parsed (List Argument)} (h : arguments ctx t shape ts = .ok p) :
    p.rest.length ≤ ts.length := by
  unfold arguments at h
  split at h
  · cases h
    exact Nat.le_refl _
  · exact length_numbers_le h
  · exact length_matrix_le h
  · exact length_keyword_le h
  all_goals exact length_strings_le h

/-- Parameters give no token back. -/
theorem length_params_le {ctx : Context} {params : ParamMap} {stop : Position}
    {ts : List Token} {p : Parsed ParamMap}
    (h : (parameters ctx params stop ts).result = .ok p) : p.rest.length ≤ ts.length := by
  fun_induction parameters ctx params stop ts with
  | case1 params stop =>
      cases h
      exact Nat.le_refl _
  | case2 params stop t ts hs =>
      cases h
      exact Nat.le_refl _
  | case3 => cases h
  | case4 => cases h
  | case5 => cases h
  | case6 params stop t ts text hs type name hd key hk q hv hlt ih =>
      cases hb : (buildProperty (misfit ctx key) type q.value).result with
      | error e =>
          rw [Reported.bind_of_error hb] at h
          cases h
      | ok value =>
          rw [Reported.result_bind hb] at h
          have := ih value h
          simp only [List.length_cons]
          omega

theorem length_parametersOf_le {ctx : Context} {shape : ArgShape} {stop : Position}
    {ts : List Token} {p : Parsed ParamMap}
    (h : (parametersOf ctx shape stop ts).result = .ok p) : p.rest.length ≤ ts.length := by
  unfold parametersOf at h
  split at h
  · exact length_params_le h
  · exact length_params_le h
  · cases h
    exact Nat.le_refl _

/-- A directive takes at least its name. -/
theorem length_directive_lt {ctx : Context} {ts : List Token} {p : Parsed Directive}
    (h : (directive ctx ts).result = .ok p) : p.rest.length < ts.length := by
  unfold directive at h
  split at h
  · cases h
  · rename_i name t hn
    split at h
    · cases h
    · rename_i args ha
      cases hp : (parametersOf ctx name.signature args.stop args.rest).result with
      | error e =>
          rw [Reported.bind_of_error hp] at h
          cases h
      | ok params =>
          rw [Reported.result_bind hp] at h
          cases h
          have h1 := length_args_le ha
          have h2 := length_parametersOf_le hp
          cases ts with
          | nil => simp [directiveName] at hn
          | cons u us =>
              simp only [List.tail_cons] at h1
              simp only [List.length_cons]
              omega

/-! ## Whole texts -/

/-- The directives of a text up to its end or to the first error, with what was reported. -/
structure Reading where
  directives : List Directive
  notes : Diagnostics
  error : Option SceneError

/-- No more tokens, or the token for that. -/
def atEnd : List Token → Bool
  | [] => true
  | t :: _ => t.isEnd

/-- Reads directives to the end of the input. -/
def read (ctx : Context) (ts : List Token) : Reading :=
  if atEnd ts then ⟨[], [], none⟩
  else
    let d := directive ctx ts
    match hd : d.result with
    | .error e => ⟨[], d.notes, some e⟩
    | .ok p =>
        have : p.rest.length < ts.length := length_directive_lt hd
        let r := read ctx p.rest
        ⟨p.value :: r.directives, d.notes ++ r.notes, r.error⟩
  termination_by ts.length

/-- All directives of a text. -/
def parse (ctx : Context) (ts : List Token) : Reported SceneError (List Directive) :=
  let r := read ctx ts
  ⟨r.notes, match r.error with
    | some e => .error e
    | none => .ok r.directives⟩

end Parser
end SceneReader
