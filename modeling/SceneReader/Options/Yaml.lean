import SceneReader.Value

/-!
# Settings in YAML

Option files are YAML documents.  The reader covers block mappings and block sequences,
flow mappings and flow sequences, plain scalars and both kinds of quoted scalars,
comments and document markers.  Plain scalars stand for the null value, truth values,
integers, floating point numbers and times by the rules of version 1.1, and for texts
otherwise.  A lone equals sign stands for a value that no reader makes.

What the reader does not cover, such as anchors, tags and block scalars, it refuses like
broken text.
-/

namespace SceneReader
namespace Yaml

/-- A node of a document.  Below the top only the types of collections matter. -/
inductive Node where
  | scalar (v : Value)
  | sequence
  | mapping (entries : List (Value × Value))

/-- The node as a value. -/
def Node.value : Node → Value
  | scalar v => v
  | sequence => .list
  | mapping _ => .mapping

/-- A place in the text: the column and what follows. -/
structure Cursor where
  column : Nat
  rest : List Char

/-! ## Characters -/

/-- Ends of lines. -/
def isBreak (c : Char) : Bool :=
  c == '\n' || c == '\r' || c.toNat == 0x85 || c.toNat == 0x2028 || c.toNat == 0x2029

/-- Characters that a document may hold. -/
def isAllowed (c : Char) : Bool :=
  let n := c.toNat
  n == 9 || n == 10 || n == 13 || (decide (0x20 ≤ n) && decide (n ≤ 0x7E)) || n == 0x85 ||
    (decide (0xA0 ≤ n) && decide (n ≤ 0xFFFD)) || decide (0x10000 ≤ n)

/-- The text goes on with a blank, or ends. -/
def blankNext : List Char → Bool
  | [] => true
  | c :: _ => c == ' ' || c == '\t' || isBreak c

/-- Brackets and commas of flow collections. -/
def isFlowMark (c : Char) : Bool :=
  c == ',' || c == '[' || c == ']' || c == '{' || c == '}'

/-- Without the spaces at the front. -/
def skipSpaces (cs : List Char) : List Char :=
  cs.dropWhile (· == ' ')

/-- The next token: spaces, comments and ends of lines are skipped. -/
def skipGap (inComment : Bool) (column : Nat) : List Char → Cursor
  | [] => ⟨column, []⟩
  | c :: cs =>
      if isBreak c then skipGap false 0 cs
      else if inComment || c == ' ' then skipGap inComment (column + 1) cs
      else if c == '#' then skipGap true (column + 1) cs
      else ⟨column, c :: cs⟩

/-- A document starts or ends at the front of this line. -/
def atMarker (cur : Cursor) : Bool :=
  cur.column == 0 &&
    match cur.rest with
    | '-' :: '-' :: '-' :: cs => blankNext cs
    | '.' :: '.' :: '.' :: cs => blankNext cs
    | _ => false

/-- An item of a block sequence starts here. -/
def atItem : List Char → Bool
  | '-' :: cs => blankNext cs
  | _ => false

/-! ## Scalars -/

/-- Words for truth values. -/
def boolWords : List (String × Bool) :=
  [("yes", true), ("Yes", true), ("YES", true), ("no", false), ("No", false), ("NO", false),
   ("true", true), ("True", true), ("TRUE", true), ("false", false), ("False", false),
   ("FALSE", false), ("on", true), ("On", true), ("ON", true), ("off", false), ("Off", false),
   ("OFF", false)]

/-- Words for the null value. -/
def nullWords : List String := ["", "~", "null", "Null", "NULL"]

/-- The value of digits in a base, underscores left out. -/
def valueInBase (base : Nat) (cs : List Char) : Nat :=
  (cs.filter (· != '_')).foldl (fun n c =>
    base * n + (if c.isDigit then c.toNat - 48 else c.toLower.toNat - 87)) 0

/-- Digits of a base and underscores. -/
def isDigitOf (base : Nat) (c : Char) : Bool :=
  c == '_' || (c.isDigit && decide (c.toNat - 48 < base)) ||
    (base == 16 && c.isAlphanum && decide (c.toLower.toNat < 103))

/-- Fields between separators; `field` is the current one in reverse. -/
def splitFields (separator : Char) (field : List Char) : List Char → List (List Char)
  | [] => [field.reverse]
  | c :: cs =>
      if c == separator then field.reverse :: splitFields separator [] cs
      else splitFields separator (c :: field) cs

/-- A field of a number to the base sixty after the first one. -/
def isSixtieth (cs : List Char) : Bool :=
  match cs with
  | [a] => a.isDigit
  | [a, b] => a.isDigit && b.isDigit && decide (a.toNat < 54)
  | _ => false

/-- A natural number in one of the notations. -/
def natural? (cs : List Char) : Option Nat :=
  match cs with
  | ['0'] => some 0
  | '0' :: 'b' :: ds => if ds ≠ [] ∧ ds.all (isDigitOf 2) then some (valueInBase 2 ds) else none
  | '0' :: 'x' :: ds => if ds ≠ [] ∧ ds.all (isDigitOf 16) then some (valueInBase 16 ds) else none
  | '0' :: ds => if ds.all (isDigitOf 8) then some (valueInBase 8 ds) else none
  | c :: _ =>
      if !c.isDigit then none
      else match splitFields ':' [] cs with
        | [ds] => if ds.all (isDigitOf 10) then some (valueInBase 10 ds) else none
        | ds :: fields =>
            if ds.all (isDigitOf 10) && fields.all isSixtieth then
              some (fields.foldl (fun n f => 60 * n + valueInBase 10 f) (valueInBase 10 ds))
            else none
        | [] => none
  | [] => none

/-- The sign in front of a number, and the number. -/
def splitSign : List Char → Bool × List Char
  | '-' :: cs => (true, cs)
  | '+' :: cs => (false, cs)
  | cs => (false, cs)

/-- An integer. -/
def integer? (cs : List Char) : Option Int :=
  let (negative, ds) := splitSign cs
  (natural? ds).map (fun n => if negative then -(n : Int) else (n : Int))

/-- An exponent with its sign, or nothing. -/
def isExponent : List Char → Bool
  | [] => true
  | e :: s :: ds =>
      (e == 'e' || e == 'E') && (s == '-' || s == '+') && !ds.isEmpty && ds.all Char.isDigit
  | _ => false

/-- A number with a point. -/
def isFloat (cs : List Char) : Bool :=
  let (_, body) := splitSign cs
  let signed := body.length < cs.length
  let whole := body.takeWhile (fun c => c.isDigit || c == '_' || c == ':')
  match body.drop whole.length with
  | '.' :: rest =>
      let fraction := rest.takeWhile (isDigitOf 10)
      let after := rest.drop fraction.length
      match whole with
      | [] =>
          [".inf", ".Inf", ".INF"].contains (String.ofList body) ||
          (!signed && ([".nan", ".NaN", ".NAN"].contains (String.ofList body) ||
            ((fraction.head?.map Char.isDigit).getD false && isExponent after)))
      | d :: _ =>
          d.isDigit &&
            (match splitFields ':' [] whole with
              | [_] => isExponent after
              | _ :: fields => fields.all isSixtieth && after == []
              | [] => false)
  | _ => false

/-- The number of digits lies between bounds, and there is nothing but digits. -/
def isNumeral (least most : Nat) (cs : List Char) : Bool :=
  decide (least ≤ cs.length) && decide (cs.length ≤ most) && cs.all Char.isDigit

/-- Year, month and day with dashes between; `least` is how many digits month and day have
at the least. -/
def isDate (least : Nat) (cs : List Char) : Bool :=
  match splitFields '-' [] cs with
  | [y, m, d] => isNumeral 4 4 y && isNumeral least 2 m && isNumeral least 2 d
  | _ => false

/-- The offset of a time zone after blanks, or nothing. -/
def isZone (cs : List Char) : Bool :=
  match cs.dropWhile (fun c => c == ' ' || c == '\t') with
  | [] => cs.isEmpty
  | ['Z'] => true
  | sign :: offset =>
      (sign == '-' || sign == '+') &&
        match splitFields ':' [] offset with
        | [h] => isNumeral 1 2 h
        | [h, m] => isNumeral 1 2 h && isNumeral 2 2 m
        | _ => false

/-- Hours, minutes and seconds, perhaps with a fraction and a time zone. -/
def isTime (cs : List Char) : Bool :=
  let clock := cs.takeWhile (fun c => c.isDigit || c == ':')
  match splitFields ':' [] clock, cs.drop clock.length with
  | [h, m, s], rest =>
      isNumeral 1 2 h && isNumeral 2 2 m && isNumeral 2 2 s &&
        isZone (match rest with
          | '.' :: fraction => fraction.dropWhile Char.isDigit
          | _ => rest)
  | _, _ => false

/-- A day and a time on it, with a letter or blanks between. -/
def isDateTime (cs : List Char) : Bool :=
  let day := cs.takeWhile (fun c => c.isDigit || c == '-')
  isDate 1 day &&
    match cs.drop day.length with
    | 'T' :: time => isTime time
    | 't' :: time => isTime time
    | ' ' :: time => isTime (time.dropWhile (fun c => c == ' ' || c == '\t'))
    | '\t' :: time => isTime (time.dropWhile (fun c => c == ' ' || c == '\t'))
    | _ => false

/-- The value of a plain scalar. -/
def plainValue? (cs : List Char) : Option Value :=
  let s := String.ofList cs
  match boolWords.lookup s with
  | some b => some (.bool b)
  | none =>
      if s = "=" then none
      else if nullWords.contains s then some .none
      else match integer? cs with
        | some i => some (.int i)
        | none =>
            if isFloat cs then some (.float 0.0)
            else if isDate 2 cs then some .date
            else if isDateTime cs then some .dateTime
            else some (.string s)

/-- Marks that no plain scalar starts with. -/
def reserved : List Char := ['#', '&', '*', '!', '|', '>', '\'', '"', '%', '@', Char.ofNat 96]

/-- A plain scalar may start with this character. -/
def startsPlain (inFlow : Bool) (c : Char) (cs : List Char) : Bool :=
  if c == ' ' || c == '\t' || isBreak c then false
  else if c == '-' then !blankNext cs
  else if c == '?' || c == ':' then !inFlow && !blankNext cs
  else !(isFlowMark c || reserved.contains c)

/-- The part of a plain scalar on one line.  Spaces at its end are left out. -/
def takePlain (inFlow : Bool) : List Char → List Char × List Char
  | [] => ([], [])
  | c :: cs =>
      let stops := c == '\t' || isBreak c ||
        (c == ':' && (blankNext cs || (inFlow && (cs.head?.map isFlowMark).getD false))) ||
        (inFlow && (isFlowMark c || c == '?'))
      if stops then ([], c :: cs)
      else if c == ' ' && (cs.head?.map (· == '#')).getD true then ([], c :: cs)
      else
        let (piece, rest) := takePlain inFlow cs
        if c == ' ' && piece == [] then ([], c :: cs) else (c :: piece, rest)

/-- The character of a one-letter escape. -/
def escapeOf? (c : Char) : Option Char :=
  [('0', Char.ofNat 0), ('a', Char.ofNat 7), ('b', Char.ofNat 8), ('t', Char.ofNat 9),
   ('\t', Char.ofNat 9), ('n', Char.ofNat 10), ('v', Char.ofNat 11), ('f', Char.ofNat 12),
   ('r', Char.ofNat 13), ('e', Char.ofNat 27), (' ', ' '), ('"', '"'), ('\\', '\\'), ('/', '/'),
   ('N', Char.ofNat 0x85), ('_', Char.ofNat 0xA0), ('L', Char.ofNat 0x2028),
   ('P', Char.ofNat 0x2029)].lookup c

/-- The number of hexadecimal digits of an escape by code point. -/
def escapeWidth? (c : Char) : Option Nat :=
  [('x', 2), ('u', 4), ('U', 8)].lookup c

/-- A quoted scalar. -/
structure Quoted where
  value : List Char
  /-- It runs over the end of a line. -/
  broken : Bool
  rest : List Char

/-- One more character in front of a quoted scalar. -/
def Quoted.cons (c : Char) (q : Quoted) : Quoted :=
  ⟨c :: q.value, q.broken || isBreak c, q.rest⟩

/-- A scalar in single quotes, after the opening one. -/
def takeSingle : List Char → Option Quoted
  | [] => none
  | '\'' :: '\'' :: cs => (takeSingle cs).map (Quoted.cons '\'')
  | '\'' :: cs => some ⟨[], false, cs⟩
  | c :: cs => (takeSingle cs).map (Quoted.cons c)

/-- A scalar in double quotes, after the opening one; `fuel` bounds the characters. -/
def takeDouble : Nat → List Char → Option Quoted
  | 0, _ => none
  | _, [] => none
  | _ + 1, '"' :: cs => some ⟨[], false, cs⟩
  | fuel + 1, '\\' :: c :: cs =>
      match escapeOf? c, escapeWidth? c with
      | some d, _ => (takeDouble fuel cs).map (fun q => { q.cons d with broken := q.broken })
      | none, some width =>
          let ds := cs.take width
          if ds.length = width ∧ ds.all (fun d => d != '_' && isDigitOf 16 d) then
            (takeDouble fuel (cs.drop width)).map
              (fun q => { q.cons (Char.ofNat (valueInBase 16 ds)) with broken := q.broken })
          else none
      | none, none =>
          if isBreak c then
            (takeDouble fuel (skipSpaces cs)).map (fun q => { q with broken := true })
          else none
  | fuel + 1, c :: cs => (takeDouble fuel cs).map (Quoted.cons c)

/-- A quoted scalar of either kind. -/
def takeQuoted? : List Char → Option Quoted
  | '\'' :: cs => takeSingle cs
  | '"' :: cs => takeDouble (cs.length + 1) cs
  | _ => none

/-! ## Flow collections -/

/-- The next token inside a flow collection. -/
def flowGap (cs : List Char) : List Char := (skipGap false 1 cs).rest

/-- The further lines of a plain scalar inside a flow collection. -/
def flowPlainMore : Nat → List Char → List Char → List Char × List Char
  | 0, text, cs => (text, cs)
  | fuel + 1, text, cs =>
      match skipSpaces cs with
      | c :: more =>
          if isBreak c then
            let next := (more.dropWhile (fun d => d == ' ' || isBreak d))
            let (piece, rest) := takePlain true next
            if piece == [] || next.head? == some '#' then (text, cs)
            else flowPlainMore fuel (text ++ ' ' :: piece) rest
          else (text, cs)
      | [] => (text, cs)

mutual

/-- A node inside a flow collection. -/
def flowNode : Nat → List Char → Option (Node × List Char)
  | 0, _ => none
  | _, [] => none
  | fuel + 1, c :: cs =>
      if c == '{' then (flowEntries fuel '}' (flowGap cs)).map (fun r => (.mapping r.1, r.2))
      else if c == '[' then (flowEntries fuel ']' (flowGap cs)).map (fun r => (.sequence, r.2))
      else if c == '"' || c == '\'' then
        (takeQuoted? (c :: cs)).map (fun q => (.scalar (.string (String.ofList q.value)), q.rest))
      else if startsPlain true c cs then
        let (piece, rest) := takePlain true (c :: cs)
        let (text, rest) := flowPlainMore fuel piece rest
        (plainValue? text).map fun v => (.scalar v, rest)
      else none

/-- The entries of a flow collection up to its closing bracket.  A node alone is an entry
without a value. -/
def flowEntries : Nat → Char → List Char → Option (List (Value × Value) × List Char)
  | 0, _, _ => none
  | _, _, [] => none
  | fuel + 1, closing, c :: cs =>
      if c == closing then some ([], cs)
      else
        match flowNode fuel (c :: cs) with
        | none => none
        | some (key, rest) =>
            match flowValue fuel (flowGap rest) with
            | none => none
            | some (value, rest) =>
                match flowGap rest with
                | ',' :: rest =>
                    (flowEntries fuel closing (flowGap rest)).map
                      (fun r => ((key.value, value.value) :: r.1, r.2))
                | d :: rest =>
                    if d == closing then some ([(key.value, value.value)], rest) else none
                | [] => none

/-- The value after a key inside a flow collection. -/
def flowValue : Nat → List Char → Option (Node × List Char)
  | 0, _ => none
  | fuel + 1, ':' :: cs =>
      match flowGap cs with
      | [] => none
      | c :: rest =>
          if c == ',' || c == '}' || c == ']' then some (.scalar .none, c :: rest)
          else flowNode fuel (c :: rest)
  | _ + 1, cs => some (.scalar .none, cs)

end

/-- No key of a mapping is a collection. -/
def Node.keysAreScalars : Node → Bool
  | mapping es => es.all (fun e => match e.1 with
      | .list => false
      | .mapping => false
      | _ => true)
  | _ => true

/-! ## Block collections -/

/-- The token after a node that must end its line. -/
def afterNode (cs : List Char) : Option Cursor :=
  match skipSpaces cs with
  | [] => some ⟨0, []⟩
  | c :: rest => if isBreak c || c == '#' then some (skipGap false 0 (c :: rest)) else none

/-- The further lines of a plain scalar in a block deeper than `parent`. -/
def plainMore (parent : Int) : Nat → List Char → List Char → Option (List Char × List Char)
  | 0, _, _ => none
  | fuel + 1, text, cs =>
      match skipSpaces cs with
      | [] => some (text, [])
      | ':' :: _ => none
      | c :: more =>
          if !isBreak c then some (text, c :: more)
          else
            let blankOut := more.dropWhile (fun d => d == ' ' || isBreak d)
            let indent := ((more.take (more.length - blankOut.length)).reverse.takeWhile
              (· == ' ')).length
            if blankOut == [] || blankOut.head? == some '#' || (indent : Int) ≤ parent ||
                atMarker ⟨indent, blankOut⟩ then some (text, c :: more)
            else
              let (piece, rest) := takePlain false blankOut
              if piece == [] then none else plainMore parent fuel (text ++ ' ' :: piece) rest

/-- A key of a block mapping and what follows its colon. -/
def blockKey? (cs : List Char) : Option (Value × List Char) :=
  let finish (v : Value) (rest : List Char) : Option (Value × List Char) :=
    match skipSpaces rest with
    | ':' :: after => if blankNext after then some (v, after) else none
    | _ => none
  match takeQuoted? cs with
  | some q => if q.broken then none else finish (.string (String.ofList q.value)) q.rest
  | none =>
      match cs with
      | c :: rest =>
          if startsPlain false c rest then
            let (piece, after) := takePlain false (c :: rest)
            (plainValue? piece).bind fun v => finish v after
          else none
      | [] => none

mutual

/-- A node in a block deeper than `parent`.  `fresh` says that a collection may start
here: the node is the first of its line or of an item. -/
def blockNode : Nat → Int → Bool → Cursor → Option (Node × Cursor)
  | 0, _, _, _ => none
  | fuel + 1, parent, fresh, cur =>
      match cur.rest with
      | [] => some (.scalar .none, cur)
      | c :: cs =>
          if atMarker cur then some (.scalar .none, cur)
          else if atItem cur.rest then
            if fresh then
              (blockItems fuel cur.column cur).map (fun after => (.sequence, after))
            else none
          else if fresh && (blockKey? cur.rest).isSome then
            (blockEntries fuel cur.column cur).map (fun r => (.mapping r.1, r.2))
          else if c == '{' || c == '[' then
            match flowNode fuel cur.rest with
            | some (n, rest) =>
                if n.keysAreScalars then (afterNode rest).map (fun after => (n, after)) else none
            | none => none
          else if c == '"' || c == '\'' then
            match takeQuoted? cur.rest with
            | some q =>
                (afterNode q.rest).map
                  (fun after => (.scalar (.string (String.ofList q.value)), after))
            | none => none
          else if startsPlain false c cs then
            let (piece, rest) := takePlain false cur.rest
            match plainMore parent fuel piece rest with
            | some (text, rest) =>
                (plainValue? text).bind fun v =>
                  (afterNode rest).map fun after => (.scalar v, after)
            | none => none
          else none

/-- The entries of a block mapping in a column. -/
def blockEntries : Nat → Nat → Cursor → Option (List (Value × Value) × Cursor)
  | 0, _, _ => none
  | fuel + 1, column, cur =>
      match blockKey? cur.rest with
      | none => none
      | some (key, rest) =>
          let value : Option (Node × Cursor) :=
            match afterNode rest with
            | some next =>
                if next.rest == [] || atMarker next || next.column < column then
                  some (.scalar .none, next)
                else if next.column == column then
                  if atItem next.rest then
                    (blockItems fuel column next).map (fun after => (.sequence, after))
                  else some (.scalar .none, next)
                else blockNode fuel column true next
            | none => blockNode fuel column false ⟨column + 1, skipSpaces rest⟩
          match value with
          | none => none
          | some (v, next) =>
              if next.rest == [] || atMarker next || next.column < column then
                some ([(key, v.value)], next)
              else if next.column == column then
                (blockEntries fuel column next).map (fun r => ((key, v.value) :: r.1, r.2))
              else none

/-- The items of a block sequence in a column. -/
def blockItems : Nat → Nat → Cursor → Option Cursor
  | 0, _, _ => none
  | fuel + 1, column, cur =>
      let body := cur.rest.drop 1
      let item : Option (Node × Cursor) :=
        match afterNode body with
        | some next =>
            if next.rest == [] || atMarker next || next.column ≤ column then
              some (.scalar .none, next)
            else blockNode fuel column true next
        | none =>
            let inner := skipSpaces body
            blockNode fuel column true ⟨column + 1 + (body.length - inner.length), inner⟩
      match item with
      | none => none
      | some (_, next) =>
          if next.rest == [] || atMarker next || next.column < column then some next
          else if next.column == column then
            if atItem next.rest then blockItems fuel column next else some next
          else none

end

/-! ## Documents -/

/-- Directives in front of a document. -/
def skipDirectives : Nat → Cursor → Cursor
  | 0, cur => cur
  | fuel + 1, cur =>
      match cur.rest with
      | '%' :: cs =>
          if cur.column == 0 then
            skipDirectives fuel (skipGap false 0 (cs.dropWhile (fun c => !isBreak c)))
          else cur
      | _ => cur

/-- The node of the only document in a text; nothing if the text is broken. -/
def parse (source : List Char) : Option Node :=
  let text := match source with
    | c :: cs => if c.toNat = 0xFEFF then cs else c :: cs
    | [] => []
  if !text.all isAllowed then none
  else
    let fuel := 2 * text.length + 4
    let opening := skipGap false 0 text
    let start := skipDirectives fuel opening
    let directed := start.rest.length != opening.rest.length
    let body : Option (Node × Cursor) :=
      match start.rest with
      | '-' :: '-' :: '-' :: cs =>
          if atMarker start then
            match afterNode cs with
            | some next => blockNode fuel (-1) true next
            | none => blockNode fuel (-1) false ⟨4, skipSpaces cs⟩
          else if directed then none else blockNode fuel (-1) true start
      | _ => if directed then none else blockNode fuel (-1) true start
    match body with
    | none => none
    | some (n, next) =>
        match next.rest with
        | [] => some n
        | '.' :: '.' :: '.' :: cs =>
            if atMarker next && (skipGap false 3 cs).rest == [] then some n else none
        | _ => none

end Yaml
end SceneReader
