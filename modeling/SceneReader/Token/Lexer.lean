import SceneReader.Diagnostic.Cause
import SceneReader.Number.Reading
import SceneReader.Text.Letter
import SceneReader.Text.Lines
import SceneReader.Token.Basic

/-!
# The lexer

A text is a row of tokens with gaps between them.  A gap consists of blanks and
comments.  A string literal ends at the first double quote without a backslash directly
before it, and such a backslash is dropped.  A bare word runs to the next delimiter; what
it is depends on its first character.

**Results.**
* `takeGap_append`: a gap and what follows it make up the text.
* `scanString_append`: so do a literal and what follows it.
* `Lexed.length_rest_lt`: every token takes at least one character, so the scan ends.
-/

namespace SceneReader
namespace Lexer

/-- Blanks and comments before the next token, and what follows; `inComment` says that
a comment is open. -/
def takeGap (inComment : Bool) : List Char → List Char × List Char
  | [] => ([], [])
  | c :: cs =>
      if inComment && c != '\n' then
        (c :: (takeGap true cs).1, (takeGap true cs).2)
      else if Text.isBlank c then (c :: (takeGap false cs).1, (takeGap false cs).2)
      else if c = '#' then (c :: (takeGap true cs).1, (takeGap true cs).2)
      else ([], c :: cs)

theorem takeGap_append (b : Bool) (cs : List Char) :
    (takeGap b cs).1 ++ (takeGap b cs).2 = cs := by
  induction cs generalizing b with
  | nil => rfl
  | cons c cs ih =>
      unfold takeGap
      split
      · simp [ih]
      · split
        · simp [ih]
        · split <;> simp [ih]

theorem length_takeGap_snd_le (b : Bool) (cs : List Char) :
    (takeGap b cs).2.length ≤ cs.length := by
  have h := congrArg List.length (takeGap_append b cs)
  simp only [List.length_append] at h
  omega

/-- A string literal after its opening quote. -/
structure Literal where
  value : List Char
  lexeme : List Char
  rest : List Char

/-- One more character in front of a literal. -/
def Literal.cons (value : Char) (lexeme : List Char) (l : Literal) : Literal :=
  ⟨value :: l.value, lexeme ++ l.lexeme, l.rest⟩

/-- Scans a literal after its opening quote; there is none without a closing quote. -/
def scanString : List Char → Option Literal
  | [] => none
  | '"' :: cs => some ⟨[], ['"'], cs⟩
  | '\\' :: '"' :: cs => (scanString cs).map (Literal.cons '"' ['\\', '"'])
  | c :: cs => (scanString cs).map (Literal.cons c [c])

theorem scanString_append {cs : List Char} {l : Literal} (h : scanString cs = some l) :
    l.lexeme ++ l.rest = cs := by
  fun_induction scanString cs generalizing l with
  | case1 => simp at h
  | case2 cs =>
      cases h
      rfl
  | case3 cs ih =>
      obtain ⟨m, hm, rfl⟩ := Option.map_eq_some_iff.1 h
      simp [Literal.cons, ih hm]
  | case4 c cs _ _ ih =>
      obtain ⟨m, hm, rfl⟩ := Option.map_eq_some_iff.1 h
      simp [Literal.cons, ih hm]

/-- Characters that end a bare word. -/
def isDelimiter (c : Char) : Bool :=
  c == ' ' || (decide (9 ≤ c.toNat) && decide (c.toNat ≤ 13)) ||
    c == '[' || c == ']' || c == '"' || c == '#'

/-- The rest of a bare word, and what follows it. -/
def takeBare (cs : List Char) : List Char × List Char :=
  (cs.takeWhile (fun c => !isDelimiter c), cs.dropWhile (fun c => !isDelimiter c))

/-- A word that starts like a number is one if it reads as one and has no underscore. -/
def numberKind (word : List Char) : TokenKind :=
  if word.contains '_' then .malformedNumber
  else match Number.ofChars? word with
    | some x => .number x
    | none => .malformedNumber

/-- What the scanner finds at a character that starts no gap. -/
inductive Lexed where
  | token (kind : TokenKind) (lexeme rest : List Char)
  | unexpected (char : Char)
  | unterminated

/-- A bare word starts here that looks like a number. -/
def startsNumber (c : Char) : Bool :=
  Text.isDigit c || c == '+' || c == '-' || c == '.'

/-- A bare word starts here that is a name. -/
def startsName (c : Char) : Bool :=
  Text.isLetter c || c == '_'

/-- Scans one token whose first character is given. -/
def scanToken (c : Char) (cs : List Char) : Lexed :=
  if c = '"' then
    match scanString cs with
    | some l => .token (.string (String.ofList l.value)) (c :: l.lexeme) l.rest
    | none => .unterminated
  else if c = '[' then .token .leftBracket [c] cs
  else if c = ']' then .token .rightBracket [c] cs
  else if startsNumber c then
    .token (numberKind (c :: (takeBare cs).1)) (c :: (takeBare cs).1) (takeBare cs).2
  else if startsName c then .token .identifier (c :: (takeBare cs).1) (takeBare cs).2
  else .unexpected c

/-- The lexeme of a token and what follows it make up the text. -/
theorem Lexed.lexeme_append {c : Char} {cs : List Char} {kind : TokenKind}
    {lexeme rest : List Char} (h : scanToken c cs = .token kind lexeme rest) :
    lexeme ++ rest = c :: cs := by
  unfold scanToken at h
  split at h
  · split at h
    · rename_i l hl
      cases h
      simp [scanString_append hl]
    · cases h
  · split at h
    · cases h
      rfl
    · split at h
      · cases h
        rfl
      · split at h
        · cases h
          simp [takeBare]
        · split at h
          · cases h
            simp [takeBare]
          · cases h

theorem Lexed.lexeme_ne_nil {c : Char} {cs : List Char} {kind : TokenKind}
    {lexeme rest : List Char} (h : scanToken c cs = .token kind lexeme rest) :
    lexeme ≠ [] := by
  unfold scanToken at h
  split at h
  · split at h
    · cases h
      simp
    · cases h
  · split at h
    · cases h
      simp
    · split at h
      · cases h
        simp
      · split at h
        · cases h
          simp
        · split at h
          · cases h
            simp
          · cases h

theorem Lexed.length_rest_lt {c : Char} {cs : List Char} {kind : TokenKind}
    {lexeme rest : List Char} (h : scanToken c cs = .token kind lexeme rest) :
    rest.length < (c :: cs).length := by
  have ha := congrArg List.length (lexeme_append h)
  have hn := lexeme_ne_nil h
  have := List.length_pos_iff.2 hn
  simp only [List.length_append] at ha
  omega

theorem length_after_lt {cs rest after lexeme : List Char} {c : Char} {kind : TokenKind}
    (hg : (takeGap false cs).2 = c :: rest) (ht : scanToken c rest = .token kind lexeme after) :
    after.length < cs.length := by
  have h1 := Lexed.length_rest_lt ht
  have h2 := length_takeGap_snd_le false cs
  rw [hg] at h2
  omega

/-- The tokens of a text up to its end or to the first fault. -/
structure Scan where
  tokens : List Token
  error : Option SceneError

/-- One more token in front of a scan. -/
def Scan.cons (t : Token) (s : Scan) : Scan :=
  ⟨t :: s.tokens, s.error⟩

/-- A scan that ends in a fault about the characters from one place to another. -/
def Scan.fail (lines : List String) (f : Fault) (span : Span) : Scan :=
  ⟨[], some ⟨f, span, Text.lineAt? lines span.start.line⟩⟩

/-- Scans a text from a place in it to its end.  `lines` are the lines to quote. -/
def scanFrom (file : Option String) (lines : List String) (place : Position)
    (cs : List Char) : Scan :=
  let start := place.advanceAll (takeGap false cs).1
  match hg : (takeGap false cs).2 with
  | [] => ⟨[⟨.endOfInput, "", ⟨file, start, start⟩⟩], none⟩
  | c :: rest =>
      match ht : scanToken c rest with
      | .token kind lexeme after =>
          let stop := start.advanceAll lexeme
          have : after.length < cs.length := length_after_lt hg ht
          (scanFrom file lines stop after).cons
            ⟨kind, String.ofList lexeme, ⟨file, start, stop⟩⟩
      | .unexpected c =>
          .fail lines (.unexpectedCharacter c) ⟨file, start, start.advance c⟩
      | .unterminated =>
          .fail lines .unterminatedString ⟨file, start, start.advanceAll (c :: rest)⟩
  termination_by cs.length

/-- Scans a whole text. -/
def scan (source : String) (file : Option String) : Scan :=
  scanFrom file (Text.splitLines source) .start source.toList

/-- The tokens of a text, the last of them the end of the input. -/
def tokenize (source : String) (file : Option String) : Except SceneError (List Token) :=
  match scan source file with
  | ⟨tokens, none⟩ => .ok tokens
  | ⟨_, some e⟩ => .error e

end Lexer
end SceneReader
