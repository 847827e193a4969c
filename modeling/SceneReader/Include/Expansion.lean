import SceneReader.Diagnostic.Reported
import SceneReader.Include.Directories
import SceneReader.Options.Basic
import SceneReader.Source.Comment
import SceneReader.Text.Naming
import SceneReader.Token.Lexer

/-!
# Include expansion

A scene may be spread over files that include each other.  Expansion makes one text of
them: comments are stripped and every `Include` directive, with the parameters after
it, is replaced by the expanded text of its target.  The text of each file stands
between a `WorkDirBegin` with the directory of the file and a `WorkDirEnd`, so that
names in it can be looked up where the file lies.

The chain of files that are being read bounds the recursion: a target that would make
it longer than the limit is refused.

**Results.**
* `length_skipParameters_le`: parameters give no token back.
-/

namespace SceneReader
namespace Include

/-! ## Parameters after an include -/

/-- Tokens after a closing bracket, and the place where the skipped ones end. -/
def skipToBracket (stop : Position) : List Token → Position × List Token
  | [] => (stop, [])
  | t :: ts =>
      match t.kind with
      | .rightBracket => (t.span.stop, ts)
      | .endOfInput => (stop, t :: ts)
      | _ => skipToBracket t.span.stop ts

/-- Tokens after the value of a parameter. -/
def skipValue (stop : Position) : List Token → Position × List Token
  | [] => (stop, [])
  | t :: ts =>
      match t.kind with
      | .leftBracket => skipToBracket t.span.stop ts
      | .endOfInput => (stop, t :: ts)
      | .identifier =>
          if (boolWord? t.lexeme).isSome then (t.span.stop, ts) else (stop, t :: ts)
      | _ => (t.span.stop, ts)

theorem length_skipToBracket_le (stop : Position) (ts : List Token) :
    (skipToBracket stop ts).2.length ≤ ts.length := by
  induction ts generalizing stop with
  | nil => simp [skipToBracket]
  | cons t ts ih =>
      unfold skipToBracket
      split
      · simp
      · simp
      · have := ih t.span.stop
        simp only [List.length_cons]
        omega

theorem length_skipValue_le (stop : Position) (ts : List Token) :
    (skipValue stop ts).2.length ≤ ts.length := by
  unfold skipValue
  split
  · simp
  · rename_i t ts
    split
    · have := length_skipToBracket_le t.span.stop ts
      simp only [List.length_cons]
      omega
    · simp
    · split <;> simp
    · simp

/-- Tokens after a list of parameters. -/
def skipParameters (stop : Position) : List Token → Position × List Token
  | [] => (stop, [])
  | t :: ts =>
      if t.string?.isSome then
        have : (skipValue t.span.stop ts).2.length < (t :: ts).length := by
          have := length_skipValue_le t.span.stop ts
          simp only [List.length_cons]
          omega
        skipParameters (skipValue t.span.stop ts).1 (skipValue t.span.stop ts).2
      else (stop, t :: ts)
  termination_by ts => ts.length
  decreasing_by exact this

theorem length_skipParameters_le (stop : Position) (ts : List Token) :
    (skipParameters stop ts).2.length ≤ ts.length := by
  fun_induction skipParameters stop ts with
  | case1 => simp
  | case2 stop t ts h _ ih => omega
  | case3 => simp

theorem length_skipParameters_lt (t target : Token) (after : List Token) (stop : Position) :
    (skipParameters stop after).2.length < (t :: target :: after).length := by
  have := length_skipParameters_le stop after
  simp only [List.length_cons]
  omega

/-! ## Frames -/

/-- The mark in front of the text of a file. -/
def opening (directory : Location) : List Char :=
  ("WorkDirBegin " ++ Text.quote directory.text ++ "\n").toList

/-- The mark behind the text of a file. -/
def closing : List Char := "WorkDirEnd\n".toList

/-- A text that ends its last line. -/
def terminated (cs : List Char) : List Char :=
  match cs.getLast? with
  | none => cs
  | some c => if c = '\n' then cs else cs ++ ['\n']

/-- A text that does not run into the next word. -/
def separated (cs : List Char) : List Char :=
  match cs.getLast? with
  | none => cs
  | some c => if Text.isBlank c then cs else cs ++ ['\n']

/-- The text of a file in a directory between its marks. -/
def framed (directory : Location) (cs : List Char) : List Char :=
  opening directory ++ terminated cs ++ closing

/-! ## Expansion -/

/-- Where an expanded text stands. -/
structure Standing where
  /-- The name of the file in messages. -/
  file : Option String
  /-- The directories that names are looked up in. -/
  dirs : DirectoryStack
  /-- The files that are being read, the outermost first. -/
  chain : List Location

namespace Standing

/-- Inside a file that was included from here. -/
def enter (s : Standing) (l : Location) : Standing :=
  ⟨some (Location.text l), s.dirs.push (Path.ofLocation l.dropLast), s.chain ++ [l]⟩

/-- At the start of a file that nothing includes. -/
def root (l : Location) : Standing :=
  ⟨some (Location.text l), .ofList [Path.ofLocation l.dropLast], [l]⟩

end Standing

/-- An include that was found in a text: the path as written, the token that holds it
and the line to quote. -/
structure Request where
  path : String
  target : Token
  line : Option String

/-- A fault about the target of an include. -/
def Request.error (r : Request) (f : Fault) : ReadError :=
  .scene ⟨f, r.target.span, r.line⟩

/-- The directive is an include. -/
def isInclude (t : Token) : Bool :=
  t.identifier? == some "Include"

/-- Replaces the includes in a text.  `replace` gives the text of a target, and `cs` is
what follows the character at `offset`. -/
def splice (lines : List String) (replace : Request → Reported ReadError (List Char))
    (offset : Nat) (cs : List Char) : List Token → Reported ReadError (List Char)
  | [] => return cs
  | t :: ts =>
      if isInclude t then
        let line := Text.lineAt? lines t.span.start.line
        match ts with
        | [] => .fail (.scene ⟨.wrongArguments "Include" "a quoted file path", t.span, line⟩)
        | target :: after =>
            match target.string? with
            | none =>
                .fail (.scene ⟨.wrongArguments "Include" "a quoted file path", t.span, line⟩)
            | some path => do
                let left := skipParameters target.span.stop after
                if left.2.length < after.length then
                  Reported.note ((Caution.includeParameters path).diagnostic t.span line)
                let body ← replace ⟨path, target, line⟩
                let before := cs.take (t.span.start.offset - offset)
                have : left.2.length < (t :: target :: after).length :=
                  length_skipParameters_lt t target after target.span.stop
                let rest ← splice lines replace left.1.offset
                  (cs.drop (left.1.offset - offset)) left.2
                return separated before ++ body ++ rest
      else splice lines replace offset cs ts
  termination_by ts => ts.length
  decreasing_by
    · exact this
    · simp

/-- The file that an include means. -/
def locate (files : FileTree) (o : Options) (s : Standing) (r : Request) :
    Except ReadError Location :=
  match s.dirs.find? files (Path.ofText r.path) with
  | none =>
      .error (r.error (.fileNotFound r.path
        ((s.dirs.candidates (Path.ofText r.path)).map Path.text)))
  | some l =>
      if o.detectIncludeCycles && s.chain.contains l then
        .error (r.error (.includeCycle (Location.text l)))
      else .ok l

/-- The text of a file without its comments. -/
def readStripped (files : FileTree) (o : Options) (l : Location) :
    Except ReadError (List Char) :=
  (files.readScene (Path.ofLocation l) o.encoding).map
    (fun text => (Comment.stripText text).toList)

/-- Replaces the includes in a text; `room` is by how much the chain of files may still
grow. -/
def expand (files : FileTree) (o : Options) (room : Nat) (s : Standing) (cs : List Char) :
    Reported ReadError (List Char) := do
  let source := String.ofList cs
  let tokens ← Reported.ofExcept ((Lexer.tokenize source s.file).mapError ReadError.scene)
  splice (Text.splitLines source) (fun r => do
    let l ← Reported.ofExcept (locate files o s r)
    match room with
    | 0 => Reported.fail (r.error (.includeDepth (Location.text l) o.maxIncludeDepth))
    | room + 1 =>
        let text ← Reported.ofExcept (readStripped files o l)
        let body ← expand files o room (s.enter l) text
        return framed l.dropLast body) 0 cs tokens

/-- The whole text of a scene file, includes replaced if the options say so. -/
def expandFile (files : FileTree) (o : Options) (path : String) :
    Reported ReadError String := do
  let p := Path.ofText path
  if !files.isFile p then
    Reported.fail (.scene (.unplaced (.fileNotFound path [])))
  else
    let l := files.resolve p
    let text ← Reported.ofExcept (readStripped files o l)
    let body ← if o.expandIncludes
      then expand files o (o.maxIncludeDepth.toNat - 1) (.root l) text
      else pure text
    return String.ofList (framed l.dropLast body)

/-- The whole text of a scene that is at hand; its includes are looked up from a
directory. -/
def expandText (files : FileTree) (o : Options) (base : Path) (file : Option String)
    (text : String) : Reported ReadError String := do
  let l := files.resolve base
  let stripped := (Comment.stripText text).toList
  let standing : Standing := ⟨file, .ofList [Path.ofLocation l], []⟩
  let body ← if o.expandIncludes
    then expand files o o.maxIncludeDepth.toNat standing stripped
    else pure stripped
  return String.ofList (framed l body)

end Include
end SceneReader
