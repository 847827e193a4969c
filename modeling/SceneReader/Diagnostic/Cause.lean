import SceneReader.Diagnostic.Basic

/-!
# Causes of errors and warnings

What can be wrong with a scene.  A fault ends the reading or the directive it is about;
a caution is recovered from.  Codes, messages and hints are functions of the cause.

The codes of faults fall into ranges: E0 for the characters, E1 for the grammar, E2 for
files and E3 for the state in which a directive stands.
-/

namespace SceneReader

/-- Why a file cannot be used. -/
inductive ReadFault where
  /-- The bytes are no text in the encoding. -/
  | notText (encoding reason : String)
  /-- An archive member would be written outside the directory of the archive. -/
  | escapesArchive (member : String)
  /-- An archive member is a link. -/
  | isLink (member : String)
  /-- The system, the compression or the archive format refuses the file. -/
  | refused
deriving DecidableEq

/-- The reason as messages give it.  The words of the system for its own refusals vary,
and a placeholder stands for them. -/
def ReadFault.text : ReadFault → String
  | notText encoding reason => "not valid " ++ encoding ++ " text (" ++ reason ++ ")"
  | escapesArchive member => "member '" ++ member ++ "' escapes the archive"
  | isLink member => "member '" ++ member ++ "' is a link"
  | refused => "<reason>"

/-- Kinds of faults, as a caller tells them apart. -/
inductive FaultKind where
  | lexical
  | grammatical
  | missingFile
  | unreadableFile
  | includeCycle
  | phase
  | scope
  | nesting
deriving DecidableEq

/-- Causes of errors. -/
inductive Fault where
  | unexpectedCharacter (char : Char)
  | unterminatedString
  | unexpectedToken (expected found : String)
  | unexpectedEnd (expected : String)
  | unknownDirective (name : String)
  | wrongArguments (directive expected : String)
  | duplicateParameter (key : String)
  | emptyParameter (key : String)
  | badDeclaration (text : String)
  | malformedValue (key text expected : String)
  | fileNotFound (path : String) (searched : List String)
  | fileUnreadable (path : String) (reason : ReadFault)
  | includeCycle (path : String)
  | includeDepth (path : String) (depth : Int)
  | wrongPhase (directive place : String)
  | worldBegun
  | nestedObject (name outer : String)
  | unmatchedEnd (directive : String)
  | mismatchedEnd (directive opener : String)
  | instanceInObject (name : String)
deriving DecidableEq

namespace Fault

/-- The code of a fault. -/
def code : Fault → String
  | unexpectedCharacter _ => "E001"
  | unterminatedString => "E002"
  | unexpectedToken _ _ => "E101"
  | unexpectedEnd _ => "E102"
  | unknownDirective _ => "E103"
  | wrongArguments _ _ => "E104"
  | duplicateParameter _ => "E105"
  | emptyParameter _ => "E106"
  | badDeclaration _ => "E107"
  | malformedValue _ _ _ => "E108"
  | fileNotFound _ _ => "E201"
  | fileUnreadable _ _ => "E202"
  | includeCycle _ => "E203"
  | includeDepth _ _ => "E204"
  | wrongPhase _ _ => "E301"
  | worldBegun => "E302"
  | nestedObject _ _ => "E303"
  | unmatchedEnd _ => "E304"
  | mismatchedEnd _ _ => "E305"
  | instanceInObject _ => "E306"

/-- The kind of a fault. -/
def kind : Fault → FaultKind
  | unexpectedCharacter _ => .lexical
  | unterminatedString => .lexical
  | unexpectedToken _ _ => .grammatical
  | unexpectedEnd _ => .grammatical
  | unknownDirective _ => .grammatical
  | wrongArguments _ _ => .grammatical
  | duplicateParameter _ => .grammatical
  | emptyParameter _ => .grammatical
  | badDeclaration _ => .grammatical
  | malformedValue _ _ _ => .grammatical
  | fileNotFound _ _ => .missingFile
  | fileUnreadable _ _ => .unreadableFile
  | includeCycle _ => .includeCycle
  | includeDepth _ _ => .includeCycle
  | wrongPhase _ _ => .phase
  | worldBegun => .phase
  | nestedObject _ _ => .nesting
  | unmatchedEnd _ => .scope
  | mismatchedEnd _ _ => .scope
  | instanceInObject _ => .nesting

/-- The message of a fault. -/
def message : Fault → String
  | unexpectedCharacter c => "unexpected character '" ++ c.toString ++ "'"
  | unterminatedString => "unterminated string literal"
  | unexpectedToken expected found => "expected " ++ expected ++ ", found " ++ found
  | unexpectedEnd expected => "unexpected end of input, expected " ++ expected
  | unknownDirective name => "unknown directive '" ++ name ++ "'"
  | wrongArguments directive expected => directive ++ " requires " ++ expected
  | duplicateParameter key => "parameter '" ++ key ++ "' declared more than once"
  | emptyParameter key => "parameter '" ++ key ++ "' has no values"
  | badDeclaration text => "malformed parameter declaration \"" ++ text ++ "\""
  | malformedValue key text expected =>
      "malformed " ++ expected ++ " '" ++ text ++ "' in parameter '" ++ key ++ "'"
  | fileNotFound path _ => "file not found: '" ++ path ++ "'"
  | fileUnreadable path reason => "cannot read '" ++ path ++ "': " ++ reason.text
  | includeCycle path => "include cycle: '" ++ path ++ "' is already being included"
  | includeDepth path depth =>
      "include depth exceeds " ++ toString depth ++ " at '" ++ path ++ "'"
  | wrongPhase directive place => directive ++ " is not allowed " ++ place
  | worldBegun => "WorldBegin may appear only once"
  | nestedObject name outer =>
      "ObjectBegin \"" ++ name ++ "\" inside definition of \"" ++ outer ++ "\""
  | unmatchedEnd directive => "unmatched " ++ directive
  | mismatchedEnd directive opener => directive ++ " closes a scope opened by " ++ opener
  | instanceInObject name =>
      "ObjectInstance \"" ++ name ++ "\" cannot be used inside an object definition"

/-- The hints that go with a fault. -/
def hints : Fault → List String
  | unterminatedString => ["string literals must be closed with a matching '\"'"]
  | badDeclaration _ => ["parameter declarations look like \"float radius\""]
  | fileNotFound _ searched => searched.map ("searched: " ++ ·)
  | nestedObject _ _ => ["object definitions cannot be nested"]
  | _ => []

end Fault

/-- Causes of warnings. -/
inductive Caution where
  | malformedNumber (key text : String)
  | malformedBool (key text : String)
  | includeParameters (path : String)
  | unknownShape (name : String)
  | unknownLight (name : String)
  | unknownMaterial (name : String)
  | undefinedCoordinateSystem (name : String)
  | undefinedMaterial (name : String)
  | materialWithoutType (name : String)
  | assetNotFound (path : String)
  | degenerateTransform (directive : String)
  | animatedAreaLight
  | materialRedefined (name : String)
  | textureRedefined (name : String)
  | objectRedefined (name : String)
  | undefinedObject (name : String)
  | noWorld
  | includeNotExpanded (path : String)
  | unclosedScopes (count : Nat)
deriving DecidableEq

namespace Caution

/-- The code of a caution. -/
def code : Caution → String
  | malformedNumber _ _ => "W101"
  | malformedBool _ _ => "W102"
  | includeParameters _ => "W212"
  | unknownShape _ => "W301"
  | unknownLight _ => "W302"
  | unknownMaterial _ => "W303"
  | undefinedCoordinateSystem _ => "W304"
  | undefinedMaterial _ => "W305"
  | materialWithoutType _ => "W306"
  | assetNotFound _ => "W307"
  | degenerateTransform _ => "W308"
  | animatedAreaLight => "W309"
  | materialRedefined _ => "W310"
  | textureRedefined _ => "W311"
  | objectRedefined _ => "W312"
  | undefinedObject _ => "W313"
  | noWorld => "W314"
  | includeNotExpanded _ => "W315"
  | unclosedScopes _ => "W316"

/-- The message about a type name that is not known. -/
def unknownTypeMessage (kind name : String) : String :=
  kind ++ " type \"" ++ name ++ "\" is not supported, ignoring"

/-- The message of a caution. -/
def message : Caution → String
  | malformedNumber key text =>
      "malformed number '" ++ text ++ "' in parameter '" ++ key ++ "', using 0"
  | malformedBool key text =>
      "malformed bool '" ++ text ++ "' in parameter '" ++ key ++ "', using false"
  | includeParameters path => "parameters after Include \"" ++ path ++ "\" are ignored"
  | unknownShape name => unknownTypeMessage "shape" name
  | unknownLight name => unknownTypeMessage "light" name
  | unknownMaterial name => unknownTypeMessage "material" name
  | undefinedCoordinateSystem name => "coordinate system \"" ++ name ++ "\" is not defined"
  | undefinedMaterial name => "named material \"" ++ name ++ "\" is not defined"
  | materialWithoutType name =>
      "named material \"" ++ name ++ "\" has no \"string type\" parameter, ignoring"
  | assetNotFound path => "referenced file \"" ++ path ++ "\" not found"
  | degenerateTransform directive => directive ++ " produces a singular matrix, ignoring"
  | animatedAreaLight =>
      "area lights are not supported on animated shapes, ignoring the light"
  | materialRedefined name => "named material \"" ++ name ++ "\" redefined"
  | textureRedefined name => "texture \"" ++ name ++ "\" redefined"
  | objectRedefined name => "object \"" ++ name ++ "\" redefined"
  | undefinedObject name => "object \"" ++ name ++ "\" is not defined"
  | noWorld => "scene has no WorldBegin"
  | includeNotExpanded path => "Include \"" ++ path ++ "\" was not expanded, ignoring"
  | unclosedScopes count => toString count ++ " scope(s) still open at end of input"

/-- The diagnostic of a caution about a span. -/
def diagnostic (c : Caution) (span : Span) (line : Option String) : Diagnostic :=
  ⟨c.code, c.message, .warning, span, line, []⟩

end Caution

/-- A fault at a place. -/
structure SceneError where
  fault : Fault
  span : Span
  sourceLine : Option String

namespace SceneError

/-- A fault that belongs to no place of any text. -/
def unplaced (f : Fault) : SceneError := ⟨f, .unknown, none⟩

/-- The diagnostic of an error. -/
def diagnostic (e : SceneError) : Diagnostic :=
  ⟨e.fault.code, e.fault.message, .error, e.span, e.sourceLine, e.fault.hints⟩

/-- The text of an error, source line and hints included. -/
def text (e : SceneError) : String :=
  e.diagnostic.format true

end SceneError
end SceneReader
