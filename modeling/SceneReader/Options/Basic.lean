import SceneReader.Value

/-!
# Reading options

How scene files are read.  Options come from outside as names with values; a name that
is not known or a value of another type than the default's is refused, and so is a limit
on the depth of includes below one.

**Results.**
* `ofEntries_nil`: without settings the options are the defaults.
-/

namespace SceneReader

/-- How scene files are read and shown. -/
structure Options where
  /-- Malformed numbers and truth values are errors. -/
  strictNumbers : Bool := false
  /-- Included files are spliced into the text. -/
  expandIncludes : Bool := true
  /-- A file that includes itself is an error. -/
  detectIncludeCycles : Bool := true
  /-- The longest chain of files that include each other. -/
  maxIncludeDepth : Int := 64
  /-- The encoding of scene files. -/
  encoding : String := "utf-8"
  /-- Long value lists are shown cut. -/
  omitLongValues : Bool := false
  /-- The length beyond which a value list is long. -/
  longValueThreshold : Int := 16

/-- What is wrong with given options. -/
inductive OptionFault where
  | unknown (names : List String)
  | wrongType (name expected given : String)
  | depthTooSmall
deriving DecidableEq

/-- The message about an option. -/
def OptionFault.message : OptionFault → String
  | unknown names => "unknown option(s): " ++ ", ".intercalate names
  | wrongType name expected given =>
      "option '" ++ name ++ "' must be " ++ expected ++ ", got " ++ given
  | depthTooSmall => "option 'max_include_depth' must be at least 1"

namespace Options

/-- The defaults. -/
def standard : Options := {}

/-- All options by name, in order. -/
def entries (o : Options) : List (String × Value) :=
  [("strict_numbers", .bool o.strictNumbers),
   ("expand_includes", .bool o.expandIncludes),
   ("detect_include_cycles", .bool o.detectIncludeCycles),
   ("max_include_depth", .int o.maxIncludeDepth),
   ("encoding", .string o.encoding),
   ("omit_long_values", .bool o.omitLongValues),
   ("long_value_threshold", .int o.longValueThreshold)]

/-- The names of the options. -/
def names : List String := standard.entries.map (·.1)

/-- Sets an option to a value of its type. -/
def set? (o : Options) (name : String) (v : Value) : Option Options :=
  match name, v with
  | "strict_numbers", .bool b => some { o with strictNumbers := b }
  | "expand_includes", .bool b => some { o with expandIncludes := b }
  | "detect_include_cycles", .bool b => some { o with detectIncludeCycles := b }
  | "max_include_depth", .int i => some { o with maxIncludeDepth := i }
  | "encoding", .string s => some { o with encoding := s }
  | "omit_long_values", .bool b => some { o with omitLongValues := b }
  | "long_value_threshold", .int i => some { o with longValueThreshold := i }
  | _, _ => none

/-- Sets an option, or says which type it should have had. -/
def set (o : Options) (e : String × Value) : Except OptionFault Options :=
  match o.set? e.1 e.2 with
  | some o => .ok o
  | none =>
      let expected := ((standard.entries.lookup e.1).map Value.typeName).getD ""
      .error (.wrongType e.1 expected e.2.typeName)

/-- Settings in order, a later one of the same name in the place of an earlier one. -/
def putEntry (es : List (String × Value)) (e : String × Value) : List (String × Value) :=
  if es.any (fun d => d.1 == e.1) then es.map (fun d => if d.1 == e.1 then e else d)
  else es ++ [e]

/-- Options with the given settings, all others as by default. -/
def ofEntries (given : List (String × Value)) : Except OptionFault Options :=
  let es := given.foldl putEntry []
  let strange := (es.map (·.1)).filter (fun n => !names.contains n)
  if strange ≠ [] then .error (.unknown (strange.mergeSort (fun a b => decide (a ≤ b))))
  else (es.foldlM set standard).bind fun o =>
    if o.maxIncludeDepth < 1 then .error .depthTooSmall else .ok o

/-- The options with some of them overridden; a missing value overrides nothing. -/
def merged (o : Options) (overrides : List (String × Value)) : Except OptionFault Options :=
  ofEntries (o.entries ++ overrides.filter (fun e => match e.2 with
    | .none => false
    | _ => true))

/-- The limit that abbreviates long value lists. -/
def valueLimit (o : Options) : Option Int :=
  if o.omitLongValues then some o.longValueThreshold else none

theorem ofEntries_nil : ofEntries [] = .ok standard := rfl

end Options
end SceneReader
