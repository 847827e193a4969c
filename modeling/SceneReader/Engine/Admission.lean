import SceneReader.Diagnostic.Cause
import SceneReader.Directive.Basic
import SceneReader.Engine.State

/-!
# Which directives are admitted

A directive may be out of place in the phase, close a block that is not open, or be inside
an object definition where it may not be.  These are the reasons for which handlers refuse
directives, taken together: a directive is admitted if there is none of them.

A turn by an infinite angle is not admitted either, since it has no matrix at all, not
even a singular one.

**Results.**
* `phaseFault?_ended`: after the end of the world only directives of any phase remain.
-/

namespace SceneReader

/-- What stays the same while the directives of a scene are executed. -/
structure EngineContext where
  files : FileTree
  /-- The lines to quote in messages. -/
  lines : List String
  /-- The name of the source. -/
  source : Option String

/-- Where a message about a directive points, and the line to quote. -/
def EngineContext.whereIs (c : EngineContext) (d : Directive) : Span × Option String :=
  match d.span with
  | none => (.unknown, none)
  | some span => (span, Text.lineAt? c.lines span.start.line)

namespace Directive

/-- The numbers among the arguments. -/
def numbers (d : Directive) : List Float :=
  d.args.filterMap fun
    | .number x => some x
    | .text _ => none

/-- The texts among the arguments. -/
def texts (d : Directive) : List String :=
  d.args.filterMap fun
    | .number _ => none
    | .text s => some s

/-- The first text among the arguments. -/
def subject (d : Directive) : String := d.texts.headD ""

end Directive

/-- Where a directive may stand. -/
inductive Placement where
  /-- In every phase. -/
  | anywhere
  /-- Before the world begins. -/
  | optionsOnly
  /-- Where the world begins. -/
  | worldStart
  /-- Inside the world. -/
  | worldOnly
  /-- Until the world ends. -/
  | untilEnd
deriving DecidableEq

/-- Where the directives may stand. -/
def DirectiveName.placement : DirectiveName → Placement
  | workDirBegin => .anywhere
  | workDirEnd => .anywhere
  | includeFile => .anywhere
  | camera => .optionsOnly
  | film => .optionsOnly
  | sampler => .optionsOnly
  | integrator => .optionsOnly
  | accelerator => .optionsOnly
  | pixelFilter => .optionsOnly
  | transformTimes => .optionsOnly
  | worldBegin => .worldStart
  | shape => .worldOnly
  | material => .worldOnly
  | makeNamedMaterial => .worldOnly
  | namedMaterial => .worldOnly
  | texture => .worldOnly
  | lightSource => .worldOnly
  | areaLightSource => .worldOnly
  | reverseOrientation => .worldOnly
  | attributeBegin => .worldOnly
  | attributeEnd => .worldOnly
  | objectBegin => .worldOnly
  | objectEnd => .worldOnly
  | objectInstance => .worldOnly
  | worldEnd => .worldOnly
  | _ => .untilEnd

/-- The fault of a directive that is out of place in a phase. -/
def phaseFault? (phase : Phase) (name : DirectiveName) : Option Fault :=
  match name.placement, phase with
  | .anywhere, _ => none
  | _, .ended => some (.wrongPhase name.text "after WorldEnd")
  | .worldStart, .world => some .worldBegun
  | .optionsOnly, .world => some (.wrongPhase name.text "inside the world block")
  | .worldOnly, .options => some (.wrongPhase name.text "before WorldBegin")
  | _, _ => none

theorem phaseFault?_ended (name : DirectiveName) :
    phaseFault? .ended name = none ↔ name.placement = .anywhere := by
  cases name <;> simp [phaseFault?, DirectiveName.placement]

variable {K : Type}

/-- The fault of closing a block that is not the innermost one. -/
def closeFault? (s : EngineState K) (k : ScopeKind) : Option Fault :=
  match s.scopes with
  | [] => some (.unmatchedEnd k.closer.text)
  | top :: _ =>
      if top.kind = k then none
      else some (.mismatchedEnd k.closer.text top.kind.opener.text)

/-- The fault of a directive that does not fit the open blocks. -/
def nestingFault? (s : EngineState K) (d : Directive) : Option Fault :=
  match d.name with
  | .attributeEnd => closeFault? s .attributes
  | .transformEnd => closeFault? s .transform
  | .objectEnd => closeFault? s .object
  | .objectBegin => s.openObject.map fun o => .nestedObject d.subject o.name
  | .objectInstance => s.openObject.map fun _ => .instanceInObject d.subject
  | .workDirEnd =>
      match s.dirs.pop? with
      | none => some (.unmatchedEnd d.name.text)
      | some _ => none
  | _ => none

/-- The transform that a directive asks for, if it asks for one. -/
def motion? [Scalar K] (d : Directive) :
    Option (Except (TransformFault K) (Transform K)) :=
  match d.name, d.numbers.map Scalar.ofFloat with
  | .translate, [x, y, z] => some (.ok (.translate ⟨x, y, z⟩))
  | .scale, [x, y, z] => some (Transform.scale? x y z)
  | .rotate, [angle, x, y, z] => some (Transform.rotate? angle ⟨x, y, z⟩)
  | .lookAt, [a, b, c, d, e, f, g, h, i] => some (Transform.lookAt? ⟨a, b, c⟩ ⟨d, e, f⟩ ⟨g, h, i⟩)
  | .concatTransform, values => some ((Frame.ofColumnMajor? values).bind Transform.ofMatrix?)
  | .transform, values => some ((Frame.ofColumnMajor? values).bind Transform.ofMatrix?)
  | _, _ => none

/-- Why a directive is not admitted. -/
inductive Rejection (K : Type) where
  | scene (e : SceneError)
  /-- The transform has no matrix. -/
  | transform (f : TransformFault K)

/-- The fault of a directive whose transform has no matrix. -/
def motionFault? [Scalar K] (d : Directive) : Option (TransformFault K) :=
  match motion? d with
  | some (.error f) => if f.isDegenerate then none else some f
  | _ => none

/-- Admits a directive, or says why not. -/
def permit [Scalar K] (c : EngineContext) (s : EngineState K) (d : Directive) :
    Except (Rejection K) Unit :=
  match (phaseFault? s.phase d.name).or (nestingFault? s d) with
  | some f => .error (.scene ⟨f, (c.whereIs d).1, (c.whereIs d).2⟩)
  | none =>
      match motionFault? d with
      | some f => .error (.transform f)
      | none => .ok ()

end SceneReader
