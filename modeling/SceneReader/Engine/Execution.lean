import SceneReader.Engine.Action
import SceneReader.Engine.Admission
import SceneReader.Engine.Known

/-!
# Executing directives

What each admitted directive does.  What can be recovered from, such as an unknown type
or a missing file, is reported as a caution, and the directive or the part of it is
skipped.

A directive that is not admitted is refused where it is handled.  A run executes
directives up to the first one that is refused, and then closes what is still open.
-/

namespace SceneReader
namespace Engine

variable {K : Type} [Scalar K]

/-- Reports a caution about a directive. -/
def warn {K : Type} (c : EngineContext) (d : Directive) (w : Caution) : Action K Unit :=
  .note (w.diagnostic (c.whereIs d).1 (c.whereIs d).2)

/-! ## Resources and files -/

/-- The identity of one more resource. -/
def fresh {K : Type} : Action K ResourceId := do
  let s ← Action.state
  .change fun s => { s with made := s.made + 1 }
  return .made (s.made + 1)

/-- Declares a resource. -/
def declare {K : Type} (r : Resource K) : Action K Unit := .emit (.declare r)

/-- The file that a name means, in the directories of the place where it stands. -/
def findFile {K : Type} (c : EngineContext) (d : Directive) (name : String) :
    Action K (Option String) := do
  let s ← Action.state
  match s.dirs.find? c.files (Path.ofText name) with
  | some l => return some (Location.text l)
  | none =>
      warn c d (.assetNotFound name)
      return none

/-- The file that a parameter names, if it names one. -/
def namedFile? (exempt : List String) (p : Param) : Option String :=
  match p.value.firstString? with
  | none => none
  | some name =>
      if p.type = "spectrum" then
        if (Path.ofText name).suffix = "" then none else some name
      else if Known.fileParameters.contains p.name && !exempt.contains p.name then some name
      else none

/-- The resource for a file that a parameter names: an image for a map, and a plain
file otherwise. -/
def fileResource (parameter path : String) (id : ResourceId) : Resource K :=
  let name := (Path.ofText path).name
  if parameter = "mapname" then
    ⟨id, name, "imagemap", ParamMap.empty.set ⟨"string", "filename", .ofString path⟩,
      .texture "spectrum" (some path) .identity⟩
  else ⟨id, name, parameter, .empty, .other (some path)⟩

/-- Declares a file, unless that was done before. -/
def declareFile (parameter path : String) : Action K Unit := do
  let s ← Action.state
  if s.declaredFiles.contains path then return
  else
    let id ← fresh
    .change fun s => { s with declaredFiles := path :: s.declaredFiles }
    declare (fileResource parameter path id)

/-- Parameters to which the full path of the file that one of them names is added. -/
def registerFile (c : EngineContext) (d : Directive) (exempt : List String) (m : ParamMap)
    (p : Param) : Action K ParamMap := do
  match namedFile? exempt p with
  | none => return m
  | some name =>
      match ← findFile c d name with
      | none => return m
      | some path =>
          declareFile p.name path
          return m.set ⟨"string", p.name ++ "_fullpath", .ofString path⟩

/-- The parameters of a directive with the full paths of the files that they name. -/
def registerFiles (c : EngineContext) (d : Directive) (exempt : List String) :
    Action K ParamMap :=
  d.params.entries.foldlM (registerFile c d exempt) d.params

/-! ## Blocks -/

/-- Opens a block. -/
def openScope {K : Type} (kind : ScopeKind) : Action K Unit := do
  let s ← Action.state
  let reported := decide (kind ≠ .object) && s.openObject.isNone
  .change fun s => { s with scopes := ⟨kind, s.ctm, reported⟩ :: s.scopes }
  if kind = .attributes then
    .change fun s => { s with savedGraphics := s.graphics :: s.savedGraphics }
  if reported then .emit (.beginScope kind s.ctm)

/-- Restores the graphics state of the innermost attribute block. -/
def restoreGraphics {K : Type} (s : EngineState K) : EngineState K :=
  match s.savedGraphics with
  | [] => s
  | g :: gs => { s with graphics := g, savedGraphics := gs }

/-- Completes the object that is being defined. -/
def endObject {K : Type} : Action K Unit := do
  let s ← Action.state
  match s.openObject with
  | none => return
  | some o =>
      .change fun s => { s with openObject := none, objects := s.objects.put o.name o }
      .emit (.objectEnd o)

/-- Closes the innermost block. -/
def closeScope {K : Type} : Action K Unit := do
  let s ← Action.state
  match s.scopes with
  | [] => return
  | scope :: rest =>
      .change fun s => { s with scopes := rest, ctm := scope.ctm }
      match scope.kind with
      | .attributes => .change restoreGraphics
      | .object => endObject
      | .transform => pure ()
      if scope.reported then .emit (.endScope scope.kind)

/-- Closes a number of blocks. -/
def closeScopes {K : Type} : Nat → Action K Unit
  | 0 => return
  | n + 1 => do
      closeScope
      closeScopes n

/-- Ends the world; blocks that are still open are closed with a caution. -/
def endWorld {K : Type} (span : Span) : Action K Unit := do
  let s ← Action.state
  if s.scopes.length ≠ 0 then
    .note ((Caution.unclosedScopes s.scopes.length).diagnostic span none)
    closeScopes s.scopes.length
  .emit .worldEnd
  .change fun s => { s with phase := .ended }

/-! ## Transforms -/

/-- Composes the transform of a directive into the current one, or puts it in its
place. -/
def move (c : EngineContext) (d : Directive) (replaces : Bool) : Action K Unit :=
  match motion? d with
  | some (.ok t) => .change fun s =>
      { s with ctm := if replaces then s.ctm.replace t else s.ctm.compose t }
  | some (.error _) => warn c d (.degenerateTransform d.name.text)
  | none => return

/-- Goes back to a coordinate system; the active halves stay. -/
def useCoordinateSystem {K : Type} (c : EngineContext) (d : Directive) : Action K Unit := do
  let s ← Action.state
  match s.coordinateSystems.get? d.subject with
  | none => warn c d (.undefinedCoordinateSystem d.subject)
  | some t => .change fun s => { s with ctm := { t with active := s.ctm.active } }

/-- The halves that a keyword makes active. -/
def activeHalves? (keyword : String) : Option ActiveHalves :=
  match keyword with
  | "All" => some .all
  | "StartTime" => some .atStart
  | "EndTime" => some .atEnd
  | _ => none

/-- Makes halves of the current transform active. -/
def activate {K : Type} (d : Directive) : Action K Unit :=
  match activeHalves? d.subject with
  | some h => .change fun s => { s with ctm := { s.ctm with active := h } }
  | none => return

/-- Sets the times of the two halves. -/
def setTimes {K : Type} (d : Directive) : Action K Unit :=
  match d.numbers with
  | [a, b] => .change fun s =>
      { s with options := { s.options with startTime := a, stopTime := b } }
  | _ => return

/-! ## Options -/

/-- Makes a render setting. -/
def makeSetting (c : EngineContext) (d : Directive) (kind : SettingKind) : Action K Unit := do
  let params ← registerFiles c d []
  let setting : RenderSetting := ⟨d.subject, params⟩
  .change fun s => { s with options := s.options.set kind setting }
  .emit (.setting kind setting)

/-- Places the camera at the current transform. -/
def placeCamera (c : EngineContext) (d : Directive) : Action K Unit := do
  let params ← registerFiles c d []
  let s ← Action.state
  let setting : RenderSetting := ⟨d.subject, params⟩
  let cameraToWorld := s.ctm.invert
  .change fun s => { s with
    coordinateSystems := s.coordinateSystems.put "camera" cameraToWorld
    options := s.options.setCamera setting cameraToWorld }
  .emit (.camera setting cameraToWorld)

/-- Makes a medium. -/
def makeMedium (c : EngineContext) (d : Directive) : Action K Unit := do
  let params ← registerFiles c d []
  let id ← fresh
  .change fun s => { s with media := s.media.put d.subject id }
  declare ⟨id, d.subject, "medium", params, .other none⟩

/-- Sets the media inside and outside of shapes; one name means both. -/
def setMedia {K : Type} (d : Directive) : Action K Unit :=
  .change fun s => { s with graphics := { s.graphics with
    inside := d.subject
    outside := (d.texts[1]?).getD d.subject } }

/-- The name of a material or a texture that goes by its type. -/
def typedName (type : String) (id : ResourceId) : String :=
  Text.upperCamel type ++ "_" ++ id.text

/-- The world block starts with no transform and the default material. -/
def beginWorld : Action K Unit := do
  .change fun s => { s with phase := .world }
  let s ← Action.state
  if s.options.cameraToWorld.isNone then
    .change fun s => { s with
      options := { s.options with cameraToWorld := some .identity }
      coordinateSystems := s.coordinateSystems.put "camera" .identity }
  .change fun s => { s with
    ctm := .identity
    coordinateSystems := s.coordinateSystems.put "world" .identity }
  let id ← fresh
  declare ⟨id, typedName Known.defaultMaterial id, Known.defaultMaterial, .empty, .material⟩
  .change fun s => { s with graphics := { s.graphics with material := some id } }
  let s ← Action.state
  .emit (.worldBegin s.options)

/-! ## Objects -/

/-- Starts the definition of an object. -/
def beginObject {K : Type} (c : EngineContext) (d : Directive) : Action K Unit := do
  let s ← Action.state
  if s.objects.contains d.subject then warn c d (.objectRedefined d.subject)
  openScope .object
  .change fun s => { s with openObject := some ⟨d.subject, []⟩ }
  .emit (.objectBegin d.subject)

/-- Places an object. -/
def placeObject {K : Type} (c : EngineContext) (d : Directive) : Action K Unit := do
  let s ← Action.state
  match s.objects.get? d.subject with
  | none => warn c d (.undefinedObject d.subject)
  | some o => .emit (.placed o s.ctm)

/-! ## Materials and textures -/

/-- The image file of a texture and its parameters with the full path of the file. -/
def textureImage (c : EngineContext) (d : Directive) (type : String) (params : ParamMap) :
    Action K (Option String × ParamMap) := do
  match (params.strings "filename").head? with
  | some name =>
      if type = "imagemap" ∧ name ≠ "" then
        match ← findFile c d name with
        | some path => return (some path, params.set ⟨"string", "fullpath", .ofString path⟩)
        | none => return (none, params)
      else return (none, params)
  | none => return (none, params)

/-- Makes a texture. -/
def makeTexture (c : EngineContext) (d : Directive) : Action K Unit := do
  match d.texts with
  | [name, valueType, type] => do
      let params ← registerFiles c d ["filename"]
      let id ← fresh
      let image ← textureImage c d type params
      let s ← Action.state
      if s.graphics.textures.contains name then warn c d (.textureRedefined name)
      declare ⟨id, name, type, image.2, .texture valueType image.1 s.ctm.start.matrix⟩
      .change fun s => { s with graphics := { s.graphics with
        textures := s.graphics.textures.put name id } }
  | _ => return

/-- Sets the material of the shapes that follow. -/
def setMaterial {K : Type} (id : Option ResourceId) : Action K Unit :=
  .change fun s => { s with graphics := { s.graphics with material := id } }

/-- Makes a material and uses it. -/
def makeMaterial (c : EngineContext) (d : Directive) : Action K Unit := do
  let type := d.subject
  if Known.unboundMaterials.contains type then setMaterial none
  else if Known.materialTypes.contains type then
    let params ← registerFiles c d []
    let id ← fresh
    declare ⟨id, typedName type id, type, params, .material⟩
    setMaterial (some id)
  else warn c d (.unknownMaterial type)

/-- Makes a material for later use. -/
def makeNamedMaterial (c : EngineContext) (d : Directive) : Action K Unit := do
  let name := d.subject
  match (d.params.strings "type").head? with
  | none => warn c d (.materialWithoutType name)
  | some type =>
      if Known.materialTypes.contains type then
        let s ← Action.state
        if s.graphics.namedMaterials.contains name then warn c d (.materialRedefined name)
        let params ← registerFiles c d []
        let id ← fresh
        declare ⟨id, name, type, params, .material⟩
        .change fun s => { s with graphics := { s.graphics with
          namedMaterials := s.graphics.namedMaterials.put name id } }
      else warn c d (.unknownMaterial type)

/-- Uses a material made before. -/
def useNamedMaterial {K : Type} (c : EngineContext) (d : Directive) : Action K Unit := do
  let name := d.subject
  if Known.unboundMaterials.contains name then setMaterial none
  else
    let s ← Action.state
    match s.graphics.namedMaterials.get? name with
    | none => warn c d (.undefinedMaterial name)
    | some id => setMaterial (some id)

/-! ## Lights and shapes -/

/-- Makes a light and places it. -/
def placeLight (c : EngineContext) (d : Directive) : Action K Unit := do
  let type := d.subject
  if Known.lightTypes.contains type then
    let params ← registerFiles c d []
    let id ← fresh
    let light : Resource K := ⟨id, Text.upperCamel type ++ "Light", type, params, .light⟩
    declare light
    let s ← Action.state
    .emit (.light light s.ctm)
  else warn c d (.unknownLight type)

/-- Makes an area light for the next shape. -/
def makeAreaLight (c : EngineContext) (d : Directive) : Action K Unit := do
  let type := d.subject
  if Known.areaLightTypes.contains type then
    let params ← registerFiles c d []
    let id ← fresh
    let light : Resource K := ⟨id, "AreaLight", type, params, .light⟩
    declare light
    .change fun s => { s with graphics := { s.graphics with areaLight := some light } }
  else warn c d (.unknownLight type)

/-- The shape of a mesh file, made when the file is first asked for. -/
def meshShape (c : EngineContext) (d : Directive) : Action K (Option (Resource K)) := do
  match (d.params.strings "filename").head? with
  | none =>
      warn c d (.assetNotFound "")
      return none
  | some name =>
      match ← findFile c d name with
      | none => return none
      | some path =>
          let s ← Action.state
          match s.meshes.get? path with
          | some r => return some r
          | none =>
              let id ← fresh
              let r : Resource K := ⟨id, (Path.ofText path).stem, "plymesh",
                d.params.set ⟨"string", "fullpath", .ofString path⟩, .shape (some path)⟩
              .change fun s => { s with meshes := s.meshes.put path r }
              declare r
              return some r

/-- The shape of any other type; the levels of subdivision go by one name. -/
def plainShape (type name : String) (params : ParamMap) : Action K (Option (Resource K)) := do
  let params := if type = "loopsubdiv" then (params.rename "levels" "nlevels").2 else params
  let id ← fresh
  let r : Resource K := ⟨id, name, type, params, .shape none⟩
  declare r
  return some r

/-- A shape in the current state. -/
def statementOf {K : Type} (s : EngineState K) (r : Resource K) (span : Option Span) :
    ShapeStatement K :=
  ⟨r, s.ctm, s.graphics.material, s.graphics.areaLight, s.graphics.reversed,
   s.options.startTime, s.options.stopTime, s.graphics.inside, s.graphics.outside, span⟩

/-- The transform that was current where the open object began. -/
def objectBase (s : EngineState K) : TransformSet K :=
  match s.scopes.find? (fun scope => decide (scope.kind = .object)) with
  | some scope => scope.ctm
  | none => .identity

/-- Places a shape in the world, or adds it to the open object with the transforms since
the object began. -/
def addStatement (st : ShapeStatement K) : Action K Unit := do
  let s ← Action.state
  match s.openObject with
  | some o =>
      let st := { st with transform := st.transform.relativeTo (objectBase s) }
      .change fun s => { s with openObject := some { o with shapes := o.shapes ++ [st] } }
  | none => .emit (.shape st)

/-- Makes a statement of a shape.  It takes the pending area light, which an animated
shape drops. -/
def stateShape (c : EngineContext) (d : Directive) (r : Resource K) : Action K Unit := do
  let s ← Action.state
  let st := statementOf s r d.span
  .change fun s => { s with graphics := { s.graphics with areaLight := none } }
  if st.areaLight.isSome && st.transform.isAnimated then
    warn c d .animatedAreaLight
    addStatement { st with areaLight := none }
  else addStatement st

/-- Makes a shape and states it. -/
def makeShape (c : EngineContext) (d : Directive) : Action K Unit := do
  let type := d.subject
  match Known.shapeName? type with
  | none => warn c d (.unknownShape type)
  | some name =>
      let made ← if type = "plymesh" then meshShape c d else plainShape type name d.params
      match made with
      | none => return
      | some r => stateShape c d r

/-! ## Directives -/

/-- What an admitted directive does. -/
def perform (c : EngineContext) (d : Directive) : Action K Unit :=
  match d.name with
  | .identity => .change fun s => { s with ctm := s.ctm.replace .identity }
  | .translate => move c d false
  | .scale => move c d false
  | .rotate => move c d false
  | .lookAt => move c d false
  | .concatTransform => move c d false
  | .transform => move c d true
  | .coordinateSystem => .change fun s =>
      { s with coordinateSystems := s.coordinateSystems.put d.subject s.ctm }
  | .coordSysTransform => useCoordinateSystem c d
  | .activeTransform => activate d
  | .transformTimes => setTimes d
  | .pixelFilter => makeSetting c d .pixelFilter
  | .film => makeSetting c d .film
  | .sampler => makeSetting c d .sampler
  | .accelerator => makeSetting c d .accelerator
  | .integrator => makeSetting c d .integrator
  | .camera => placeCamera c d
  | .makeNamedMedium => makeMedium c d
  | .mediumInterface => setMedia d
  | .worldBegin => beginWorld
  | .worldEnd => endWorld (c.whereIs d).1
  | .attributeBegin => openScope .attributes
  | .attributeEnd => closeScope
  | .transformBegin => openScope .transform
  | .transformEnd => closeScope
  | .objectBegin => beginObject c d
  | .objectEnd => closeScope
  | .objectInstance => placeObject c d
  | .texture => makeTexture c d
  | .material => makeMaterial c d
  | .makeNamedMaterial => makeNamedMaterial c d
  | .namedMaterial => useNamedMaterial c d
  | .lightSource => placeLight c d
  | .areaLightSource => makeAreaLight c d
  | .reverseOrientation => .change fun s =>
      { s with graphics := { s.graphics with reversed := !s.graphics.reversed } }
  | .shape => makeShape c d
  | .includeFile => warn c d (.includeNotExpanded d.subject)
  | .workDirBegin => .change fun s => { s with dirs := s.dirs.push (Path.ofText d.subject) }
  | .workDirEnd => .change fun s =>
      { s with dirs := ((s.dirs.pop?).map (·.2)).getD s.dirs }

/-- Reports the start, once. -/
def begin {K : Type} (c : EngineContext) : Action K Unit := do
  let s ← Action.state
  if s.begun then return
  else
    .change fun s => { s with begun := true }
    .emit (.begin c.source)

/-- Closes what is still open at the end of the input. -/
def finish {K : Type} : Action K Unit := do
  let s ← Action.state
  match s.phase with
  | .options => .note (Caution.noWorld.diagnostic .unknown none)
  | .world => endWorld .unknown
  | .ended => pure ()
  .emit .finish

/-- What executing directives comes to: the state, what was reported, and the rejection
of the directive that ended it. -/
structure Progress (K : Type) where
  state : EngineState K
  events : List (Event K)
  notes : Diagnostics
  rejection : Option (Rejection K)

/-- What an action comes to. -/
def Progress.ofAction {K : Type} (a : Action K Unit) (s : EngineState K) : Progress K :=
  ⟨(a.run s).state, (a.run s).events, (a.run s).notes, none⟩

/-- More progress after some. -/
def Progress.andThen {K : Type} (p : Progress K) (f : EngineState K → Progress K) : Progress K :=
  match p.rejection with
  | some _ => p
  | none =>
      let q := f p.state
      ⟨q.state, p.events ++ q.events, p.notes ++ q.notes, q.rejection⟩

/-! ## Refusals

A directive is refused where it is handled: first for the phase, and then by its own
handler, which looks at the blocks, the directories or the transform that it is about. -/

/-- Goes on, unless a fault was found. -/
def orRefuse {K : Type} (c : EngineContext) (d : Directive) (fault? : Option Fault)
    (s : EngineState K) : Progress K :=
  ⟨s, [], [], fault?.map fun f => .scene ⟨f, (c.whereIs d).1, (c.whereIs d).2⟩⟩

/-- Refuses a directive that is out of place in the phase. -/
def checkPhase {K : Type} (c : EngineContext) (d : Directive) (s : EngineState K) : Progress K :=
  orRefuse c d (phaseFault? s.phase d.name) s

/-- Closes the innermost block, which has to be of the given kind. -/
def leave {K : Type} (c : EngineContext) (d : Directive) (kind : ScopeKind)
    (s : EngineState K) : Progress K :=
  (orRefuse c d (closeFault? s kind) s).andThen (.ofAction closeScope)

/-- Starts the definition of an object outside of all others. -/
def enterObject {K : Type} (c : EngineContext) (d : Directive) (s : EngineState K) :
    Progress K :=
  (orRefuse c d (s.openObject.map fun o => .nestedObject d.subject o.name) s).andThen
    (.ofAction (beginObject c d))

/-- Places an object outside of all definitions. -/
def instantiate {K : Type} (c : EngineContext) (d : Directive) (s : EngineState K) :
    Progress K :=
  (orRefuse c d (s.openObject.map fun _ => .instanceInObject d.subject) s).andThen
    (.ofAction (placeObject c d))

/-- Goes back to the directory before, which has to be there. -/
def leaveDirectory {K : Type} (c : EngineContext) (d : Directive) (s : EngineState K) :
    Progress K :=
  match s.dirs.pop? with
  | none => orRefuse c d (some (.unmatchedEnd d.name.text)) s
  | some (_, dirs) => ⟨{ s with dirs := dirs }, [], [], none⟩

/-- Moves by a transform, which has to have a matrix or else be known to be degenerate. -/
def transformBy (c : EngineContext) (d : Directive) (replaces : Bool) (s : EngineState K) :
    Progress K :=
  match motionFault? d with
  | some f => ⟨s, [], [], some (.transform f)⟩
  | none => .ofAction (move c d replaces) s

/-- Does what a directive asks for, or refuses it. -/
def handle (c : EngineContext) (d : Directive) (s : EngineState K) : Progress K :=
  match d.name with
  | .translate => transformBy c d false s
  | .scale => transformBy c d false s
  | .rotate => transformBy c d false s
  | .lookAt => transformBy c d false s
  | .concatTransform => transformBy c d false s
  | .transform => transformBy c d true s
  | .attributeEnd => leave c d .attributes s
  | .transformEnd => leave c d .transform s
  | .objectBegin => enterObject c d s
  | .objectEnd => leave c d .object s
  | .objectInstance => instantiate c d s
  | .workDirEnd => leaveDirectory c d s
  | _ => .ofAction (perform c d) s

/-- Handles a directive that is in its place. -/
def attempt (c : EngineContext) (d : Directive) (s : EngineState K) : Progress K :=
  (checkPhase c d s).andThen (handle c d)

/-! ## Runs -/

/-- Executes one directive. -/
def execute (c : EngineContext) (d : Directive) (s : EngineState K) : Progress K :=
  (Progress.ofAction (begin c) s).andThen (attempt c d)

/-- Executes directives up to the first that is refused. -/
def executeAll (c : EngineContext) : List Directive → EngineState K → Progress K
  | [], s => ⟨s, [], [], none⟩
  | d :: ds, s => (execute c d s).andThen (executeAll c ds)

/-- Reads a whole scene. -/
def run (c : EngineContext) (ds : List Directive) (s : EngineState K) : Progress K :=
  ((Progress.ofAction (begin c) s).andThen (executeAll c ds)).andThen (Progress.ofAction finish)

end Engine
end SceneReader
