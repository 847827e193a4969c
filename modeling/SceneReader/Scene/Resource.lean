import SceneReader.Algebra.Matrix
import SceneReader.Param.Map

/-!
# Resources

Shapes, materials, textures, lights and files are declared once and referred to by an
identity.  The identity of a declared resource is the count of those made before it.
-/

namespace SceneReader

/-- What a resource is known by. -/
inductive ResourceId where
  /-- The resource made in this place of the order of making. -/
  | made (count : Nat)
  /-- A resource from elsewhere. -/
  | outside (name : String)
deriving DecidableEq

/-- An identity as text. -/
def ResourceId.text : ResourceId → String
  | made n => "#" ++ toString n
  | outside name => name

/-- The kinds of resources, in the order of the tables that hold them. -/
inductive ResourceKind where
  | shape
  | material
  | texture
  | light
  | other
deriving DecidableEq

namespace ResourceKind

/-- All kinds in order. -/
def all : List ResourceKind := [.shape, .material, .texture, .light, .other]

/-- The word for a kind. -/
def text : ResourceKind → String
  | shape => "shape"
  | material => "material"
  | texture => "texture"
  | light => "light"
  | other => "other"

/-- The word for resources of a kind. -/
def plural : ResourceKind → String
  | shape => "shapes"
  | material => "materials"
  | texture => "textures"
  | light => "lights"
  | other => "others"

/-- The kind of a word. -/
def ofText? (s : String) : Option ResourceKind := all.find? (fun k => k.text == s)

end ResourceKind

/-- What belongs to the resources of one kind alone. -/
inductive ResourceDetail (K : Type) where
  /-- The file that the shape is read from, if it is. -/
  | shape (file : Option String)
  | material
  /-- The type of the values, the image file and the transform of the surface. -/
  | texture (valueType : String) (file : Option String) (transform : Matrix4 K)
  | light
  /-- A file of any other sort, or a medium. -/
  | other (file : Option String)

namespace ResourceDetail

/-- The kind that the detail belongs to. -/
def kind {K : Type} : ResourceDetail K → ResourceKind
  | shape _ => .shape
  | material => .material
  | texture _ _ _ => .texture
  | light => .light
  | other _ => .other

/-- The file that the resource is read from. -/
def file? {K : Type} : ResourceDetail K → Option String
  | shape file => file
  | texture _ file _ => file
  | other file => file
  | _ => none

/-- Resources of this kind may be read from files. -/
def hasFile {K : Type} : ResourceDetail K → Bool
  | material => false
  | light => false
  | _ => true

end ResourceDetail

/-- A declared resource. -/
structure Resource (K : Type) where
  id : ResourceId
  name : String
  type : String
  params : ParamMap
  detail : ResourceDetail K

namespace Resource

/-- The kind of a resource. -/
def kind {K : Type} (r : Resource K) : ResourceKind := r.detail.kind

end Resource

/-- Why a resource is not added. -/
structure DeclaredTwice where
  kind : ResourceKind
  id : ResourceId

/-- The message about a second declaration. -/
def DeclaredTwice.message (e : DeclaredTwice) : String :=
  e.kind.text ++ " " ++ e.id.text ++ " declared twice"

/-- Declared resources, those of each kind in the order of their declaration. -/
structure ResourceTable (K : Type) where
  declared : List (Resource K)

namespace ResourceTable

variable {K : Type}

/-- No resources. -/
def empty : ResourceTable K := ⟨[]⟩

/-- The resources of one kind. -/
def ofKind (t : ResourceTable K) (k : ResourceKind) : List (Resource K) :=
  t.declared.filter (fun r => decide (r.kind = k))

/-- All resources, kind by kind. -/
def all (t : ResourceTable K) : List (Resource K) :=
  ResourceKind.all.flatMap t.ofKind

/-- How many resources there are. -/
def size (t : ResourceTable K) : Nat := t.declared.length

/-- How many resources of each kind there are. -/
def counts (t : ResourceTable K) : List (String × Nat) :=
  ResourceKind.all.map (fun k => (k.plural, (t.ofKind k).length))

/-- Adds a resource, unless there is one of its kind with its identity. -/
def add (t : ResourceTable K) (r : Resource K) : Except DeclaredTwice (ResourceTable K) :=
  if (t.ofKind r.kind).any (fun q => decide (q.id = r.id)) then .error ⟨r.kind, r.id⟩
  else .ok ⟨t.declared ++ [r]⟩

/-- The resource of an identity. -/
def get? (t : ResourceTable K) (id : ResourceId) : Option (Resource K) :=
  t.all.find? (fun r => decide (r.id = id))

/-- The resources of a kind and a name. -/
def named (t : ResourceTable K) (k : ResourceKind) (name : String) : List (Resource K) :=
  (t.ofKind k).filter (fun r => r.name == name)

/-- The table with the parameters of the lights of an identity changed. -/
def adjustLight (t : ResourceTable K) (id : ResourceId) (f : ParamMap → ParamMap) :
    ResourceTable K :=
  ⟨t.declared.map (fun r =>
    if r.kind = .light ∧ r.id = id then { r with params := f r.params } else r)⟩

end ResourceTable
end SceneReader
