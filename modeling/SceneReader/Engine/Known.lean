/-!
# Known type names

The types of shapes, lights and materials that scenes may ask for, and the parameters
that name files.
-/

namespace SceneReader
namespace Known

/-- Types of shapes, with the names that resources of these types get. -/
def shapeNames : List (String × String) :=
  [("trianglemesh", "Mesh"), ("plymesh", "Mesh"), ("sphere", "Sphere"), ("disk", "Disk"),
   ("cylinder", "Cylinder"), ("cone", "Cone"), ("paraboloid", "Paraboloid"),
   ("hyperboloid", "Hyperboloid"), ("loopsubdiv", "Subdiv"), ("bilinearmesh", "Mesh"),
   ("curve", "Curve")]

/-- The name of shapes of a type. -/
def shapeName? (type : String) : Option String := shapeNames.lookup type

/-- Types of lights. -/
def lightTypes : List String :=
  ["point", "spot", "goniometric", "projection", "distant", "infinite"]

/-- Types of area lights. -/
def areaLightTypes : List String := ["diffuse", "area"]

/-- Types of materials. -/
def materialTypes : List String :=
  ["matte", "plastic", "metal", "glass", "mirror", "uber", "substrate", "disney",
   "translucent", "hair", "kdsubsurface", "subsurface", "fourier", "mix", "interface",
   "conductor", "dielectric", "thindielectric", "diffuse", "coateddiffuse",
   "coatedconductor", "diffusetransmission", "measured"]

/-- Names that leave shapes without a material. -/
def unboundMaterials : List String := ["", "none"]

/-- The type of the material that a world starts with. -/
def defaultMaterial : String := "matte"

/-- Parameters that name files. -/
def fileParameters : List String := ["bsdffile", "lensfile", "mapname", "filename"]

end Known
end SceneReader
