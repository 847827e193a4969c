import SceneReader.Document
import SceneReader.Engine.Event

/-!
# Statistics

How much of what a scene declares, counted from its events: shapes and lights by type,
resources by kind, objects and their instances.
-/

namespace SceneReader

/-- Counts of what was declared and placed. -/
structure Statistics where
  shapes : Table Nat
  lights : Table Nat
  objects : Nat
  instances : Nat
  resources : Table Nat

namespace Event

variable {K : Type}

/-- The types of the shapes that an event places. -/
def shapeTypes : Event K → List String
  | shape st => [st.shape.type]
  | placed o _ => o.shapes.map (·.shape.type)
  | _ => []

/-- The types of the lights that an event places. -/
def lightTypes : Event K → List String
  | light r _ => [r.type]
  | _ => []

/-- The kinds of the resources that an event declares. -/
def declaredKinds : Event K → List String
  | declare r => [r.kind.text]
  | _ => []

/-- The event completes an object. -/
def endsObject : Event K → Bool
  | objectEnd _ => true
  | _ => false

/-- The event places an object. -/
def placesObject : Event K → Bool
  | placed _ _ => true
  | _ => false

end Event

namespace Statistics

/-- The counts for a row of events. -/
def ofEvents {K : Type} (es : List (Event K)) : Statistics :=
  ⟨.tally (es.flatMap Event.shapeTypes), .tally (es.flatMap Event.lightTypes),
   es.countP Event.endsObject, es.countP Event.placesObject,
   .tally (es.flatMap Event.declaredKinds)⟩

/-- The sum of counts. -/
def total (t : Table Nat) : Nat := t.values.foldr (· + ·) 0

/-- Counts for other programs. -/
def countsDocument (t : Table Nat) : Document :=
  .object (t.entries.map fun e => (e.1, .nat e.2))

/-- The statistics for other programs. -/
def document (s : Statistics) : Document :=
  .object [("shapes", countsDocument s.shapes), ("lights", countsDocument s.lights),
    ("objects", .nat s.objects), ("instances", .nat s.instances),
    ("resources", countsDocument s.resources)]

end Statistics
end SceneReader
