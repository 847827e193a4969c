import SceneReader.Param.Property
import SceneReader.Text.Blank

/-!
# Parameter maps

A parameter has a declared type, a name and a value.  A map keeps its parameters in the
order in which their names first came.  A key is a name, or a type and a name with
blanks between them; the type takes no part in a lookup.

**Results.**
* `names_set_of_mem`, `names_set_of_not_mem`: setting a present name moves nothing, a new
  one goes to the end.
-/

namespace SceneReader

/-- A named value with its declared type, which may be empty. -/
structure Param where
  type : String
  name : String
  value : Property
deriving BEq

/-- A key that is neither a name nor a type and a name. -/
structure MalformedKey where
  key : String

/-- The message about a malformed key. -/
def MalformedKey.message (e : MalformedKey) : String :=
  "malformed parameter key " ++ Text.literal e.key

/-- Type and name of a key; the type of a bare name is empty. -/
def splitKey (key : String) : Except MalformedKey (String × String) :=
  match Text.words key with
  | [name] => .ok ("", name)
  | [type, name] => .ok (type, name)
  | _ => .error ⟨key⟩

/-- The key of a type and a name. -/
def makeKey (type name : String) : String :=
  if type.isEmpty then name else type ++ " " ++ name

/-- The key of a parameter. -/
def Param.key (p : Param) : String := makeKey p.type p.name

/-- Parameters in order. -/
structure ParamMap where
  entries : List Param
deriving BEq

namespace ParamMap

/-- No parameters. -/
def empty : ParamMap := ⟨[]⟩

/-- The number of parameters. -/
def size (m : ParamMap) : Nat := m.entries.length

/-- The names in order. -/
def names (m : ParamMap) : List String := m.entries.map (·.name)

/-- The keys in order. -/
def keys (m : ParamMap) : List String := m.entries.map (·.key)

/-- The parameter of a name. -/
def lookup? (m : ParamMap) (name : String) : Option Param :=
  m.entries.find? (fun p => p.name == name)

/-- The parameters with the first one of the same name replaced, or with a new one at
the end. -/
def setIn (p : Param) : List Param → List Param
  | [] => [p]
  | q :: qs => if q.name = p.name then p :: qs else q :: setIn p qs

/-- Sets a parameter in its place, or at the end. -/
def set (m : ParamMap) (p : Param) : ParamMap := ⟨setIn p m.entries⟩

/-- The name that a key speaks of. -/
def nameOf? (key : String) : Option String :=
  match splitKey key with
  | .ok (_, name) => some name
  | .error _ => none

/-- Sets the parameter of a key; the map is as before if the key is malformed. -/
def insert (m : ParamMap) (key : String) (value : Property) : Except MalformedKey ParamMap :=
  (splitKey key).map (fun k => m.set ⟨k.1, k.2, value⟩)

/-- The parameter of a key. -/
def entry? (m : ParamMap) (key : String) : Option Param :=
  (nameOf? key).bind m.lookup?

/-- The value of a key. -/
def get? (m : ParamMap) (key : String) : Option Property :=
  (m.entry? key).map (·.value)

/-- The declared type of a key. -/
def typeOf? (m : ParamMap) (key : String) : Option String :=
  (m.entry? key).map (·.type)

/-- The key is in the map. -/
def contains (m : ParamMap) (key : String) : Bool :=
  (m.entry? key).isSome

/-- The map without the parameter of a name. -/
def erase (m : ParamMap) (name : String) : ParamMap :=
  ⟨m.entries.eraseP (fun p => p.name == name)⟩

/-- Removes the parameter of a key and returns its value. -/
def remove (m : ParamMap) (key : String) : Option Property × ParamMap :=
  match (nameOf? key) with
  | none => (none, m)
  | some name => ((m.lookup? name).map (·.value), m.erase name)

/-- The first parameter with the old name, under the new one. -/
def renameIn (old new : String) : List Param → List Param
  | [] => []
  | p :: ps => if p.name = old then { p with name := new } :: ps else p :: renameIn old new ps

/-- Gives the parameter of a key a new name, taken as it stands; type, value and place
stay.  Says whether there was such a parameter. -/
def rename (m : ParamMap) (key new : String) : Bool × ParamMap :=
  match m.entry? key with
  | none => (false, m)
  | some p => (true, ⟨renameIn p.name new m.entries⟩)

/-- The numbers of a key; none if its value is of another kind. -/
def floats (m : ParamMap) (key : String) : List Float :=
  match m.get? key with
  | some (.floats xs) => xs.toList
  | _ => []

/-- The integers of a key. -/
def ints (m : ParamMap) (key : String) : List Int :=
  match m.get? key with
  | some (.ints xs) => xs.toList
  | _ => []

/-- The texts of a key. -/
def strings (m : ParamMap) (key : String) : List String :=
  match m.get? key with
  | some (.strings xs) => xs.toList
  | _ => []

/-- The truth values of a key. -/
def bools (m : ParamMap) (key : String) : List Bool :=
  match m.get? key with
  | some (.bools xs) => xs.toList
  | _ => []

/-- The map of a row of keys and values, each inserted in turn. -/
def ofEntries : List (String × Property) → Except MalformedKey ParamMap :=
  List.foldlM (fun m e => m.insert e.1 e.2) empty

theorem names_setIn_of_mem {p : Param} {ps : List Param} (h : p.name ∈ ps.map (·.name)) :
    (setIn p ps).map (·.name) = ps.map (·.name) := by
  induction ps with
  | nil => simp at h
  | cons q qs ih =>
      unfold setIn
      split
      · rename_i hq
        simp [hq]
      · rename_i hq
        simp only [List.map_cons, List.mem_cons] at h
        rcases h with h | h
        · exact absurd h.symm hq
        · simp [ih h]

theorem names_set_of_mem {m : ParamMap} {p : Param} (h : p.name ∈ m.names) :
    (m.set p).names = m.names :=
  names_setIn_of_mem h

theorem setIn_of_not_mem {p : Param} {ps : List Param} (h : p.name ∉ ps.map (·.name)) :
    setIn p ps = ps ++ [p] := by
  induction ps with
  | nil => rfl
  | cons q qs ih =>
      simp only [List.map_cons, List.mem_cons, not_or] at h
      unfold setIn
      rw [if_neg (fun e => h.1 e.symm), ih h.2]
      rfl

theorem names_set_of_not_mem {m : ParamMap} {p : Param} (h : p.name ∉ m.names) :
    (m.set p).names = m.names ++ [p.name] := by
  simp [names, set, setIn_of_not_mem h]

end ParamMap
end SceneReader
