/-!
# Tables by name

A table holds values under names, in the order in which the names first came.  Putting a
value under a present name replaces the old value in its place.

**Results.**
* `get?_put_self`, `get?_put_of_ne`: a name has the value put under it last.
* `names_put_of_mem`, `names_put_of_not_mem`: a present name keeps its place, a new one
  goes to the end.
* `mem_values_of_get?`, `mem_values_put`: the values that are found, and those after
  putting one.
* `size_put`, `getD_tally`: how many values there are, and how often names occur.
* `get?_map`, `put_map`: finding and putting commute with changing all values.
-/

namespace SceneReader

/-- Values by name. -/
structure Table (α : Type) where
  entries : List (String × α)

namespace Table

variable {α : Type}

/-- No values. -/
def empty : Table α := ⟨[]⟩

/-- How many values there are. -/
def size (t : Table α) : Nat := t.entries.length

/-- The names in order. -/
def names (t : Table α) : List String := t.entries.map (·.1)

/-- The values in order. -/
def values (t : Table α) : List α := t.entries.map (·.2)

/-- The value of a name in a list of entries. -/
def find (name : String) : List (String × α) → Option α
  | [] => none
  | e :: es => if e.1 = name then some e.2 else find name es

/-- Entries with a value put under a name. -/
def putIn (name : String) (value : α) : List (String × α) → List (String × α)
  | [] => [(name, value)]
  | e :: es => if e.1 = name then (name, value) :: es else e :: putIn name value es

/-- The value of a name. -/
def get? (t : Table α) (name : String) : Option α := find name t.entries

/-- There is a value of the name. -/
def contains (t : Table α) (name : String) : Bool := (t.get? name).isSome

/-- Puts a value under a name. -/
def put (t : Table α) (name : String) (value : α) : Table α := ⟨putIn name value t.entries⟩

/-- All values changed by a function. -/
def map {β : Type} (f : α → β) (t : Table α) : Table β :=
  ⟨t.entries.map fun e => (e.1, f e.2)⟩

/-- How often each name occurs, in the order of first occurrence. -/
def tally (names : List String) : Table Nat :=
  names.foldl (fun t n => t.put n ((t.get? n).getD 0 + 1)) empty

theorem find_putIn_self (name : String) (value : α) (es : List (String × α)) :
    find name (putIn name value es) = some value := by
  induction es with
  | nil => simp [putIn, find]
  | cons e es ih =>
      unfold putIn
      split
      · simp [find]
      · rename_i h
        simp [find, h, ih]

theorem find_putIn_of_ne {name other : String} (h : other ≠ name) (value : α)
    (es : List (String × α)) : find other (putIn name value es) = find other es := by
  induction es with
  | nil => simp [putIn, find, h.symm]
  | cons e es ih =>
      unfold putIn
      split
      · rename_i he
        simp [find, he, h.symm]
      · simp [find, ih]

theorem get?_put_self (t : Table α) (name : String) (value : α) :
    (t.put name value).get? name = some value :=
  find_putIn_self name value t.entries

theorem get?_put_of_ne (t : Table α) {name other : String} (h : other ≠ name) (value : α) :
    (t.put name value).get? other = t.get? other :=
  find_putIn_of_ne h value t.entries

theorem putIn_names_of_mem {name : String} (value : α) {es : List (String × α)}
    (h : name ∈ es.map (·.1)) : (putIn name value es).map (·.1) = es.map (·.1) := by
  induction es with
  | nil => simp at h
  | cons e es ih =>
      unfold putIn
      split
      · rename_i he
        simp [he]
      · rename_i he
        simp only [List.map_cons, List.mem_cons] at h
        rcases h with h | h
        · exact absurd h.symm he
        · simp [ih h]

theorem names_put_of_mem (t : Table α) {name : String} (h : name ∈ t.names) (value : α) :
    (t.put name value).names = t.names :=
  putIn_names_of_mem value h

theorem putIn_of_not_mem {name : String} (value : α) {es : List (String × α)}
    (h : name ∉ es.map (·.1)) : putIn name value es = es ++ [(name, value)] := by
  induction es with
  | nil => rfl
  | cons e es ih =>
      simp only [List.map_cons, List.mem_cons, not_or] at h
      unfold putIn
      rw [if_neg (fun he => h.1 he.symm), ih h.2]
      rfl

theorem names_put_of_not_mem (t : Table α) {name : String} (h : name ∉ t.names) (value : α) :
    (t.put name value).names = t.names ++ [name] := by
  have hp : (t.put name value).entries = t.entries ++ [(name, value)] :=
    putIn_of_not_mem value h
  simp [names, hp]

theorem mem_values_of_find {name : String} {value : α} {es : List (String × α)}
    (h : find name es = some value) : value ∈ es.map (·.2) := by
  induction es with
  | nil => cases h
  | cons e es ih =>
      unfold find at h
      split at h
      · cases h
        exact List.mem_cons_self
      · exact List.mem_cons_of_mem _ (ih h)

theorem mem_values_of_get? {t : Table α} {name : String} {value : α}
    (h : t.get? name = some value) : value ∈ t.values :=
  mem_values_of_find h

theorem mem_putIn_values {name : String} {value other : α} {es : List (String × α)}
    (h : other ∈ (putIn name value es).map (·.2)) : other = value ∨ other ∈ es.map (·.2) := by
  induction es with
  | nil => exact Or.inl (List.mem_singleton.mp h)
  | cons e es ih =>
      unfold putIn at h
      split at h
      · rcases List.mem_cons.mp h with h | h
        · exact Or.inl h
        · exact Or.inr (List.mem_cons_of_mem _ h)
      · rcases List.mem_cons.mp h with h | h
        · exact Or.inr (List.mem_cons.mpr (Or.inl h))
        · rcases ih h with h | h
          · exact Or.inl h
          · exact Or.inr (List.mem_cons_of_mem _ h)

/-- The values after putting one are that one and values from before. -/
theorem mem_values_put {t : Table α} {name : String} {value other : α}
    (h : other ∈ (t.put name value).values) : other = value ∨ other ∈ t.values :=
  mem_putIn_values h

theorem find_isSome {name : String} {es : List (String × α)} :
    (find name es).isSome = true ↔ name ∈ es.map (·.1) := by
  induction es with
  | nil => simp [find]
  | cons e es ih =>
      unfold find
      split
      · rename_i he
        simp [he]
      · rename_i he
        rw [ih, List.map_cons, List.mem_cons]
        exact ⟨Or.inr, fun h => h.resolve_left fun hname => he hname.symm⟩

theorem contains_iff {t : Table α} {name : String} : t.contains name = true ↔ name ∈ t.names :=
  find_isSome

/-- Putting a value under a new name adds one to them. -/
theorem size_put (t : Table α) (name : String) (value : α) :
    (t.put name value).size = t.size + if t.contains name then 0 else 1 := by
  have hsize (t : Table α) : t.size = t.names.length := (List.length_map _).symm
  rw [hsize, hsize t]
  by_cases h : name ∈ t.names
  · rw [names_put_of_mem t h, if_pos (contains_iff.mpr h), Nat.add_zero]
  · rw [names_put_of_not_mem t h, if_neg (mt contains_iff.mp h), List.length_append]
    rfl

/-- A tally has for each name how often it occurs. -/
theorem getD_tally (names : List String) (name : String) :
    ((tally names).get? name).getD 0 = names.count name := by
  have hfrom (t : Table Nat) : ((names.foldl (fun t n => t.put n ((t.get? n).getD 0 + 1))
      t).get? name).getD 0 = (t.get? name).getD 0 + names.count name := by
    induction names generalizing t with
    | nil => rfl
    | cons n names ih =>
        rw [List.foldl_cons, ih, List.count_cons]
        by_cases hn : n = name
        · rw [hn, get?_put_self, beq_self_eq_true, if_pos rfl, Option.getD_some]
          omega
        · rw [get?_put_of_ne t fun h => hn h.symm, if_neg (by simpa using hn)]
          omega
  exact (hfrom empty).trans (Nat.zero_add _)

/-! ## Changing all values -/

section Map

variable {β : Type} (f : α → β)

theorem find_map (name : String) (es : List (String × α)) :
    find name (es.map fun e => (e.1, f e.2)) = (find name es).map f := by
  induction es with
  | nil => rfl
  | cons e es ih =>
      rw [List.map_cons, find, find]
      split
      · rfl
      · exact ih

theorem putIn_map (name : String) (value : α) (es : List (String × α)) :
    putIn name (f value) (es.map fun e => (e.1, f e.2)) =
      (putIn name value es).map fun e => (e.1, f e.2) := by
  induction es with
  | nil => rfl
  | cons e es ih =>
      rw [List.map_cons, putIn, putIn]
      split
      · rfl
      · rw [ih, List.map_cons]

@[simp] theorem get?_map (t : Table α) (name : String) :
    (t.map f).get? name = (t.get? name).map f := find_map f name t.entries

@[simp] theorem contains_map (t : Table α) (name : String) :
    (t.map f).contains name = t.contains name := by
  simp [contains]

theorem put_map (t : Table α) (name : String) (value : α) :
    (t.map f).put name (f value) = (t.put name value).map f :=
  congrArg Table.mk (putIn_map f name value t.entries)

end Map

end Table
end SceneReader
