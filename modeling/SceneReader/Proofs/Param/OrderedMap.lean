import Mathlib.Logic.Function.Basic
import SceneReader.Proofs.Param.Keys
import SceneReader.Proofs.Param.Names

/-!
# Parameter maps as ordered maps

A parameter map is meant as an ordered finite map: to each of its names it has a declared type and
a value, and its names stand in a row.  Here such a map is an order together with a function on
all names.  It answers requests by what is written in a key, and a parameter map answers them by
going through its parameters.  The two give the same answers to any row of requests, and what they
hold afterwards is the same.

**Results.**
* `OrderedMap.toParamMap_put`, `OrderedMap.toParamMap_erase`: changes of the one and of the other.
* `OrderedMap.Step.respond_eq`: one request.
* `respondAll_empty_iff`: any row of requests.
-/

namespace SceneReader

/-! ## Parameter maps by names -/

namespace ParamMap

variable {m m' : ParamMap} {name : String}

theorem lookup?_eq_none_iff : m.lookup? name = none ↔ name ∉ m.names := by
  rw [mem_names_iff, Option.not_isSome_iff_eq_none]

/-- The parameters of a map are what it finds under its names. -/
theorem entries_eq_filterMap (h : m.names.Nodup) : m.entries = m.names.filterMap m.lookup? := by
  have hself : ∀ p ∈ m.entries, (m.lookup? ∘ Param.name) p = some p :=
    fun p hp => lookup?_of_mem h hp
  rw [names, List.filterMap_map, List.filterMap_congr hself, List.filterMap_some]

/-- Maps with the same names in the same order are the same if they find the same. -/
theorem ext_of_lookup? (hdistinct : m.names.Nodup) (hnames : m.names = m'.names)
    (hlookup : ∀ name, m.lookup? name = m'.lookup? name) : m = m' := by
  have hentries : m.entries = m'.entries := by
    rw [entries_eq_filterMap hdistinct, entries_eq_filterMap (hnames ▸ hdistinct), hnames,
      funext hlookup]
  exact congrArg mk hentries

theorem find?_setIn (p : Param) (ps : List Param) (name : String) :
    (setIn p ps).find? (fun q => q.name == name) =
      if name = p.name then some p else ps.find? (fun q => q.name == name) := by
  induction ps with
  | nil =>
      by_cases hname : name = p.name
      · simp [setIn, hname]
      · simp [setIn, hname, Ne.symm hname]
  | cons q ps ih =>
      unfold setIn
      split
      · rename_i hq
        by_cases hname : p.name = name
        · simp [hname]
        · have hne : ¬ name = p.name := fun h => hname h.symm
          simp [hname, hq, hne]
      · rename_i hq
        by_cases hname : q.name = name
        · have hne : ¬ name = p.name := fun h => hq (hname.trans h)
          simp [hname, hne]
        · simp [hname, ih]

/-- What is found after a parameter was set. -/
theorem lookup?_set (m : ParamMap) (p : Param) (name : String) :
    (m.set p).lookup? name = if name = p.name then some p else m.lookup? name :=
  find?_setIn p m.entries name

/-- What is found after a parameter was removed. -/
theorem lookup?_erase (h : m.names.Nodup) (gone name : String) :
    (m.erase gone).lookup? name = if name = gone then none else m.lookup? name := by
  rw [lookup?, erase, eraseP_eq_filter h, List.find?_filter]
  by_cases hname : name = gone
  · rw [if_pos hname, List.find?_eq_none]
    rintro q -
    simp [hname]
  · rw [if_neg hname, lookup?]
    congr 1
    funext q
    by_cases hq : q.name = name
    · simp [hq, hname]
    · simp [hq]

theorem names_erase (h : m.names.Nodup) (gone : String) :
    (m.erase gone).names = m.names.filter fun name => name != gone := by
  rw [names, erase, eraseP_eq_filter h, names, List.filter_map]
  rfl

end ParamMap

/-! ## Ordered maps -/

/-- An order of names, and to each of them a declared type and a value. -/
structure OrderedMap where
  order : List String
  find : String → Option (String × Property)
  distinct : order.Nodup
  mem_order : ∀ name, name ∈ order ↔ (find name).isSome = true

namespace OrderedMap

/-- No names. -/
def empty : OrderedMap := ⟨[], fun _ => none, List.nodup_nil, by simp⟩

/-- Puts a type and a value under a name: a present name stays in its place, a new one goes to
the end. -/
def put (o : OrderedMap) (name : String) (entry : String × Property) : OrderedMap where
  order := if name ∈ o.order then o.order else o.order ++ [name]
  find := Function.update o.find name (some entry)
  distinct := by
    split
    · exact o.distinct
    · rename_i hnew
      exact List.nodup_append.mpr ⟨o.distinct, List.nodup_singleton _, by
        rintro other hother _ hlast rfl
        exact hnew (List.mem_singleton.mp hlast ▸ hother)⟩
  mem_order other := by
    by_cases hother : other = name
    · subst hother
      split <;> simp_all
    · rw [Function.update_of_ne hother, ← o.mem_order]
      split <;> simp [hother]

/-- Takes a name out of the order; the others stay as they are. -/
def erase (o : OrderedMap) (name : String) : OrderedMap where
  order := o.order.filter fun other => other != name
  find := Function.update o.find name none
  distinct := o.distinct.filter _
  mem_order other := by
    by_cases hother : other = name
    · subst hother
      simp
    · rw [Function.update_of_ne hother, ← o.mem_order]
      simp [hother]

/-- What is under a name, as a parameter. -/
def param? (o : OrderedMap) (name : String) : Option Param :=
  (o.find name).map fun entry => ⟨entry.1, name, entry.2⟩

/-- The parameters in order. -/
def toParamMap (o : OrderedMap) : ParamMap := ⟨o.order.filterMap o.param?⟩

variable {o o' : OrderedMap} {name : String}

theorem param?_put (o : OrderedMap) (name : String) (entry : String × Property)
    (other : String) : (o.put name entry).param? other =
      if other = name then some ⟨entry.1, name, entry.2⟩ else o.param? other := by
  by_cases hother : other = name
  · simp [param?, put, hother]
  · simp [param?, put, hother]

theorem param?_erase (o : OrderedMap) (gone other : String) :
    (o.erase gone).param? other = if other = gone then none else o.param? other := by
  by_cases hother : other = gone
  · simp [param?, erase, hother]
  · simp [param?, erase, hother]

theorem name_of_param? {p : Param} (h : o.param? name = some p) : p.name = name := by
  obtain ⟨entry, -, rfl⟩ := Option.map_eq_some_iff.mp h
  rfl

@[simp] theorem names_toParamMap (o : OrderedMap) : o.toParamMap.names = o.order := by
  have hname : ∀ name ∈ o.order, (o.param? name).map (·.name) = some name := by
    intro name hmem
    obtain ⟨entry, hentry⟩ := Option.isSome_iff_exists.mp ((o.mem_order name).mp hmem)
    rw [param?, hentry]
    rfl
  rw [ParamMap.names, toParamMap, List.map_filterMap, List.filterMap_congr hname,
    List.filterMap_some]

theorem distinct_toParamMap (o : OrderedMap) : o.toParamMap.names.Nodup := by
  rw [names_toParamMap]
  exact o.distinct

@[simp] theorem lookup?_toParamMap (o : OrderedMap) (name : String) :
    o.toParamMap.lookup? name = o.param? name := by
  cases hp : o.param? name with
  | none =>
      rw [ParamMap.lookup?_eq_none_iff, names_toParamMap, o.mem_order]
      rw [param?, Option.map_eq_none_iff] at hp
      simp [hp]
  | some p =>
      have hname := name_of_param? hp
      have hmem : p ∈ o.toParamMap.entries := by
        refine List.mem_filterMap.mpr ⟨name, (o.mem_order name).mpr ?_, hp⟩
        obtain ⟨entry, hentry, -⟩ := Option.map_eq_some_iff.mp hp
        exact Option.isSome_of_eq_some hentry
      rw [← hname]
      exact ParamMap.lookup?_of_mem o.distinct_toParamMap hmem

/-- Putting an entry under a name is setting a parameter. -/
theorem toParamMap_put (o : OrderedMap) (name type : String) (value : Property) :
    (o.put name (type, value)).toParamMap = o.toParamMap.set ⟨type, name, value⟩ := by
  refine ParamMap.ext_of_lookup? (distinct_toParamMap _) ?_ fun other => ?_
  · rw [names_toParamMap]
    by_cases hmem : name ∈ o.order
    · rw [ParamMap.names_set_of_mem (by rwa [names_toParamMap]), names_toParamMap]
      exact if_pos hmem
    · rw [ParamMap.names_set_of_not_mem (by rwa [names_toParamMap]), names_toParamMap]
      exact if_neg hmem
  · rw [ParamMap.lookup?_set, lookup?_toParamMap, lookup?_toParamMap, param?_put]

/-- Taking a name out of the order is removing its parameter. -/
theorem toParamMap_erase (o : OrderedMap) (name : String) :
    (o.erase name).toParamMap = o.toParamMap.erase name := by
  refine ParamMap.ext_of_lookup? (distinct_toParamMap _) ?_ fun other => ?_
  · rw [names_toParamMap, ParamMap.names_erase o.distinct_toParamMap, names_toParamMap]
    rfl
  · rw [ParamMap.lookup?_erase o.distinct_toParamMap, lookup?_toParamMap, lookup?_toParamMap,
      param?_erase]

end OrderedMap

/-! ## Requests -/

namespace ParamMap

/-- The requests that a map answers. -/
inductive Request where
  | insert (key : String) (value : Property)
  | remove (key : String)
  | get (key : String)
  | typeOf (key : String)
  | contains (key : String)

/-- What a map answers. -/
inductive Answer where
  | done
  | malformed (e : MalformedKey)
  | value (value? : Option Property)
  | type (type? : Option String)
  | isIn (b : Bool)

/-- The answer to a request, and the map after it. -/
def respond (m : ParamMap) : Request → Answer × ParamMap
  | .insert key value =>
      match m.insert key value with
      | .ok m' => (.done, m')
      | .error e => (.malformed e, m)
  | .remove key => (.value (m.remove key).1, (m.remove key).2)
  | .get key => (.value (m.get? key), m)
  | .typeOf key => (.type (m.typeOf? key), m)
  | .contains key => (.isIn (m.contains key), m)

/-- The answers to requests, one after the other, and the map after them. -/
def respondAll (m : ParamMap) : List Request → List Answer × ParamMap
  | [] => ([], m)
  | r :: rs => ((m.respond r).1 :: ((m.respond r).2.respondAll rs).1,
      ((m.respond r).2.respondAll rs).2)

end ParamMap

namespace OrderedMap

open ParamMap (Request Answer)

/-- What a key finds: what is under its name, whatever type it declares, and nothing if it is
malformed. -/
inductive Finds (o : OrderedMap) (key : String) : Option (String × Property) → Prop
  | named {type name : String} (hkey : KeyOf key type name) : Finds o key (o.find name)
  | malformed (hkey : IsMalformed key) : Finds o key none

/-- One request, its answer, and the map after it. -/
inductive Step (o : OrderedMap) : Request → Answer → OrderedMap → Prop
  | insert {key type name : String} {value : Property} (hkey : KeyOf key type name) :
      Step o (.insert key value) .done (o.put name (type, value))
  | insertMalformed {key : String} {value : Property} (hkey : IsMalformed key) :
      Step o (.insert key value) (.malformed ⟨key⟩) o
  | remove {key type name : String} (hkey : KeyOf key type name) :
      Step o (.remove key) (.value ((o.find name).map (·.2))) (o.erase name)
  | removeMalformed {key : String} (hkey : IsMalformed key) :
      Step o (.remove key) (.value none) o
  | get {key : String} {found : Option (String × Property)} (hfinds : o.Finds key found) :
      Step o (.get key) (.value (found.map (·.2))) o
  | typeOf {key : String} {found : Option (String × Property)} (hfinds : o.Finds key found) :
      Step o (.typeOf key) (.type (found.map (·.1))) o
  | contains {key : String} {found : Option (String × Property)} (hfinds : o.Finds key found) :
      Step o (.contains key) (.isIn found.isSome) o

/-- Requests one after the other. -/
inductive Run : OrderedMap → List Request → List Answer → OrderedMap → Prop
  | nil (o : OrderedMap) : Run o [] [] o
  | cons {o o' o'' : OrderedMap} {r : Request} {rs : List Request} {a : Answer} {as : List Answer}
      (hstep : Step o r a o') (hrun : Run o' rs as o'') : Run o (r :: rs) (a :: as) o''

variable {o o' : OrderedMap} {r : Request} {a : Answer} {rs : List Request} {as : List Answer}

theorem exists_finds (o : OrderedMap) (key : String) : ∃ found, o.Finds key found := by
  rcases isMalformed_or_keyOf key with hkey | ⟨type, name, hkey⟩
  · exact ⟨_, .malformed hkey⟩
  · exact ⟨_, .named hkey⟩

/-- What a key finds is the same in a parameter map, but for the name. -/
theorem Finds.map_entry? {key : String} {found : Option (String × Property)}
    (h : o.Finds key found) :
    (o.toParamMap.entry? key).map (fun p => (p.type, p.value)) = found := by
  cases h with
  | named hkey =>
      rw [ParamMap.entry?, ParamMap.nameOf?_of_keyOf hkey, Option.bind_some, lookup?_toParamMap,
        param?, Option.map_map]
      exact Option.map_id'
  | malformed hkey =>
      rw [ParamMap.entry?, ParamMap.nameOf?_of_isMalformed hkey]
      rfl

/-- Every request has an answer. -/
theorem exists_step (o : OrderedMap) (r : Request) : ∃ a o', o.Step r a o' := by
  cases r with
  | insert key value =>
      rcases isMalformed_or_keyOf key with hkey | ⟨type, name, hkey⟩
      · exact ⟨_, _, .insertMalformed hkey⟩
      · exact ⟨_, _, .insert hkey⟩
  | remove key =>
      rcases isMalformed_or_keyOf key with hkey | ⟨type, name, hkey⟩
      · exact ⟨_, _, .removeMalformed hkey⟩
      · exact ⟨_, _, .remove hkey⟩
  | get key =>
      obtain ⟨found, hfinds⟩ := o.exists_finds key
      exact ⟨_, _, .get hfinds⟩
  | typeOf key =>
      obtain ⟨found, hfinds⟩ := o.exists_finds key
      exact ⟨_, _, .typeOf hfinds⟩
  | contains key =>
      obtain ⟨found, hfinds⟩ := o.exists_finds key
      exact ⟨_, _, .contains hfinds⟩

theorem exists_run (o : OrderedMap) (rs : List Request) : ∃ as o', o.Run rs as o' := by
  induction rs generalizing o with
  | nil => exact ⟨[], o, .nil o⟩
  | cons r rs ih =>
      obtain ⟨a, o', hstep⟩ := o.exists_step r
      obtain ⟨as, o'', hrun⟩ := ih o'
      exact ⟨a :: as, o'', .cons hstep hrun⟩

/-- A parameter map answers a request as the ordered map does, and keeps to it. -/
theorem Step.respond_eq (h : o.Step r a o') : o.toParamMap.respond r = (a, o'.toParamMap) := by
  cases h with
  | insert hkey =>
      rw [ParamMap.respond, ParamMap.insert, splitKey_eq_ok_iff.mpr hkey, toParamMap_put]
      rfl
  | insertMalformed hkey =>
      rw [ParamMap.respond, ParamMap.insert, splitKey_of_isMalformed hkey]
      rfl
  | remove hkey =>
      simp only [ParamMap.respond, ParamMap.remove, ParamMap.nameOf?_of_keyOf hkey,
        lookup?_toParamMap, param?, Option.map_map, toParamMap_erase]
      rfl
  | removeMalformed hkey =>
      rw [ParamMap.respond, ParamMap.remove, ParamMap.nameOf?_of_isMalformed hkey]
  | get hfinds =>
      rw [ParamMap.respond, ParamMap.get?, ← hfinds.map_entry?, Option.map_map]
      rfl
  | typeOf hfinds =>
      rw [ParamMap.respond, ParamMap.typeOf?, ← hfinds.map_entry?, Option.map_map]
      rfl
  | contains hfinds =>
      rw [ParamMap.respond, ParamMap.contains, ← hfinds.map_entry?, Option.isSome_map]

theorem Run.respondAll_eq (h : o.Run rs as o') :
    o.toParamMap.respondAll rs = (as, o'.toParamMap) := by
  induction h with
  | nil o => rfl
  | cons hstep hrun ih => rw [ParamMap.respondAll, hstep.respond_eq, ih]

end OrderedMap

/-- From the empty map on, the answers to any row of requests and the map after them are those of
the ordered map. -/
theorem ParamMap.respondAll_empty_iff {rs : List Request} {as : List Answer} {m : ParamMap} :
    ParamMap.empty.respondAll rs = (as, m) ↔
      ∃ o, OrderedMap.empty.Run rs as o ∧ m = o.toParamMap := by
  have hempty : OrderedMap.empty.toParamMap = ParamMap.empty := rfl
  constructor
  · intro h
    obtain ⟨as', o, hrun⟩ := OrderedMap.empty.exists_run rs
    have hrun' := hrun.respondAll_eq
    rw [hempty, h] at hrun'
    cases hrun'
    exact ⟨o, hrun, rfl⟩
  · rintro ⟨o, hrun, rfl⟩
    rw [← hempty]
    exact hrun.respondAll_eq

end SceneReader
