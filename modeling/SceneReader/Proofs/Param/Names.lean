import Mathlib.Data.List.Induction
import Mathlib.Data.List.Nodup
import SceneReader.Proofs.Directive.Declarations

/-!
# Names in parameter maps

A parameter is found under its name, so a map is of use as long as its names are words and no
two of them are the same.  Three of the four ways to change a map keep this up.  The fourth
one, giving a parameter a new name, takes the name as it stands: it may be no word, or the name
of another parameter.

**Invariant.**  `WellNamed m`: all names of `m` are words, and they are pairwise different.

**Results.**
* `isKeyed_iff`: the keys of a map find their own parameters exactly if its names are words
  that are pairwise different.
* `WellNamed.changed`: the changes that give no new names keep names apart.
* `wellNamed_rename_iff`: a new name does so exactly if it is a word that no other parameter
  has.
* `isKeyed_changedAll_iff`: rows of changes.
-/

namespace SceneReader

/-- The text has no blank. -/
def Text.IsSolid (s : String) : Prop := ∀ c ∈ s.toList, Text.isBlank c = false

instance (s : String) : Decidable (Text.IsSolid s) := List.decidableBAll _ s.toList

theorem Text.isWord_iff {s : String} : Text.IsWord s ↔ s ≠ "" ∧ Text.IsSolid s := by
  rw [Text.IsWord, Text.IsSolid, Ne, String.toList_eq_nil_iff]

/-! ## Keys -/

/-- A key speaks of a name that is a word, and declares no type with a blank. -/
theorem isWord_of_splitKey {key type name : String} (h : splitKey key = .ok (type, name)) :
    Text.IsWord name ∧ Text.IsSolid type := by
  have hwords : ∀ w ∈ Text.words key, Text.IsWord w := fun w => Text.isWord_of_mem_words
  unfold splitKey at h
  split at h
  · rename_i hkey
    cases h
    rw [hkey] at hwords
    exact ⟨hwords _ (by simp), by simp [Text.IsSolid]⟩
  · rename_i hkey
    cases h
    rw [hkey] at hwords
    exact ⟨hwords _ (by simp), (hwords _ (by simp)).2⟩
  · cases h

/-- The key of a type and a name speaks of the name. -/
theorem splitKey_makeKey {type name : String} (htype : Text.IsSolid type)
    (hname : Text.IsWord name) : splitKey (makeKey type name) = .ok (type, name) := by
  unfold makeKey
  by_cases hnone : type = ""
  · rw [if_pos (String.isEmpty_iff.mpr hnone), splitKey, Text.words_word hname, hnone]
  · have hword : Text.IsWord type := Text.isWord_iff.mpr ⟨hnone, htype⟩
    rw [if_neg (mt String.isEmpty_iff.mp hnone), splitKey, Text.words_pair hword hname]

namespace ParamMap

theorem isWord_of_nameOf? {key name : String} (h : nameOf? key = some name) :
    Text.IsWord name := by
  unfold nameOf? at h
  split at h
  · rename_i hkey
    cases h
    exact (isWord_of_splitKey hkey).1
  · cases h

theorem nameOf?_key {p : Param} (htype : Text.IsSolid p.type) (hname : Text.IsWord p.name) :
    nameOf? p.key = some p.name := by
  rw [nameOf?, Param.key, splitKey_makeKey htype hname]

theorem name_of_lookup? {m : ParamMap} {name : String} {p : Param}
    (h : m.lookup? name = some p) : p.name = name := by
  simpa using List.find?_some h

/-- What a key finds is named by a word, and stands before all others of the name. -/
theorem entry?_eq_some {m : ParamMap} {key : String} {p : Param} (h : m.entry? key = some p) :
    Text.IsWord p.name ∧ m.lookup? p.name = some p := by
  obtain ⟨name, hname, hp⟩ := Option.bind_eq_some_iff.mp h
  rw [name_of_lookup? hp]
  exact ⟨isWord_of_nameOf? hname, hp⟩

/-! ## What names are for -/

/-- The values by key; of several parameters with one key the last one. -/
def toTable (m : ParamMap) : Table Property :=
  m.entries.foldl (fun t p => t.put p.key p.value) .empty

/-- Parameters are told apart by their names: these are pairwise different and have no blanks,
the key of every parameter finds it, and by keys no parameter gets lost. -/
structure IsKeyed (m : ParamMap) : Prop where
  distinct : m.names.Nodup
  solid : ∀ name ∈ m.names, Text.IsSolid name
  found : ∀ p ∈ m.entries, m.entry? p.key = some p
  complete : m.toTable.entries = m.entries.map fun p => (p.key, p.value)

/-- All names are words, and they are pairwise different. -/
structure WellNamed (m : ParamMap) : Prop where
  words : ∀ name ∈ m.names, Text.IsWord name
  distinct : m.names.Nodup

/-- No declared type has a blank. -/
def WellTyped (m : ParamMap) : Prop := ∀ p ∈ m.entries, Text.IsSolid p.type

theorem lookup?_of_mem {m : ParamMap} (h : m.names.Nodup) {p : Param} (hp : p ∈ m.entries) :
    m.lookup? p.name = some p := by
  obtain ⟨as, bs, hsplit, -⟩ := List.eq_append_cons_of_mem hp
  rw [names, hsplit, List.map_append, List.map_cons, List.nodup_append] at h
  obtain ⟨-, -, hapart⟩ := h
  refine List.find?_eq_some_iff_append.mpr ⟨by simp, as, bs, hsplit, fun q hq => ?_⟩
  simpa using hapart q.name (List.mem_map_of_mem hq) p.name List.mem_cons_self

/-- Values that are put under pairwise different names all stay. -/
theorem entries_foldl_put {α : Type} (ps : List (String × α)) (t : Table α)
    (h : (t.names ++ ps.map (·.1)).Nodup) :
    (ps.foldl (fun t p => t.put p.1 p.2) t).entries = t.entries ++ ps := by
  induction ps generalizing t with
  | nil => simp
  | cons p ps ih =>
      have hnew : p.1 ∉ t.names := by
        intro hmem
        exact (List.nodup_append.mp h).2.2 _ hmem _ List.mem_cons_self rfl
      have hput : (t.put p.1 p.2).entries = t.entries ++ [p] := Table.putIn_of_not_mem p.2 hnew
      rw [List.foldl_cons, ih, hput, List.append_assoc]
      · rfl
      · rw [Table.names_put_of_not_mem t hnew, List.append_assoc]
        exact h

/-- The keys of a map are pairwise different where its names are. -/
theorem nodup_keys {m : ParamMap} (h : m.WellNamed) (htypes : m.WellTyped) : m.keys.Nodup := by
  have hnames : m.keys.map nameOf? = m.names.map some := by
    rw [keys, names, List.map_map, List.map_map]
    refine List.map_congr_left fun p hp => ?_
    exact nameOf?_key (htypes p hp) (h.words p.name (List.mem_map_of_mem hp))
  refine List.Nodup.of_map nameOf? ?_
  rw [hnames]
  exact h.distinct.map (Option.some_injective _)

theorem WellNamed.isKeyed {m : ParamMap} (h : m.WellNamed) (htypes : m.WellTyped) :
    m.IsKeyed where
  distinct := h.distinct
  solid name hname := (h.words name hname).2
  found p hp := by
    have hname := h.words p.name (List.mem_map_of_mem hp)
    unfold entry?
    rw [nameOf?_key (htypes p hp) hname]
    exact lookup?_of_mem h.distinct hp
  complete := by
    have hkeys := nodup_keys h htypes
    have hput := entries_foldl_put (m.entries.map fun p => (p.key, p.value)) .empty
      (by simpa [Table.names, Table.empty, Function.comp_def, keys] using hkeys)
    rw [List.foldl_map] at hput
    exact hput

/-- A key finds nothing that is named by no word, so a map in which every key finds its
parameter is well named. -/
theorem IsKeyed.wellNamed {m : ParamMap} (h : m.IsKeyed) : m.WellNamed where
  words := by
    intro name hname
    obtain ⟨p, hp, rfl⟩ := List.mem_map.mp hname
    exact (entry?_eq_some (h.found p hp)).1
  distinct := h.distinct

theorem isKeyed_iff {m : ParamMap} (htypes : m.WellTyped) : m.IsKeyed ↔ m.WellNamed :=
  ⟨IsKeyed.wellNamed, fun h => h.isKeyed htypes⟩

/-! ## Changes -/

/-- What can be asked of a map. -/
inductive Change where
  | insert (key : String) (value : Property)
  | remove (key : String)
  | rename (key new : String)
  /-- To go on with a copy. -/
  | copy

/-- The map after a change; under a malformed key nothing is inserted. -/
def changed (m : ParamMap) : Change → ParamMap
  | .insert key value =>
      match m.insert key value with
      | .ok m' => m'
      | .error _ => m
  | .remove key => (m.remove key).2
  | .rename key new => (m.rename key new).2
  | .copy => m

/-- The map after changes, one after the other. -/
def changedAll (m : ParamMap) (changes : List Change) : ParamMap := changes.foldl changed m

/-- The parameter of the key, if there is one, can have the new name: it is a word, and no
other parameter has it. -/
def Takes (m : ParamMap) (key new : String) : Prop :=
  ∀ p, m.entry? key = some p → Text.IsWord new ∧ (new ∈ m.names → new = p.name)

variable {m : ParamMap}

/-! ### Insertion -/

theorem mem_setIn {p q : Param} {ps : List Param} (h : q ∈ setIn p ps) : q = p ∨ q ∈ ps := by
  induction ps with
  | nil => exact Or.inl (List.mem_singleton.mp h)
  | cons r ps ih =>
      unfold setIn at h
      split at h
      · exact (List.mem_cons.mp h).imp_right (List.mem_cons_of_mem _)
      · rcases List.mem_cons.mp h with rfl | h
        · exact Or.inr List.mem_cons_self
        · exact (ih h).imp_right (List.mem_cons_of_mem _)

theorem WellTyped.set (h : m.WellTyped) {p : Param} (hp : Text.IsSolid p.type) :
    (m.set p).WellTyped := by
  intro q hq
  rcases mem_setIn hq with rfl | hq
  · exact hp
  · exact h q hq

/-- A parameter under a word takes the place of the one with its name, or a new place. -/
theorem WellNamed.set (h : m.WellNamed) {p : Param} (hp : Text.IsWord p.name) :
    (m.set p).WellNamed := by
  by_cases hmem : p.name ∈ m.names
  · constructor
    · rw [names_set_of_mem hmem]
      exact h.words
    · rw [names_set_of_mem hmem]
      exact h.distinct
  · constructor
    · rw [names_set_of_not_mem hmem]
      intro name hname
      rcases List.mem_append.mp hname with hname | hname
      · exact h.words name hname
      · rw [List.mem_singleton.mp hname]
        exact hp
    · rw [names_set_of_not_mem hmem]
      refine List.nodup_append.mpr ⟨h.distinct, List.nodup_singleton _, ?_⟩
      rintro name hname _ hlast rfl
      exact hmem (List.mem_singleton.mp hlast ▸ hname)

/-- What is inserted is named by a word. -/
theorem exists_set_of_insert {key : String} {value : Property} {m' : ParamMap}
    (h : m.insert key value = .ok m') :
    ∃ p : Param, m' = m.set p ∧ Text.IsWord p.name ∧ Text.IsSolid p.type := by
  unfold insert at h
  cases hkey : splitKey key with
  | error e =>
      rw [hkey] at h
      cases h
  | ok k =>
      rw [hkey] at h
      cases h
      exact ⟨_, rfl, isWord_of_splitKey hkey⟩

/-! ### Removal -/

theorem remove_sublist (m : ParamMap) (key : String) :
    (m.remove key).2.entries.Sublist m.entries := by
  unfold remove
  split
  · exact List.Sublist.refl _
  · exact List.eraseP_sublist

/-- Of parameters with different names, the one of a name is left out. -/
theorem eraseP_eq_filter {ps : List Param} (h : (ps.map (·.name)).Nodup) (name : String) :
    ps.eraseP (fun p => p.name == name) = ps.filter fun p => p.name != name := by
  induction ps with
  | nil => rfl
  | cons p ps ih =>
      obtain ⟨hp, hps⟩ := List.nodup_cons.mp h
      by_cases hname : p.name = name
      · rw [List.eraseP_cons_of_pos (by simp [hname]), List.filter_cons_of_neg (by simp [hname])]
        refine (List.filter_eq_self.mpr fun q hq => bne_iff_ne.mpr ?_).symm
        intro hsame
        exact hp (List.mem_map.mpr ⟨q, hq, hsame.trans hname.symm⟩)
      · rw [List.eraseP_cons_of_neg (by simp [hname]), List.filter_cons_of_pos (by simp [hname]),
          ih hps]

theorem WellNamed.of_sublist {m' : ParamMap} (h : m.WellNamed)
    (hsub : m'.entries.Sublist m.entries) : m'.WellNamed := by
  have hnames : m'.names.Sublist m.names := hsub.map _
  exact ⟨fun name hname => h.words name (hnames.subset hname), h.distinct.sublist hnames⟩

/-! ### New names -/

theorem renameIn_append {old : String} (new : String) {as : List Param} {p : Param}
    (bs : List Param) (has : ∀ q ∈ as, q.name ≠ old) (hp : p.name = old) :
    renameIn old new (as ++ p :: bs) = as ++ { p with name := new } :: bs := by
  induction as with
  | nil => rw [List.nil_append, renameIn, if_pos hp, List.nil_append]
  | cons q as ih =>
      obtain ⟨hq, hrest⟩ := List.forall_mem_cons.mp has
      rw [List.cons_append, renameIn, if_neg hq, ih hrest, List.cons_append]

/-- A key that finds a parameter changes the name of this one and nothing else. -/
theorem rename_split {key : String} (new : String) {p : Param} (h : m.entry? key = some p) :
    ∃ as bs, m.entries = as ++ p :: bs ∧
      (m.rename key new).2.entries = as ++ { p with name := new } :: bs := by
  obtain ⟨-, as, bs, hsplit, has⟩ := List.find?_eq_some_iff_append.mp (entry?_eq_some h).2
  refine ⟨as, bs, hsplit, ?_⟩
  rw [rename, h]
  dsimp only
  rw [hsplit]
  exact renameIn_append new bs (fun q hq => by simpa using has q hq) rfl

theorem rename_of_entry?_eq_none {key : String} (new : String) (h : m.entry? key = none) :
    (m.rename key new).2 = m := by
  rw [rename, h]

/-- One element of a list without repetitions is changed. -/
theorem nodup_changed_iff {α : Type} {as bs : List α} {a b : α} (h : (as ++ a :: bs).Nodup) :
    (as ++ b :: bs).Nodup ↔ (b ∈ as ++ a :: bs → b = a) := by
  rw [List.nodup_middle, List.nodup_cons] at h
  rw [List.nodup_middle, List.nodup_cons, List.perm_middle.mem_iff, List.mem_cons]
  constructor
  · rintro ⟨hb, -⟩ hmem
    exact hmem.resolve_right hb
  · intro hsame
    refine ⟨fun hmem => h.1 ?_, h.2⟩
    rw [← hsame (Or.inr hmem)]
    exact hmem

/-- A map is well named after a new name is given exactly if the parameter can have it. -/
theorem wellNamed_rename_iff (h : m.WellNamed) (key new : String) :
    (m.rename key new).2.WellNamed ↔ m.Takes key new := by
  cases hp : m.entry? key with
  | none =>
      rw [rename_of_entry?_eq_none new hp]
      exact ⟨fun _ p hp' => by simp [hp] at hp', fun _ => h⟩
  | some p =>
      obtain ⟨as, bs, hsplit, hrenamed⟩ := rename_split new hp
      have hnames : m.names = as.map (·.name) ++ p.name :: bs.map (·.name) := by
        simp [names, hsplit]
      have hnames' : (m.rename key new).2.names = as.map (·.name) ++ new :: bs.map (·.name) := by
        simp [names, hrenamed]
      obtain ⟨hwords, hdistinct⟩ := h
      rw [hnames] at hdistinct hwords
      rw [List.forall_mem_append, List.forall_mem_cons] at hwords
      have htakes : m.Takes key new ↔
          Text.IsWord new ∧ (m.rename key new).2.names.Nodup := by
        rw [hnames', nodup_changed_iff hdistinct, ← hnames]
        simp [Takes, hp]
      rw [htakes]
      constructor
      · rintro ⟨hall, hapart⟩
        exact ⟨hall new (by simp [hnames']), hapart⟩
      · rintro ⟨hnew, hapart⟩
        refine ⟨?_, hapart⟩
        rw [hnames', List.forall_mem_append, List.forall_mem_cons]
        exact ⟨hwords.1, hnew, hwords.2.2⟩

/-- A parameter can have the name of another one only if there is none. -/
theorem takes_iff {name new : String} (hname : Text.IsWord name) (hnew : Text.IsWord new)
    (hne : new ≠ name) : m.Takes name new ↔ ¬ (name ∈ m.names ∧ new ∈ m.names) := by
  have hentry : m.entry? name = m.lookup? name := by
    unfold entry?
    rw [nameOf?, splitKey, Text.words_word hname]
    rfl
  constructor
  · rintro htakes ⟨hmem, hnewmem⟩
    obtain ⟨p, hp⟩ := Option.isSome_iff_exists.mp (mem_names_iff.mp hmem)
    exact hne (((htakes p (hentry.trans hp)).2 hnewmem).trans (name_of_lookup? hp))
  · intro hnot p hp
    refine ⟨hnew, fun hnewmem => absurd ⟨mem_names_iff.mpr ?_, hnewmem⟩ hnot⟩
    rw [← hentry, hp]
    rfl

/-- Names and types are what they are declared to be. -/
theorem WellDeclared.wellNamed (h : m.WellDeclared) : m.WellNamed ∧ m.WellTyped := by
  have hdeclared : ∀ p ∈ m.entries, Text.IsWord p.name ∧ Text.IsSolid p.type := by
    intro p hp
    obtain ⟨hname, ⟨-, htype⟩ | ⟨-, htype⟩⟩ :=
      Parser.declaration?_cases (h.declared p hp).declaration
    · exact ⟨hname, by simp [htype, Text.IsSolid]⟩
    · exact ⟨hname, htype.2⟩
  refine ⟨⟨fun name hname => ?_, h.distinct⟩, fun p hp => (hdeclared p hp).2⟩
  obtain ⟨p, hp, rfl⟩ := List.mem_map.mp hname
  exact (hdeclared p hp).1

/-! ### Rows of changes -/

theorem WellTyped.changed (h : m.WellTyped) (change : Change) : (m.changed change).WellTyped := by
  cases change with
  | insert key value =>
      unfold ParamMap.changed
      dsimp only
      split
      · rename_i m' hm'
        obtain ⟨p, rfl, -, htype⟩ := exists_set_of_insert hm'
        exact h.set htype
      · exact h
  | remove key => exact fun p hp => h p ((remove_sublist m key).subset hp)
  | rename key new =>
      change (m.rename key new).2.WellTyped
      cases hp : m.entry? key with
      | none =>
          rw [rename_of_entry?_eq_none new hp]
          exact h
      | some p =>
          obtain ⟨as, bs, hsplit, hrenamed⟩ := rename_split new hp
          unfold WellTyped at h ⊢
          rw [hsplit, List.forall_mem_append, List.forall_mem_cons] at h
          rw [hrenamed, List.forall_mem_append, List.forall_mem_cons]
          exact h
  | copy => exact h

/-- Changes keep names apart, but for new names that a parameter cannot have. -/
theorem WellNamed.changed (h : m.WellNamed) (change : Change)
    (htakes : ∀ key new, change = .rename key new → m.Takes key new) :
    (m.changed change).WellNamed := by
  cases change with
  | insert key value =>
      unfold ParamMap.changed
      dsimp only
      split
      · rename_i m' hm'
        obtain ⟨p, rfl, hname, -⟩ := exists_set_of_insert hm'
        exact h.set hname
      · exact h
  | remove key => exact h.of_sublist (remove_sublist m key)
  | rename key new => exact (wellNamed_rename_iff h key new).mpr (htakes key new rfl)
  | copy => exact h

theorem changedAll_concat (m : ParamMap) (changes : List Change) (change : Change) :
    m.changedAll (changes ++ [change]) = (m.changedAll changes).changed change := by
  simp [changedAll]

theorem WellTyped.changedAll (h : m.WellTyped) (changes : List Change) :
    (m.changedAll changes).WellTyped := by
  induction changes using List.reverseRecOn with
  | nil => exact h
  | append_singleton changes change ih =>
      rw [changedAll_concat]
      exact ih.changed change

/-- Names are kept apart all along a row of changes exactly if each new name that is given can
be had. -/
theorem wellNamed_changedAll_iff (h : m.WellNamed) (changes : List Change) :
    (∀ before, before <+: changes → (m.changedAll before).WellNamed) ↔
      ∀ before key new, before ++ [.rename key new] <+: changes →
        (m.changedAll before).Takes key new := by
  constructor
  · intro hall before key new hprefix
    have hbefore := hall before ((List.prefix_append _ _).trans hprefix)
    have hafter := hall _ hprefix
    rw [changedAll_concat] at hafter
    exact (wellNamed_rename_iff hbefore key new).mp hafter
  · intro htakes before
    induction before using List.reverseRecOn with
    | nil => exact fun _ => h
    | append_singleton before change ih =>
        intro hprefix
        rw [changedAll_concat]
        refine (ih ((List.prefix_append _ _).trans hprefix)).changed change ?_
        rintro key new rfl
        exact htakes before key new hprefix

/-- What is made from entries is well named, and so are its types. -/
theorem wellNamed_ofEntries {es : List (String × Property)} (h : ofEntries es = .ok m) :
    m.WellNamed ∧ m.WellTyped := by
  have hfrom : ∀ start : ParamMap, start.WellNamed → start.WellTyped →
      es.foldlM (fun m e => m.insert e.1 e.2) start = .ok m → m.WellNamed ∧ m.WellTyped := by
    clear h
    induction es with
    | nil =>
        intro start hnames htypes h
        cases h
        exact ⟨hnames, htypes⟩
    | cons e es ih =>
        intro start hnames htypes h
        rw [List.foldlM_cons] at h
        cases hinsert : start.insert e.1 e.2 with
        | error f =>
            rw [hinsert] at h
            cases h
        | ok m' =>
            rw [hinsert] at h
            obtain ⟨p, rfl, hname, htype⟩ := exists_set_of_insert hinsert
            exact ih _ (hnames.set hname) (htypes.set htype) h
  exact hfrom empty ⟨nofun, List.nodup_nil⟩ nofun h

/-- The keys of a map made from entries find their own parameters all along a row of changes
exactly if each new name that is given can be had. -/
theorem isKeyed_changedAll_iff {es : List (String × Property)} (h : ofEntries es = .ok m)
    (changes : List Change) :
    (∀ before, before <+: changes → (m.changedAll before).IsKeyed) ↔
      ∀ before key new, before ++ [.rename key new] <+: changes →
        (m.changedAll before).Takes key new := by
  obtain ⟨hnames, htypes⟩ := wellNamed_ofEntries h
  rw [← wellNamed_changedAll_iff hnames]
  exact forall₂_congr fun before _ => isKeyed_iff (htypes.changedAll before)

end ParamMap
end SceneReader
