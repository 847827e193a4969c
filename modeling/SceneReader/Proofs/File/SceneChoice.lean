import Mathlib.Data.String.Basic
import SceneReader.Proofs.File.Unpacking

/-!
# Which scene an archive gives

What stands below a directory after an archive was unpacked into it can be told from the members.
Files stand where files were written.  Directories stand wherever a name leads through, whether
the directory has a member of its own or was made on the way to another one.

The scene is chosen among all that stands there, by name alone.  So a directory that is named like
a scene is taken for one, if it comes before the files in path order.

**Results.**
* `madeAt_extractMember`, `madeAt_extractAll`: new directories stand on the ways of members.
* `directory_of_extractAll`: the ways of members that were written lead through directories.
* `isDirectory_below_iff`, `isFile_below_iff`: what stands below an empty directory afterwards.
* `exists_firstScene`: the scene is the first in path order of all that is named like one.
-/

namespace SceneReader

/-! ## Ways through directories -/

namespace FileTree

variable {t t' t'' : FileTree} {places : Location → Prop}

/-- A path that leads to something leads through directories. -/
theorem directory_of_follow {l : Location} {ps qs : List String} {r : Found}
    (h : t.follow l ps = r) (hmissing : r ≠ .missing) (hblocked : r ≠ .blocked) (hqs : qs <+: ps)
    (hne : qs ≠ ps) : t.node? (qs.foldl Path.step l) = some .directory := by
  induction ps generalizing l qs with
  | nil => exact absurd (List.prefix_nil.mp hqs) hne
  | cons p ps ih =>
      obtain ⟨hnode, h⟩ := follow_cons h hmissing hblocked
      rcases List.prefix_cons_iff.mp hqs with rfl | ⟨rs, rfl, hrs⟩
      · exact hnode
      · rw [List.foldl_cons]
        exact ih h hrs fun heq => hne (congrArg (p :: ·) heq)

/-- A path that leads to a directory leads through directories. -/
theorem directory_of_follow_directory {l d : Location} {ps qs : List String}
    (h : t.follow l ps = .directory d) (hqs : qs <+: ps) :
    t.node? (qs.foldl Path.step l) = some .directory := by
  by_cases heq : qs = ps
  · obtain ⟨rfl, hnode⟩ := follow_directory h
    rwa [heq]
  · exact directory_of_follow h nofun nofun hqs heq

/-- Below directories, a path without double dots leads to what stands in its place. -/
theorem follow_of_directories {l : Location} {ps : List String} (hup : ".." ∉ ps)
    (h : ∀ qs, qs <+: ps → qs ≠ ps → t.node? (l ++ qs) = some .directory) :
    t.follow l ps = t.follow (l ++ ps) [] := by
  induction ps generalizing l with
  | nil => rw [List.append_nil]
  | cons p ps ih =>
      obtain ⟨hp, hps⟩ := List.ne_and_not_mem_of_not_mem_cons hup
      have hl := h [] List.nil_prefix nofun
      rw [List.append_nil] at hl
      rw [follow_of_directory hl, Path.step, if_neg (Ne.symm hp), ih hps fun qs hqs hne => ?_]
      · rw [List.append_assoc, List.singleton_append]
      · have hcons := h (p :: qs) (List.cons_prefix_cons.mpr ⟨rfl, hqs⟩) (by simpa using hne)
        rwa [List.append_assoc, List.singleton_append]

/-- A directory stays. -/
theorem WritesAt.directory (h : WritesAt places t t') {l : Location}
    (hl : t.node? l = some .directory) : t'.node? l = some .directory := by
  rcases h l with hsame | ⟨hnone, -⟩ | ⟨-, hfree, -⟩
  · exact hsame.trans hl
  · exact absurd (hnone.symm.trans hl) nofun
  · exact absurd hl hfree

/-- New directories are made at the places only. -/
def MadeAt (places : Location → Prop) (t t' : FileTree) : Prop :=
  ∀ l, t'.node? l = some .directory → t.node? l = some .directory ∨ places l

theorem MadeAt.refl (t : FileTree) : MadeAt places t t := fun _ => Or.inl

theorem MadeAt.trans (h : MadeAt places t t') (h' : MadeAt places t' t'') :
    MadeAt places t t'' :=
  fun l hl => (h' l hl).elim (h l) Or.inr

theorem MadeAt.getD {changed : Option FileTree} (h : MadeAt places t t')
    (hchanged : ∀ t'', changed = some t'' → MadeAt places t' t'') :
    MadeAt places t (changed.getD t') := by
  cases changed with
  | none => exact h
  | some t'' => exact h.trans (hchanged t'' rfl)

theorem MadeAt.mono {places' : Location → Prop} (h : MadeAt places t t')
    (hplaces : ∀ l, places l → places' l) : MadeAt places' t t' :=
  fun l hl => (h l hl).imp_right (hplaces l)

theorem madeAt_put_file (l : Location) (bytes : List UInt8) :
    MadeAt places t (t.put l (.file bytes)) := by
  intro l' hl'
  rw [node?_put] at hl'
  split at hl'
  · cases hl'
  · exact Or.inl hl'

theorem madeAt_put_directory {l : Location} (h : places l) :
    MadeAt places t (t.put l .directory) := by
  intro l' hl'
  rw [node?_put] at hl'
  split at hl'
  · rename_i heq
    exact Or.inr (heq ▸ h)
  · exact Or.inl hl'

end FileTree

namespace Archive

open FileTree (WritesAt MadeAt)

variable {t t' : FileTree} {path : Path} {dest : Location} {m : Member} {ms : List Member}

/-! ## The ways of members -/

/-- The path at which a member is written. -/
def memberPath (dest : Location) (m : Member) : Path :=
  (Path.ofLocation dest).join (Path.ofText m.name)

/-- The member is a regular file. -/
def IsRegular (m : Member) : Prop := ∃ bytes, m.kind = .file bytes

/-- The parts of the way to a member: all of its path for a directory, and the directories above it
for a file. -/
def way (dest : Location) (m : Member) : List String :=
  match m.kind with
  | .file _ => (memberPath dest m).parts.dropLast
  | _ => (memberPath dest m).parts

/-- The way to the member leads to the place from the root. -/
def LeadsThrough (dest : Location) (m : Member) (l : Location) : Prop :=
  ∃ ps, ps <+: way dest m ∧ l = ps.foldl Path.step []

theorem prefix_dropLast {ps qs : List String} (h : qs <+: ps) (hne : qs ≠ ps) :
    qs <+: ps.dropLast := by
  rcases List.eq_nil_or_concat ps with rfl | ⟨ps, p, rfl⟩
  · exact absurd (List.prefix_nil.mp h) hne
  · rw [List.concat_eq_append] at h hne
    rw [List.concat_eq_append, List.dropLast_concat]
    exact (List.prefix_concat_iff.mp h).resolve_left hne

/-- What lies above the end of a way was passed on the way. -/
theorem exists_prefix_of_foldl_step {ps : List String} {l : Location}
    (h : l <+: ps.foldl Path.step []) : ∃ qs, qs <+: ps ∧ l = qs.foldl Path.step [] := by
  induction ps using List.reverseRecOn generalizing l with
  | nil => exact ⟨[], List.prefix_refl _, List.prefix_nil.mp h⟩
  | append_singleton ps p ih =>
      by_cases hl : l = (ps ++ [p]).foldl Path.step []
      · exact ⟨ps ++ [p], List.prefix_refl _, hl⟩
      have hearlier : l <+: ps.foldl Path.step [] := by
        rw [List.foldl_append, List.foldl_cons, List.foldl_nil] at h hl
        unfold Path.step at h hl
        split at h
        -- Double dots lead back to what was passed before.
        · exact h.trans (List.dropLast_prefix _)
        · rename_i hp
          rw [if_neg hp] at hl
          exact (List.prefix_concat_iff.mp h).resolve_left hl
      obtain ⟨qs, hqs, heq⟩ := ih hearlier
      exact ⟨qs, hqs.trans (List.prefix_append ps [p]), heq⟩

theorem isAbsolute_memberPath (dest : Location) (m : Member) :
    (memberPath dest m).isAbsolute = true := by
  unfold memberPath Path.join
  split
  · assumption
  · rfl

theorem find_of_isAbsolute {p : Path} (h : p.isAbsolute = true) :
    t.find p = t.follow [] p.parts := by
  rw [FileTree.find, if_pos h]

theorem resolve_of_isAbsolute {p : Path} (h : p.isAbsolute = true) :
    t.resolve p = p.parts.foldl Path.step [] := by
  rw [FileTree.resolve, Path.resolve, if_pos h]

/-- The directory above a path, from the root. -/
theorem find_parent {p : Path} (h : p.isAbsolute = true) :
    t.find p.parent = t.follow [] p.parts.dropLast :=
  find_of_isAbsolute h

theorem makeDirectory?_eq_some {p : Path} (h : makeDirectory? t p = some t') :
    (∃ d, t.find p.parent = .directory d) ∧ t' = t.put (t.resolve p) .directory := by
  unfold makeDirectory? at h
  split at h <;> cases h
  rename_i hmissing hparent
  rw [(FileTree.node?_of_missing hmissing hparent).2]
  exact ⟨⟨_, hparent⟩, rfl⟩

/-- On the way down to a path directories are made on this way. -/
theorem madeAt_makeDirectories (t : FileTree) {p : Path} (h : p.isAbsolute = true) (count : Nat) :
    MadeAt (fun l => ∃ ps, ps <+: p.parts ∧ l = ps.foldl Path.step []) t
      (makeDirectories t p count).1 := by
  induction count generalizing p with
  | zero => exact .refl t
  | succ count ih =>
      have habove : MadeAt (fun l => ∃ ps, ps <+: p.parts ∧ l = ps.foldl Path.step []) t
          (if t.pathExists p.parent then t else (makeDirectories t p.parent count).1) := by
        split
        · exact .refl t
        · refine (ih (p := p.parent) h).mono ?_
          rintro l ⟨ps, hps, rfl⟩
          exact ⟨ps, hps.trans (List.dropLast_prefix p.parts), rfl⟩
      rw [makeDirectories]
      refine habove.getD fun t' hmade => ?_
      rw [(makeDirectory?_eq_some hmade).2]
      exact FileTree.madeAt_put_directory ⟨p.parts, List.prefix_refl _, resolve_of_isAbsolute h⟩

theorem madeAt_makeAbove (t : FileTree) {p : Path} (h : p.isAbsolute = true) (dotted : Bool) :
    MadeAt (fun l => ∃ ps, ps <+: p.parts ∧ l = ps.foldl Path.step []) t
      (makeAbove t p dotted).1 := by
  unfold makeAbove
  split
  · exact .refl t
  · exact madeAt_makeDirectories t h p.parts.length

/-- A member is written after directories were made on its way. -/
theorem exists_writeMember? (h : (extractMember dest t m).2 = true) :
    ∃ t', MadeAt (LeadsThrough dest m) t t' ∧ WritesAt (fun _ => False) t t' ∧
      writeMember? t' (memberPath dest m) m = some (extractMember dest t m).1 := by
  obtain ⟨t'', ht''⟩ := Option.isSome_iff_exists.mp h
  have hmember : (extractMember dest t m).1 = t'' := congrArg (Option.getD · _) ht''
  obtain ⟨-, hwritten⟩ := Option.ite_none_right_eq_some.mp ht''
  refine ⟨_, ?_, writesAt_makeAbove t _ _, hwritten.trans (congrArg some hmember.symm)⟩
  have habsolute := isAbsolute_memberPath dest m
  split
  · rename_i hdot
    refine (madeAt_makeAbove t habsolute _).mono ?_
    rintro l ⟨ps, hps, rfl⟩
    refine ⟨ps, ?_, rfl⟩
    unfold way
    split
    · rename_i bytes hkind
      unfold writeMember? at hwritten
      rw [hkind] at hwritten
      exact absurd hdot (Option.ite_none_left_eq_some.mp hwritten).1
    · exact hps
  · have hparent : (memberPath dest m).parent.isAbsolute = true := habsolute
    refine (madeAt_makeAbove t hparent _).mono ?_
    rintro l ⟨ps, hps, rfl⟩
    refine ⟨ps, ?_, rfl⟩
    unfold way
    split
    · exact hps
    · exact hps.trans (List.dropLast_prefix _)

/-- A file is written below directories. -/
theorem directory_of_filePlace? {p : Path} (h : p.isAbsolute = true) {l : Location}
    (hl : filePlace? t p = some l) (hparts : p.parts ≠ []) {ps : List String}
    (hps : ps <+: p.parts.dropLast) : t.node? (ps.foldl Path.step []) = some .directory := by
  unfold filePlace? at hl
  split at hl
  · rename_i hfile
    rw [find_of_isAbsolute h] at hfile
    refine FileTree.directory_of_follow hfile nofun nofun
      (hps.trans (List.dropLast_prefix _)) fun heq => ?_
    have hlength := hps.length_le
    have hpositive := List.length_pos_iff.mpr hparts
    rw [heq, List.length_dropLast] at hlength
    omega
  · split at hl
    · rename_i hparent
      rw [find_parent h] at hparent
      exact FileTree.directory_of_follow_directory hparent hps
    · cases hl
  · cases hl

/-- What writing a member does: it puts a file below directories, it finds a directory, or it makes
one below others. -/
theorem writeMember?_cases {p : Path} (h : writeMember? t p m = some t') :
    (∃ bytes l, m.kind = .file bytes ∧ filePlace? t p = some l ∧ t' = t.put l (.file bytes)) ∨
      (m.kind = .directory ∧ ((∃ d, t.find p = .directory d) ∧ t' = t ∨
        (∃ d, t.find p.parent = .directory d) ∧ t' = t.put (t.resolve p) .directory)) := by
  cases hkind : m.kind with
  | file bytes =>
      obtain ⟨l, hl, heq⟩ := writeMember?_file hkind h
      exact Or.inl ⟨bytes, l, rfl, hl, heq⟩
  | directory =>
      unfold writeMember? at h
      rw [hkind] at h
      dsimp only at h
      refine Or.inr ⟨rfl, ?_⟩
      split at h
      · rename_i d hfind
        exact Or.inl ⟨⟨d, hfind⟩, (Option.some.inj h).symm⟩
      · exact Or.inr (makeDirectory?_eq_some h)
  | link isPath name =>
      unfold writeMember? at h
      rw [hkind] at h
      cases h

theorem way_of_file {bytes : List UInt8} (h : m.kind = .file bytes) (dest : Location) :
    way dest m = (memberPath dest m).parts.dropLast := by
  simp only [way, h]

theorem way_of_directory (h : m.kind = .directory) (dest : Location) :
    way dest m = (memberPath dest m).parts := by
  simp only [way, h]

/-- A member makes directories on its way. -/
theorem madeAt_extractMember (h : (extractMember dest t m).2 = true) :
    MadeAt (LeadsThrough dest m) t (extractMember dest t m).1 := by
  obtain ⟨t', hmade, -, hwritten⟩ := exists_writeMember? h
  refine hmade.trans ?_
  rcases writeMember?_cases hwritten with
    ⟨bytes, l, -, -, heq⟩ | ⟨hkind, ⟨-, heq⟩ | ⟨-, heq⟩⟩
  · rw [heq]
    exact FileTree.madeAt_put_file l bytes
  · rw [heq]
    exact .refl t'
  · rw [heq, resolve_of_isAbsolute (isAbsolute_memberPath dest m)]
    exact FileTree.madeAt_put_directory
      ⟨_, way_of_directory hkind dest ▸ List.prefix_refl _, rfl⟩

/-- The way to a member that was written leads through directories. -/
theorem directory_of_extractMember (h : (extractMember dest t m).2 = true)
    (hparts : (memberPath dest m).parts ≠ []) {l : Location} (hl : LeadsThrough dest m l) :
    (extractMember dest t m).1.node? l = some .directory := by
  obtain ⟨t', -, -, hwritten⟩ := exists_writeMember? h
  obtain ⟨ps, hps, rfl⟩ := hl
  have habsolute := isAbsolute_memberPath dest m
  rcases writeMember?_cases hwritten with
    ⟨bytes, l, hkind, hl, heq⟩ | ⟨hkind, ⟨⟨d, hd⟩, heq⟩ | ⟨⟨d, hd⟩, heq⟩⟩
  · rw [way_of_file hkind] at hps
    have hnode := directory_of_filePlace? habsolute hl hparts hps
    -- The file is not put on its own way: there is no directory in its place.
    have hother : ps.foldl Path.step [] ≠ l := by
      rintro rfl
      exact (resolve_of_filePlace? hl).2 hnode
    rw [heq, FileTree.node?_put, if_neg hother]
    exact hnode
  · rw [way_of_directory hkind] at hps
    rw [find_of_isAbsolute habsolute] at hd
    rw [heq]
    exact FileTree.directory_of_follow_directory hd hps
  · rw [way_of_directory hkind] at hps
    rw [find_parent habsolute] at hd
    rw [heq, FileTree.node?_put, resolve_of_isAbsolute habsolute]
    split
    · rfl
    · rename_i hother
      have hne : ps ≠ (memberPath dest m).parts := by
        rintro rfl
        exact hother rfl
      exact FileTree.directory_of_follow_directory hd (prefix_dropLast hps hne)

/-- Members make directories on their ways. -/
theorem madeAt_extractAll (h : (extractAll dest t ms).2 = true) :
    MadeAt (fun l => ∃ m ∈ ms, LeadsThrough dest m l) t (extractAll dest t ms).1 := by
  induction ms generalizing t with
  | nil => exact .refl t
  | cons m ms ih =>
      obtain ⟨hfirst, hall⟩ := extractAll_cons h
      rw [hall] at h ⊢
      refine ((madeAt_extractMember hfirst).mono ?_).trans ((ih h).mono ?_)
      · exact fun l hl => ⟨m, List.mem_cons_self, hl⟩
      · rintro l ⟨k, hk, hl⟩
        exact ⟨k, List.mem_cons_of_mem m hk, hl⟩

/-- The ways of members that were written lead through directories. -/
theorem directory_of_extractAll (hdest : ".." ∉ dest) (h : (extractAll dest t ms).2 = true)
    {m : Member} (hm : m ∈ ms) (hparts : (memberPath dest m).parts ≠ []) {l : Location}
    (hl : LeadsThrough dest m l) :
    (extractAll dest t ms).1.node? l = some .directory := by
  induction ms generalizing t with
  | nil => cases hm
  | cons k ms ih =>
      obtain ⟨hfirst, hall⟩ := extractAll_cons h
      rw [hall] at h ⊢
      rcases List.mem_cons.mp hm with rfl | hm
      · have hrest : WritesAt (fun _ => True) (extractMember dest t m).1
            (extractAll dest (extractMember dest t m).1 ms).1 :=
          writesAt_extractAll hdest _ ms fun _ _ _ _ => trivial
        exact hrest.directory (directory_of_extractMember hfirst hparts hl)
      · exact ih h hm

theorem here_getD {changed : Option FileTree} {here : Location} (h : t.here = here)
    (hchanged : ∀ t', changed = some t' → t'.here = t.here) : (changed.getD t).here = here := by
  cases changed with
  | none => exact h
  | some t' => exact (hchanged t' rfl).trans h

theorem here_makeDirectories (t : FileTree) (p : Path) (count : Nat) :
    (makeDirectories t p count).1.here = t.here := by
  induction count generalizing p with
  | zero => rfl
  | succ count ih =>
      rw [makeDirectories]
      refine here_getD ?_ fun t' hmade => ?_
      · split
        · rfl
        · exact ih p.parent
      · rw [(makeDirectory?_eq_some hmade).2]
        rfl

theorem here_makeAbove (t : FileTree) (p : Path) (dotted : Bool) :
    (makeAbove t p dotted).1.here = t.here := by
  unfold makeAbove
  split
  · rfl
  · exact here_makeDirectories t p p.parts.length

theorem here_extractMember (dest : Location) (t : FileTree) (m : Member) :
    (extractMember dest t m).1.here = t.here := by
  unfold extractMember
  refine here_getD (here_makeAbove t _ _) fun t' hwritten => ?_
  obtain ⟨-, hwritten⟩ := Option.ite_none_right_eq_some.mp hwritten
  rcases writeMember?_cases hwritten with
    ⟨bytes, l, -, -, heq⟩ | ⟨-, ⟨-, heq⟩ | ⟨-, heq⟩⟩ <;> rw [heq] <;> rfl

/-- Unpacking does not change the current directory. -/
theorem here_extractAll (dest : Location) (t : FileTree) (ms : List Member) :
    (extractAll dest t ms).1.here = t.here := by
  induction ms generalizing t with
  | nil => rfl
  | cons m ms ih =>
      rw [extractAll]
      split
      · exact (ih _).trans (here_extractMember dest t m)
      · exact here_extractMember dest t m

theorem LeadsThrough.parts_ne_nil {l : Location} (h : LeadsThrough dest m l) (hl : l ≠ []) :
    (memberPath dest m).parts ≠ [] := by
  obtain ⟨ps, hps, rfl⟩ := h
  intro hempty
  have hway : way dest m = [] := by
    unfold way
    split <;> simp [hempty]
  rw [hway] at hps
  exact hl (by rw [List.prefix_nil.mp hps, List.foldl_nil])

/-! ## What stands below an empty directory -/

/-- Nothing stands below the directory, and no file in its place. -/
def IsFree (t : FileTree) (dest : Location) : Prop :=
  ∀ l, dest <+: l → t.node? l = none ∨ l = dest ∧ t.node? l = some .directory

/-- The place is below the directory, which is not below itself. -/
def IsBelow (dest l : Location) : Prop := dest <+: l ∧ l ≠ dest

instance (dest l : Location) : Decidable (IsBelow dest l) := inferInstanceAs (Decidable (_ ∧ _))

theorem IsBelow.ne_nil {l : Location} (h : IsBelow dest l) : l ≠ [] := by
  obtain ⟨hbelow, hne⟩ := h
  rintro rfl
  exact hne (List.prefix_nil.mp hbelow).symm

theorem target_eq (hdest : ".." ∉ dest) (m : Member) :
    target dest m = (memberPath dest m).parts.foldl Path.step [] := by
  rw [← resolve_memberPath hdest (.rooted []) m]
  exact resolve_of_isAbsolute (isAbsolute_memberPath dest m)

theorem IsFree.node?_eq_none (h : IsFree t dest) {l : Location} (hl : IsBelow dest l) :
    t.node? l = none :=
  (h l hl.1).resolve_right fun heq => hl.2 heq.1

section Below

variable (hfree : IsFree t dest) (hdest : ".." ∉ dest) (hall : (extractAll dest t ms).2 = true)

include hfree hdest hall

/-- Directories stand on the ways of members. -/
theorem isDirectory_below_iff {l : Location} (hl : IsBelow dest l) :
    (extractAll dest t ms).1.node? l = some .directory ↔ ∃ m ∈ ms, LeadsThrough dest m l := by
  constructor
  · intro hnode
    refine (madeAt_extractAll hall l hnode).resolve_left fun hold => ?_
    exact absurd ((hfree.node?_eq_none hl).symm.trans hold) nofun
  · rintro ⟨m, hm, hway⟩
    exact directory_of_extractAll hdest hall hm (hway.parts_ne_nil hl.ne_nil) hway

/-- Files stand at the places of regular members. -/
theorem isFile_below_iff {l : Location} (hl : IsBelow dest l) :
    (∃ bytes, (extractAll dest t ms).1.node? l = some (.file bytes)) ↔
      ∃ m ∈ ms, IsRegular m ∧ target dest m = l := by
  constructor
  · rintro ⟨bytes, hnode⟩
    have hwrites : WritesAt (fun l => ∃ m ∈ ms, IsRegular m ∧ target dest m = l) t
        (extractAll dest t ms).1 :=
      writesAt_extractAll hdest t ms fun m hm bytes hkind => ⟨m, hm, ⟨bytes, hkind⟩, rfl⟩
    rcases hwrites l with hsame | ⟨-, hnew⟩ | ⟨hplace, -⟩
    · rw [hfree.node?_eq_none hl, hnode] at hsame
      cases hsame
    · rw [hnode] at hnew
      cases hnew
    · exact hplace
  · rintro ⟨m, hm, ⟨bytes, hkind⟩, rfl⟩
    exact node?_extractAll hdest hall hm hkind

end Below

theorem hasNames_memberPath (h : Path.HasNames dest) (m : Member) :
    Path.HasNames (memberPath dest m).parts := by
  have hname := Path.hasNames_ofText m.name
  unfold memberPath Path.join
  split
  · exact hname
  · exact List.forall_mem_append.mpr ⟨h, hname⟩

theorem hasNames_target (h : Path.HasNames dest) (m : Member) : Path.HasNames (target dest m) :=
  Path.hasNames_resolve h (Path.hasNames_ofText m.name)

theorem LeadsThrough.hasNames {l : Location} (hl : LeadsThrough dest m l)
    (h : Path.HasNames dest) : Path.HasNames l := by
  obtain ⟨ps, hps, rfl⟩ := hl
  have hway : ps ⊆ (memberPath dest m).parts := by
    refine List.Subset.trans hps.subset ?_
    unfold way
    split
    · exact List.dropLast_subset _
    · exact List.Subset.refl _
  refine Path.hasNames_foldl_step (fun p hp => ?_) (List.forall_mem_nil _)
  exact hasNames_memberPath h m p (hway hp)

theorem LeadsThrough.not_mem_dotDot {l : Location} (hl : LeadsThrough dest m l) : ".." ∉ l := by
  obtain ⟨ps, -, rfl⟩ := hl
  exact Path.foldl_step_not_mem_dotDot ps [] List.not_mem_nil

/-- The place of a regular member below the directory leads to its file. -/
theorem isFile_of_extractAll (hdest : ".." ∉ dest) (hall : (extractAll dest t ms).2 = true)
    (hm : m ∈ ms) (hregular : IsRegular m) (hbelow : IsBelow dest (target dest m)) :
    (extractAll dest t ms).1.isFile (.ofLocation (target dest m)) = true := by
  obtain ⟨bytes, hkind⟩ := hregular
  obtain ⟨bytes', hnode⟩ := node?_extractAll hdest hall hm hkind
  have htarget := target_eq hdest m
  have hparts : (memberPath dest m).parts ≠ [] := by
    intro hempty
    rw [hempty] at htarget
    exact hbelow.ne_nil htarget
  have hup : ".." ∉ target dest m := Path.resolve_not_mem_dotDot _ _ hdest
  have hfind : (extractAll dest t ms).1.find (.ofLocation (target dest m)) =
      .file (target dest m) bytes' := by
    rw [find_of_isAbsolute rfl, Path.ofLocation, FileTree.follow_of_directories hup]
    · rw [List.nil_append, FileTree.follow]
      simp only [hnode]
    · intro qs hqs hne
      rw [List.nil_append]
      rw [htarget] at hqs hne
      obtain ⟨rs, hrs, rfl⟩ := exists_prefix_of_foldl_step hqs
      have hrest : rs ≠ (memberPath dest m).parts := by
        rintro rfl
        exact hne rfl
      refine directory_of_extractAll hdest hall hm hparts ⟨rs, ?_, rfl⟩
      rw [way_of_file hkind]
      exact prefix_dropLast hrs hrest
  unfold FileTree.isFile
  rw [hfind]

/-! ## The first scene -/

theorem pathLE_total (l k : Location) : (pathLE l k || pathLE k l) = true := by
  induction l generalizing k with
  | nil => simp [pathLE]
  | cons a l ih =>
      cases k with
      | nil => simp [pathLE]
      | cons b k =>
          rcases lt_trichotomy a b with hlt | rfl | hlt
          · simp [pathLE, hlt]
          · simpa [pathLE] using ih k
          · simp [pathLE, hlt]

theorem pathLE_trans (l k j : Location) (h : pathLE l k = true) (h' : pathLE k j = true) :
    pathLE l j = true := by
  induction l generalizing k j with
  | nil => simp [pathLE]
  | cons a l ih =>
      obtain _ | ⟨b, k⟩ := k
      · simp [pathLE] at h
      obtain _ | ⟨c, j⟩ := j
      · simp [pathLE] at h'
      simp only [pathLE, Bool.or_eq_true, Bool.and_eq_true, decide_eq_true_eq, beq_iff_eq]
        at h h' ⊢
      rcases h with hab | ⟨rfl, h⟩
      · rcases h' with hbc | ⟨rfl, -⟩
        · exact Or.inl (hab.trans hbc)
        · exact Or.inl hab
      · exact h'.imp_right fun ⟨hbc, h'⟩ => ⟨hbc, ih k j h h'⟩

theorem pathLE_antisymm {l k : Location} (h : pathLE l k = true) (h' : pathLE k l = true) :
    l = k := by
  induction l generalizing k with
  | nil =>
      cases k with
      | nil => rfl
      | cons b k => simp [pathLE] at h'
  | cons a l ih =>
      obtain _ | ⟨b, k⟩ := k
      · simp [pathLE] at h
      simp only [pathLE, Bool.or_eq_true, Bool.and_eq_true, decide_eq_true_eq, beq_iff_eq] at h h'
      rcases h with hab | ⟨rfl, h⟩
      · rcases h' with hba | ⟨rfl, -⟩
        · exact absurd (hab.trans hba) (lt_irrefl a)
        · exact absurd hab (lt_irrefl b)
      · rw [ih h (h'.resolve_left (lt_irrefl a)).2]

/-- The place is below the directory and named like a scene. -/
def IsScenePlace (dest l : Location) : Prop :=
  IsBelow dest l ∧ isSceneName (l.getLastD "") = true

instance (dest l : Location) : Decidable (IsScenePlace dest l) :=
  inferInstanceAs (Decidable (_ ∧ _))

theorem mem_scenesBelow {l : Location} :
    l ∈ scenesBelow t dest ↔ IsScenePlace dest l ∧ (t.node? l).isSome = true := by
  have hnode : l ∈ t.nodes.map (·.1) ↔ (t.node? l).isSome = true := by
    simp [FileTree.node?, List.lookup_isSome_iff]
  simp only [scenesBelow, List.mem_mergeSort, List.mem_filter, hnode, IsScenePlace, IsBelow,
    Bool.and_eq_true, List.isPrefixOf_iff_prefix, bne_iff_ne]
  tauto

/-- The last name in a text has the ending of the text. -/
theorem exists_last_splitSlashes {ending : List Char} (h : '/' ∉ ending) (piece cs : List Char) :
    ∃ names name, Path.splitSlashes piece (cs ++ ending) = names ++ [name] ∧
      ending <:+ name.toList := by
  induction cs generalizing piece with
  | nil =>
      refine ⟨[], String.ofList (ending.reverse ++ piece).reverse, ?_, ?_⟩
      · have hsplit := Path.splitSlashes_append h piece []
        rwa [List.append_nil] at hsplit
      · rw [String.toList_ofList, List.reverse_append, List.reverse_reverse]
        exact List.suffix_append _ _
  | cons c cs ih =>
      rw [List.cons_append, Path.splitSlashes]
      split
      · obtain ⟨names, name, hsplit, hname⟩ := ih []
        exact ⟨String.ofList piece.reverse :: names, name, by rw [hsplit, List.cons_append], hname⟩
      · exact ih (c :: piece)

/-- A name like that of a scene ends in a part like it. -/
theorem exists_last_of_isSceneName {name : String} (h : isSceneName name = true) :
    ∃ parts last, (Path.ofText name).parts = parts ++ [last] ∧ isSceneName last = true := by
  obtain ⟨cs, hcs⟩ := List.isSuffixOf_iff_suffix.mp h
  have hslash : '/' ∉ ".pbrt".toList := by decide
  obtain ⟨names, last, hsplit, hlast⟩ := exists_last_splitSlashes hslash [] cs
  have hlong : 5 ≤ last.toList.length := hlast.length_le
  have hkept : (last != "" && last != ".") = true := by
    simp only [Bool.and_eq_true, bne_iff_ne]
    constructor <;> rintro rfl <;> exact absurd hlong (by decide)
  refine ⟨names.filter fun p => p != "" && p != ".", last, ?_,
    List.isSuffixOf_iff_suffix.mpr hlast⟩
  rw [Path.ofText, Path.partsOf, ← hcs, hsplit, List.filter_append]
  simp only [List.filter_cons, hkept, if_true, List.filter_nil]

/-- A regular member whose place below the directory is named like a scene. -/
def IsScene (dest : Location) (m : Member) : Prop :=
  IsRegular m ∧ IsScenePlace dest (target dest m)

/-- A regular member with a name like that of a scene has such a place. -/
theorem isScene_of_isSceneName (hregular : IsRegular m) (hname : isSceneName m.name = true)
    (hbelow : IsBelow dest (target dest m)) : IsScene dest m := by
  refine ⟨hregular, hbelow, ?_⟩
  obtain ⟨parts, last, hparts, hlast⟩ := exists_last_of_isSceneName hname
  have hup : last ≠ ".." := by
    rintro rfl
    exact absurd hlast (by decide)
  rw [target, Path.resolve, hparts, List.foldl_append, List.foldl_cons, List.foldl_nil, Path.step,
    if_neg hup, List.getLastD_concat]
  exact hlast

/-- The place is one of those, and the first of them in path order. -/
def IsFirst (places : Location → Prop) (l : Location) : Prop :=
  places l ∧ ∀ k, places k → pathLE l k = true

theorem IsFirst.unique {places : Location → Prop} {l k : Location} (h : IsFirst places l)
    (h' : IsFirst places k) : l = k :=
  pathLE_antisymm (h.2 k h'.1) (h'.2 l h.1)

/-- The scene is the first of all that stands below the directory and is named like one. -/
theorem exists_firstScene (path : Path)
    (h : ∃ l, IsScenePlace dest l ∧ (t.node? l).isSome = true) :
    ∃ scene, firstScene t path dest = .ok scene ∧
      IsFirst (fun l => IsScenePlace dest l ∧ (t.node? l).isSome = true) scene := by
  obtain ⟨l, hl⟩ := h
  have hsorted : (scenesBelow t dest).Pairwise fun l k => pathLE l k = true :=
    List.pairwise_mergeSort pathLE_trans pathLE_total _
  unfold firstScene
  cases hscenes : scenesBelow t dest with
  | nil =>
      have hmem := mem_scenesBelow.mpr hl
      rw [hscenes] at hmem
      cases hmem
  | cons scene rest =>
      rw [hscenes] at hsorted
      refine ⟨scene, rfl, mem_scenesBelow.mp (hscenes ▸ List.mem_cons_self), fun k hk => ?_⟩
      have hmem := mem_scenesBelow.mpr hk
      rw [hscenes] at hmem
      rcases List.mem_cons.mp hmem with rfl | hmem
      · simpa using pathLE_total k k
      · exact (List.pairwise_cons.mp hsorted).1 k hmem

/-- The archive passes the check, and all of its members can be written. -/
def IsAccepted (t : FileTree) (path : Path) (dest : Location) (ms : List Member) : Prop :=
  checkMembers path dest ms = .ok () ∧ (extractAll dest t ms).2 = true

theorem unpack_of_isAccepted (h : IsAccepted t path dest ms) :
    unpack t path dest ms =
      ⟨(extractAll dest t ms).1, firstScene (extractAll dest t ms).1 path dest⟩ := by
  unfold unpack
  rw [h.1]
  simp only [h.2, if_true]

/-- What is named like a scene below the directory: a directory that a member leads through, or a
regular member. -/
def IsCandidate (dest : Location) (ms : List Member) (l : Location) : Prop :=
  IsScenePlace dest l ∧ ∃ m ∈ ms, LeadsThrough dest m l ∨ IsRegular m ∧ target dest m = l

theorem isSome_node?_iff (hfree : IsFree t dest) (hdest : ".." ∉ dest)
    (hall : (extractAll dest t ms).2 = true) {l : Location} (hl : IsBelow dest l) :
    ((extractAll dest t ms).1.node? l).isSome = true ↔
      ∃ m ∈ ms, LeadsThrough dest m l ∨ IsRegular m ∧ target dest m = l := by
  have hdirectory := isDirectory_below_iff hfree hdest hall hl
  have hfile := isFile_below_iff hfree hdest hall hl
  simp only [and_or_left, exists_or, ← hdirectory, ← hfile]
  rcases (extractAll dest t ms).1.node? l with _ | _ | bytes <;> simp

/-- The scene of an accepted archive with a scene is the first of all that is named like one. -/
theorem exists_scene (hfree : IsFree t dest) (hdest : ".." ∉ dest)
    (haccepted : IsAccepted t path dest ms) (hscene : ∃ l, IsCandidate dest ms l) :
    ∃ scene, (unpack t path dest ms).scene = .ok scene ∧
      IsFirst (IsCandidate dest ms) scene := by
  have hplaces (l : Location) : IsScenePlace dest l ∧
      ((extractAll dest t ms).1.node? l).isSome = true ↔ IsCandidate dest ms l :=
    and_congr_right fun hl => isSome_node?_iff hfree hdest haccepted.2 hl.1
  obtain ⟨scene, hfirst, hleast⟩ :=
    exists_firstScene path (hscene.imp fun l hl => (hplaces l).mpr hl)
  rw [unpack_of_isAccepted haccepted]
  exact ⟨scene, hfirst, (hplaces scene).mp hleast.1,
    fun k hk => hleast.2 k ((hplaces k).mpr hk)⟩

/-- The first of all that is named like a scene is the first of the regular members among it,
exactly if each directory that is named like a scene has such a member before it. -/
theorem isFirst_iff {scene : Location} (h : IsFirst (IsCandidate dest ms) scene) :
    IsFirst (fun l => ∃ m ∈ ms, IsScene dest m ∧ target dest m = l) scene ↔
      ∀ m ∈ ms, ∀ l, LeadsThrough dest m l → IsScenePlace dest l →
        ∃ k ∈ ms, IsScene dest k ∧ pathLE (target dest k) l = true := by
  obtain ⟨⟨hplace, m, hm, hstands⟩, hleast⟩ := h
  have hregular : ∀ k ∈ ms, IsScene dest k → pathLE scene (target dest k) = true :=
    fun k hk hscene => hleast _ ⟨hscene.2, k, hk, Or.inr ⟨hscene.1, rfl⟩⟩
  constructor
  · rintro ⟨⟨k, hk, hscene, rfl⟩, -⟩ j hj l hway hl
    exact ⟨k, hk, hscene, hleast l ⟨hl, j, hj, Or.inl hway⟩⟩
  · intro hbefore
    refine ⟨?_, ?_⟩
    · rcases hstands with hway | ⟨hm', htarget⟩
      · obtain ⟨k, hk, hscene, hle⟩ := hbefore m hm scene hway hplace
        exact ⟨k, hk, hscene, pathLE_antisymm hle (hregular k hk hscene)⟩
      · exact ⟨m, hm, ⟨hm', htarget ▸ hplace⟩, htarget⟩
    · rintro _ ⟨k, hk, hscene, rfl⟩
      exact hregular k hk hscene

end Archive
end SceneReader
