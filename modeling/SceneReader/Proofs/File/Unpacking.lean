import Mathlib.Data.List.Infix
import SceneReader.File.Archive
import SceneReader.Proofs.File.Following
import SceneReader.Proofs.Packed.Stored
import SceneReader.Proofs.Success

/-!
# Where archives are unpacked

Before a member of an archive is written all of them are looked at.  So an archive with a link or
with a member that would land outside the directory leaves no trace, wherever that member stands.
It is refused, unless a name with a zero in it comes first.  When an archive gives a scene, all of
its files have been written below the directory.

A member is written where its name leads, read from the directory.  The files are followed part by
part to get there, and the check reads the name as it is; both come to the same place.

**Results.**
* `writesAt_extractMember`, `writesAt_extractAll`: files are written at the places of members.
* `node?_extractAll`: files stand there, if all members were written.
* `checkMembers_of_isUnsafe`: an archive with an unsafe member is not written.
* `extract_confined`: what unpacking an archive changes.
-/

namespace SceneReader

/-! ## What changes -/

namespace FileTree

variable {t t' t'' : FileTree}

/-- Files are written at the places only, and over no directory.  Elsewhere everything stands as it
stood, and what is new is a directory. -/
def WritesAt (places : Location → Prop) (t t' : FileTree) : Prop :=
  ∀ l, t'.node? l = t.node? l ∨
    (t.node? l = none ∧ t'.node? l = some .directory) ∨
    (places l ∧ t.node? l ≠ some .directory ∧ ∃ bytes, t'.node? l = some (.file bytes))

variable {places : Location → Prop}

theorem WritesAt.refl (t : FileTree) : WritesAt places t t := fun _ => Or.inl rfl

theorem WritesAt.trans (h : WritesAt places t t') (h' : WritesAt places t' t'') :
    WritesAt places t t'' := by
  intro l
  rcases h l with hsame | ⟨hnone, hnew⟩ | ⟨hplace, hfree, bytes, hfile⟩
  · rw [← hsame]
    exact h' l
  · rcases h' l with hsame | ⟨hnone', -⟩ | ⟨-, hfree', -⟩
    · exact Or.inr (Or.inl ⟨hnone, hsame.trans hnew⟩)
    · exact absurd (hnone'.symm.trans hnew) nofun
    · exact absurd hnew hfree'
  · rcases h' l with hsame | ⟨hnone', -⟩ | ⟨-, -, hagain⟩
    · exact Or.inr (Or.inr ⟨hplace, hfree, bytes, hsame.trans hfile⟩)
    · exact absurd (hnone'.symm.trans hfile) nofun
    · exact Or.inr (Or.inr ⟨hplace, hfree, hagain⟩)

/-- One more change, if it is made. -/
theorem WritesAt.getD {changed : Option FileTree} (h : WritesAt places t t')
    (hchanged : ∀ t'', changed = some t'' → WritesAt places t' t'') :
    WritesAt places t (changed.getD t') := by
  cases changed with
  | none => exact h
  | some t'' => exact h.trans (hchanged t'' rfl)

/-- A file may get other bytes, but it stays. -/
theorem WritesAt.file (h : WritesAt places t t') {l : Location} {bytes : List UInt8}
    (hfile : t.node? l = some (.file bytes)) : ∃ bytes', t'.node? l = some (.file bytes') := by
  rcases h l with hsame | ⟨hnone, -⟩ | ⟨-, -, hagain⟩
  · exact ⟨bytes, hsame.trans hfile⟩
  · exact absurd (hnone.symm.trans hfile) nofun
  · exact hagain

theorem writesAt_put_file {l : Location} (bytes : List UInt8) (h : places l)
    (hfree : t.node? l ≠ some .directory) : WritesAt places t (t.put l (.file bytes)) := by
  intro l'
  rw [node?_put]
  split
  · rename_i hl
    subst hl
    exact Or.inr (Or.inr ⟨h, hfree, bytes, rfl⟩)
  · exact Or.inl rfl

theorem writesAt_put_directory {l : Location} (h : t.node? l = none) :
    WritesAt places t (t.put l .directory) := by
  intro l'
  rw [node?_put]
  split
  · rename_i hl
    subst hl
    exact Or.inr (Or.inl ⟨h, rfl⟩)
  · exact Or.inl rfl

end FileTree

namespace Archive

open FileTree (WritesAt)

variable {t t' : FileTree} {path : Path} {dest : Location} {m : Member} {ms : List Member}
  {places : Location → Prop}

/-! ## Writing -/

theorem writesAt_makeDirectory? {p : Path} (h : makeDirectory? t p = some t') :
    WritesAt places t t' := by
  unfold makeDirectory? at h
  split at h <;> cases h
  rename_i hmissing hparent
  exact FileTree.writesAt_put_directory (FileTree.node?_of_missing hmissing hparent).1

/-- On the way down to a path there are only new directories. -/
theorem writesAt_makeDirectories (t : FileTree) (p : Path) (count : Nat) :
    WritesAt places t (makeDirectories t p count).1 := by
  induction count generalizing p with
  | zero => exact .refl t
  | succ count ih =>
      have habove : WritesAt places t
          (if t.pathExists p.parent then t else (makeDirectories t p.parent count).1) := by
        split
        · exact .refl t
        · exact ih p.parent
      rw [makeDirectories]
      exact habove.getD fun _ hmade => writesAt_makeDirectory? hmade

theorem writesAt_makeAbove (t : FileTree) (p : Path) (dotted : Bool) :
    WritesAt places t (makeAbove t p dotted).1 := by
  unfold makeAbove
  split
  · exact .refl t
  · exact writesAt_makeDirectories t p p.parts.length

/-- A file is written where its path leads, and over no directory. -/
theorem resolve_of_filePlace? {p : Path} {l : Location} (h : filePlace? t p = some l) :
    l = t.resolve p ∧ t.node? l ≠ some .directory := by
  unfold filePlace? at h
  split at h
  · rename_i hfile
    cases h
    obtain ⟨hl, hnode⟩ := FileTree.follow_file hfile
    exact ⟨hl, fun hdirectory => absurd (hnode.symm.trans hdirectory) nofun⟩
  · rename_i hmissing
    split at h <;> cases h
    rename_i hparent
    obtain ⟨hnone, hl⟩ := FileTree.node?_of_missing hmissing hparent
    exact ⟨hl, fun hdirectory => absurd (hnone.symm.trans hdirectory) nofun⟩
  · cases h

theorem writeMember?_file {p : Path} {bytes : List UInt8} (hkind : m.kind = .file bytes)
    (h : writeMember? t p m = some t') : ∃ l, filePlace? t p = some l ∧
      t' = t.put l (.file bytes) := by
  unfold writeMember? at h
  rw [hkind] at h
  obtain ⟨-, h⟩ := Option.ite_none_left_eq_some.mp h
  obtain ⟨l, hl, rfl⟩ := Option.map_eq_some_iff.mp h
  exact ⟨l, hl, rfl⟩

theorem writesAt_writeMember? {p : Path} (h : writeMember? t p m = some t')
    (hplace : ∀ bytes, m.kind = .file bytes → places (t.resolve p)) : WritesAt places t t' := by
  cases hkind : m.kind with
  | file bytes =>
      obtain ⟨l, hl, rfl⟩ := writeMember?_file hkind h
      obtain ⟨rfl, hfree⟩ := resolve_of_filePlace? hl
      exact FileTree.writesAt_put_file bytes (hplace bytes hkind) hfree
  | directory =>
      unfold writeMember? at h
      rw [hkind] at h
      dsimp only at h
      split at h
      · cases h
        exact .refl t
      · exact writesAt_makeDirectory? h
  | link isPath name =>
      unfold writeMember? at h
      rw [hkind] at h
      cases h

/-- The path at which a member is written means the place of its name. -/
theorem resolve_memberPath (hdest : ".." ∉ dest) (t : FileTree) (m : Member) :
    t.resolve ((Path.ofLocation dest).join (Path.ofText m.name)) = target dest m :=
  Path.resolve_join hdest t.here (Path.ofText m.name)

/-- A member changes the place that its name means, if it is a file, and makes directories. -/
theorem writesAt_extractMember (hdest : ".." ∉ dest) (t : FileTree) (m : Member)
    (hplace : ∀ bytes, m.kind = .file bytes → places (target dest m)) :
    WritesAt places t (extractMember dest t m).1 := by
  unfold extractMember
  refine (writesAt_makeAbove t _ _).getD fun t' hwritten => ?_
  obtain ⟨-, hwritten⟩ := Option.ite_none_right_eq_some.mp hwritten
  refine writesAt_writeMember? hwritten fun bytes hkind => ?_
  rw [resolve_memberPath hdest]
  exact hplace bytes hkind

/-- A file that was written stands at its place. -/
theorem node?_extractMember (hdest : ".." ∉ dest) {bytes : List UInt8}
    (hkind : m.kind = .file bytes) (h : (extractMember dest t m).2 = true) :
    (extractMember dest t m).1.node? (target dest m) = some (.file bytes) := by
  obtain ⟨t', ht'⟩ := Option.isSome_iff_exists.mp h
  have hmember : (extractMember dest t m).1 = t' := congrArg (Option.getD · _) ht'
  obtain ⟨-, hwritten⟩ := Option.ite_none_right_eq_some.mp ht'
  obtain ⟨l, hl, rfl⟩ := writeMember?_file hkind hwritten
  obtain ⟨rfl, -⟩ := resolve_of_filePlace? hl
  rw [hmember, FileTree.node?_put, resolve_memberPath hdest, if_pos rfl]

/-- Members change the places that the names of files mean, and make directories. -/
theorem writesAt_extractAll (hdest : ".." ∉ dest) (t : FileTree) (ms : List Member)
    (hplaces : ∀ m ∈ ms, ∀ bytes, m.kind = .file bytes → places (target dest m)) :
    WritesAt places t (extractAll dest t ms).1 := by
  induction ms generalizing t with
  | nil => exact .refl t
  | cons m ms ih =>
      obtain ⟨hm, hms⟩ := List.forall_mem_cons.mp hplaces
      have hfirst := writesAt_extractMember hdest t m hm
      rw [extractAll]
      split
      · exact hfirst.trans (ih _ hms)
      · exact hfirst

/-- If all members were written, the first one was, and then the others. -/
theorem extractAll_cons {m : Member} (h : (extractAll dest t (m :: ms)).2 = true) :
    (extractMember dest t m).2 = true ∧
      extractAll dest t (m :: ms) = extractAll dest (extractMember dest t m).1 ms := by
  rw [extractAll] at h ⊢
  split at h
  · rename_i hfirst
    exact ⟨hfirst, if_pos hfirst⟩
  · rename_i hfirst
    exact absurd h hfirst

/-- If all members were written, files stand at the places of all files among them. -/
theorem node?_extractAll (hdest : ".." ∉ dest) (h : (extractAll dest t ms).2 = true) {m : Member}
    (hm : m ∈ ms) {bytes : List UInt8} (hkind : m.kind = .file bytes) :
    ∃ bytes', (extractAll dest t ms).1.node? (target dest m) = some (.file bytes') := by
  induction ms generalizing t with
  | nil => cases hm
  | cons k ms ih =>
      obtain ⟨hfirst, hall⟩ := extractAll_cons h
      rw [hall] at h ⊢
      rcases List.mem_cons.mp hm with rfl | hm
      · have hrest : WritesAt (fun _ => True) (extractMember dest t m).1
            (extractAll dest (extractMember dest t m).1 ms).1 :=
          writesAt_extractAll hdest _ ms fun _ _ _ _ => trivial
        exact hrest.file (node?_extractMember hdest hkind hfirst)
      · exact ih h hm

/-! ## Looking at members -/

/-- The member is a link, or its name means a place that is not below the directory. -/
def IsUnsafe (dest : Location) (m : Member) : Prop :=
  (∃ isPath name, m.kind = .link isPath name) ∨ ¬ dest <+: target dest m

/-- There is a zero in the name. -/
def HasZero (m : Member) : Prop := '\x00' ∈ m.name.toList

/-- There is an unsafe member, and no zero in its name and the names before it. -/
def MeetsUnsafe (dest : Location) (ms : List Member) : Prop :=
  ∃ before m after, ms = before ++ m :: after ∧ IsUnsafe dest m ∧
    ∀ k ∈ before ++ [m], ¬ HasZero k

theorem meetsUnsafe_cons : MeetsUnsafe dest (m :: ms) ↔
    ¬ HasZero m ∧ (IsUnsafe dest m ∨ MeetsUnsafe dest ms) := by
  constructor
  · rintro ⟨before, k, after, heq, hbad, hzero⟩
    cases before with
    | nil =>
        cases heq
        exact ⟨hzero _ List.mem_cons_self, Or.inl hbad⟩
    | cons k' before =>
        cases heq
        obtain ⟨hfirst, hrest⟩ := List.forall_mem_cons.mp hzero
        exact ⟨hfirst, Or.inr ⟨before, k, after, rfl, hbad, hrest⟩⟩
  · rintro ⟨hzero, hbad | ⟨before, k, after, rfl, hbad, hrest⟩⟩
    · exact ⟨[], m, ms, rfl, hbad, List.forall_mem_singleton.mpr hzero⟩
    · exact ⟨m :: before, k, after, rfl, hbad, List.forall_mem_cons.mpr ⟨hzero, hrest⟩⟩

theorem memberFault?_of_hasZero (path : Path) (dest : Location) (h : HasZero m) :
    memberFault? path dest m = some .zeroInName :=
  if_pos (List.contains_iff_mem.mpr h)

theorem memberFault?_of_isUnsafe (path : Path) (hzero : ¬ HasZero m) (h : IsUnsafe dest m) :
    ∃ reason, memberFault? path dest m = some (unreadable path reason) := by
  unfold memberFault?
  rw [if_neg (mt List.contains_iff_mem.mp hzero)]
  split
  · exact ⟨_, rfl⟩
  · rename_i hbelow
    rcases h with ⟨isPath, name, hkind⟩ | houtside
    · rw [hkind]
      exact ⟨_, rfl⟩
    · exact absurd (List.isPrefixOf_iff_prefix.mp (by simpa using hbelow)) houtside

theorem memberFault?_eq_none_iff :
    memberFault? path dest m = none ↔ ¬ HasZero m ∧ ¬ IsUnsafe dest m := by
  constructor
  · intro h
    have hzero : ¬ HasZero m := fun hzero =>
      absurd ((memberFault?_of_hasZero path dest hzero).symm.trans h) nofun
    refine ⟨hzero, fun hbad => ?_⟩
    obtain ⟨reason, hreason⟩ := memberFault?_of_isUnsafe path hzero hbad
    exact absurd (hreason.symm.trans h) nofun
  · rintro ⟨hzero, hsafe⟩
    obtain ⟨hlink, hbelow⟩ := not_or.mp hsafe
    unfold memberFault?
    rw [if_neg (mt List.contains_iff_mem.mp hzero),
      if_neg (by simpa using List.isPrefixOf_iff_prefix.mpr (not_not.mp hbelow))]
    split
    · rename_i isPath name hkind
      exact absurd ⟨isPath, name, hkind⟩ hlink
    · rfl

/-- An archive with an unsafe member is refused for a member, if one is met before a name with a
zero in it, and else for that name. -/
theorem checkMembers_of_isUnsafe (path : Path) (h : ∃ m ∈ ms, IsUnsafe dest m) :
    (MeetsUnsafe dest ms ∧ ∃ reason, checkMembers path dest ms = .error (unreadable path reason)) ∨
      (¬ MeetsUnsafe dest ms ∧ checkMembers path dest ms = .error .zeroInName) := by
  induction ms with
  | nil => simp at h
  | cons m ms ih =>
      rw [meetsUnsafe_cons, checkMembers]
      by_cases hzero : HasZero m
      · rw [memberFault?_of_hasZero path dest hzero]
        exact Or.inr ⟨fun hmeets => hmeets.1 hzero, rfl⟩
      by_cases hbad : IsUnsafe dest m
      · obtain ⟨reason, hreason⟩ := memberFault?_of_isUnsafe path hzero hbad
        rw [hreason]
        exact Or.inl ⟨⟨hzero, Or.inl hbad⟩, reason, rfl⟩
      · have hrest := ih (by simpa [hbad] using h)
        rw [memberFault?_eq_none_iff.mpr ⟨hzero, hbad⟩]
        simpa [hzero, hbad] using hrest

/-! ## Unpacking -/

theorem extract_eq {place : Location} {bytes : List UInt8}
    (hfile : t.find path = .file place bytes) (hms : members? bytes = some ms) (dest : Location) :
    extract t path dest = unpack t path dest ms := by
  unfold extract
  rw [hfile]
  simp only [hms]

/-- If an archive gives a scene, all members were looked at, and then all were written. -/
theorem unpack_scene {scene : Location} (h : (unpack t path dest ms).scene = .ok scene) :
    checkMembers path dest ms = .ok () ∧ (extractAll dest t ms).2 = true ∧
      (unpack t path dest ms).files = (extractAll dest t ms).1 := by
  unfold unpack at h ⊢
  split at h
  · cases h
  · rename_i hcheck
    dsimp only at h
    split at h
    · rename_i hall
      exact ⟨hcheck, hall, rfl⟩
    · cases h

/-- An archive with an unsafe member changes nothing, wherever the member stands.  It is refused
for a member exactly if an unsafe one is met before a name with a zero in it, and for that name
otherwise.  If an archive gives a scene, every name means a place below the directory, and the
files that were written are those at the places of the files in the archive. -/
theorem extract_confined {place : Location} {bytes : List UInt8}
    (hfile : t.find path = .file place bytes) (hms : members? bytes = some ms)
    (hdest : ".." ∉ dest) :
    ((∃ m ∈ ms, IsUnsafe dest m) →
      (extract t path dest).files = t ∧
        ((∃ reason, (extract t path dest).scene = .error (unreadable path reason)) ↔
          MeetsUnsafe dest ms) ∧
        (¬ MeetsUnsafe dest ms → (extract t path dest).scene = .error .zeroInName)) ∧
      ∀ scene, (extract t path dest).scene = .ok scene →
        (∀ m ∈ ms, dest <+: target dest m) ∧
          WritesAt (fun l => dest <+: l ∧ ∃ m ∈ ms, target dest m = l) t
            (extract t path dest).files ∧
          ∀ m ∈ ms, ∀ bytes, m.kind = .file bytes →
            ∃ bytes', (extract t path dest).files.node? (target dest m) = some (.file bytes') := by
  rw [extract_eq hfile hms]
  refine ⟨fun hbad => ?_, fun scene hscene => ?_⟩
  · have hrefused {f : Fault} (h : checkMembers path dest ms = .error f) :
        unpack t path dest ms = ⟨t, .error f⟩ := by
      unfold unpack
      rw [h]
    rcases checkMembers_of_isUnsafe path hbad with ⟨hmeets, reason, h⟩ | ⟨hmeets, h⟩
    · rw [hrefused h]
      exact ⟨rfl, iff_of_true ⟨reason, rfl⟩ hmeets, fun hnot => absurd hmeets hnot⟩
    · rw [hrefused h]
      exact ⟨rfl, iff_of_false nofun hmeets, fun _ => rfl⟩
  · obtain ⟨hcheck, hall, hfiles⟩ := unpack_scene hscene
    have hbelow : ∀ m ∈ ms, dest <+: target dest m := by
      intro m hm
      have hsafe := memberFault?_eq_none_iff.mp ((checkMembers_ok_iff path dest ms).mp hcheck m hm)
      exact not_not.mp (not_or.mp hsafe.2).2
    rw [hfiles]
    refine ⟨hbelow, ?_, fun m hm bytes hkind => node?_extractAll hdest hall hm hkind⟩
    exact writesAt_extractAll hdest t ms fun m hm _ _ => ⟨hbelow m hm, m, hm, rfl⟩

/-- The bytes of an archive of members. -/
def archiveBytes (ms : List Member) : List UInt8 :=
  Packed.Gzip.pack (ms.flatMap Packed.Tape.memberBlocks)

/-- The root directory with an archive of members. -/
def archiveFiles (ms : List Member) : FileTree :=
  ⟨[([], .directory), (["s.tar.gz"], .file (archiveBytes ms))], []⟩

/-- The archive, unpacked. -/
def unpackedFiles (ms : List Member) : Unpacked :=
  extract (archiveFiles ms) (.ofText "s.tar.gz") ["out"]

theorem find_archiveFiles (ms : List Member) :
    (archiveFiles ms).find (.ofText "s.tar.gz") = .file ["s.tar.gz"] (archiveBytes ms) :=
  rfl

theorem members?_archiveBytes (ms : List Member) :
    members? (archiveBytes ms) = Packed.Tape.members? (ms.flatMap Packed.Tape.memberBlocks) := by
  unfold members? archiveBytes
  rw [Packed.Gzip.unpack_pack]
  rfl

/-- Two scenes, the second one beside the directory. -/
def escapingMembers : List Member := [⟨"a.pbrt", .file []⟩, ⟨"../b.pbrt", .file []⟩]

/-- A scene, and a file whose name leads out of the directory and back. -/
def returningMembers : List Member := [⟨"a.pbrt", .file []⟩, ⟨"../out/b", .file []⟩]

/-- Nothing is written of an archive with a scene beside the directory, and everything is if the
name leads back. -/
theorem extract_confined_twoFiles :
    ((unpackedFiles escapingMembers).files = archiveFiles escapingMembers ∧
        ∃ reason, (unpackedFiles escapingMembers).scene =
          .error (unreadable (.ofText "s.tar.gz") reason)) ∧
      (unpackedFiles returningMembers).scene = .ok ["out", "a.pbrt"] ∧
      WritesAt (fun l => ["out"] <+: l ∧ ∃ m ∈ returningMembers, target ["out"] m = l)
        (archiveFiles returningMembers) (unpackedFiles returningMembers).files ∧
      ∃ bytes, (unpackedFiles returningMembers).files.node? ["out", "b"] = some (.file bytes) := by
  have hdest : ".." ∉ ["out"] := by decide
  constructor
  · have hms : members? (archiveBytes escapingMembers) = some escapingMembers := by
      rw [members?_archiveBytes]
      decide +kernel
    have hbad : IsUnsafe ["out"] ⟨"../b.pbrt", .file []⟩ := Or.inr (by decide +kernel)
    have hmeets : MeetsUnsafe ["out"] escapingMembers := by
      refine ⟨[⟨"a.pbrt", .file []⟩], _, [], rfl, hbad, ?_⟩
      unfold HasZero
      decide +kernel
    have hmem : ∃ m ∈ escapingMembers, IsUnsafe ["out"] m :=
      ⟨_, List.mem_cons_of_mem _ List.mem_cons_self, hbad⟩
    obtain ⟨hfiles, hrefused, -⟩ :=
      (extract_confined (find_archiveFiles escapingMembers) hms hdest).1 hmem
    exact ⟨hfiles, hrefused.mpr hmeets⟩
  · have hms : members? (archiveBytes returningMembers) = some returningMembers := by
      rw [members?_archiveBytes]
      decide +kernel
    have hscene : (unpackedFiles returningMembers).scene = .ok ["out", "a.pbrt"] := by
      refine Success.of_toOption ?_
      rw [unpackedFiles, extract_eq (find_archiveFiles returningMembers) hms]
      decide +kernel
    obtain ⟨-, hwrites, hfiles⟩ :=
      (extract_confined (find_archiveFiles returningMembers) hms hdest).2 _ hscene
    have htarget : target ["out"] ⟨"../out/b", .file []⟩ = ["out", "b"] := by decide +kernel
    have hwritten := hfiles _ (List.mem_cons_of_mem _ List.mem_cons_self) [] rfl
    rw [htarget] at hwritten
    exact ⟨hscene, hwrites, hwritten⟩

/-- A file with a zero in its name, and one beside the directory. -/
def zeroMembers : List Member := [⟨"é\x00", .file []⟩, ⟨"../y", .file []⟩]

/-- An archive with an unsafe member is not refused for a member, if a name with a zero in it comes
first. -/
theorem not_refused_zeroInName :
    (archiveFiles zeroMembers).find (.ofText "s.tar.gz") =
        .file ["s.tar.gz"] (archiveBytes zeroMembers) ∧
      members? (archiveBytes zeroMembers) = some zeroMembers ∧
      (∃ m ∈ zeroMembers, IsUnsafe ["out"] m) ∧
      ∀ reason,
        (unpackedFiles zeroMembers).scene ≠ .error (unreadable (.ofText "s.tar.gz") reason) := by
  have hms : members? (archiveBytes zeroMembers) = some zeroMembers := by
    rw [members?_archiveBytes]
    decide +kernel
  have hbad : IsUnsafe ["out"] ⟨"../y", .file []⟩ := Or.inr (by decide +kernel)
  have hzero : HasZero ⟨"é\x00", .file []⟩ := by
    unfold HasZero
    decide
  refine ⟨find_archiveFiles _, hms, ⟨_, List.mem_cons_of_mem _ List.mem_cons_self, hbad⟩,
    fun reason h => ?_⟩
  rw [unpackedFiles, extract_eq (find_archiveFiles zeroMembers) hms, zeroMembers, unpack,
    checkMembers, memberFault?_of_hasZero _ _ hzero] at h
  cases h

end Archive
end SceneReader
