import SceneReader.File.Tree
import SceneReader.Packed.Tape

/-!
# Scene archives

An archive is unpacked into a directory, and the scene is the first file in path order
whose name ends in the suffix of scene files.  Before anything is written every member is
looked at: one that would land outside the directory, or that is a link, spoils the whole
archive.  So does a name with a zero in it, but the system finds that out, when it looks for
the place of the member, and its complaint is no error of the scene.

Members are written one after the other.  If one cannot be written, those before it stay.

**Results.**
* `checkMembers_ok_iff`: what passes is exactly what has no bad member.
-/

namespace SceneReader
namespace Archive

/-- Endings of archive names. -/
def suffixes : List String := [".tar.gz", ".tgz"]

/-- A name that ends like an archive, in capitals or not. -/
def isArchiveName (name : String) : Bool :=
  let cs := name.toList.map Char.toLower
  suffixes.any (fun s => s.toList.isSuffixOf cs)

/-- The place where a member would be written. -/
def target (dest : Location) (m : Member) : Location :=
  (Path.ofText m.name).resolve dest

/-- Why an archive is not unpacked. -/
inductive Fault where
  | scene (e : SceneError)
  /-- The name of a member has a zero in it. -/
  | zeroInName

/-- The words of the system for a name with a zero in it. -/
def zeroInNameText : String := "embedded null byte"

/-- The fault of an archive that cannot be used. -/
def unreadable (path : Path) (reason : ReadFault) : Fault :=
  .scene (.unplaced (.fileUnreadable path.text reason))

/-- What is wrong with a member of the archive at a path. -/
def memberFault? (path : Path) (dest : Location) (m : Member) : Option Fault :=
  if m.name.toList.contains '\x00' then some .zeroInName
  else if !dest.isPrefixOf (target dest m) then some (unreadable path (.escapesArchive m.name))
  else match m.kind with
    | .link _ _ => some (unreadable path (.isLink m.name))
    | _ => none

/-- Refuses an archive for its first bad member. -/
def checkMembers (path : Path) (dest : Location) : List Member → Except Fault Unit
  | [] => .ok ()
  | m :: ms =>
      match memberFault? path dest m with
      | some f => .error f
      | none => checkMembers path dest ms

theorem checkMembers_ok_iff (path : Path) (dest : Location) (ms : List Member) :
    checkMembers path dest ms = .ok () ↔ ∀ m ∈ ms, memberFault? path dest m = none := by
  induction ms with
  | nil => simp [checkMembers]
  | cons m ms ih =>
      unfold checkMembers
      cases h : memberFault? path dest m <;> simp [h, ih]

/-- Makes one directory where nothing stands; `none` if it cannot be made. -/
def makeDirectory? (t : FileTree) (p : Path) : Option FileTree :=
  match t.find p, t.find p.parent with
  | .missing, .directory l => some (t.put (Path.step l p.name) .directory)
  | _, _ => none

/-- Makes a directory after those above it.  A directory above that is there already
under its own name does not matter; the last one must be new.  `count` is the number of
parts of the path. -/
def makeDirectories (t : FileTree) (p : Path) : Nat → FileTree × Bool
  | 0 => (t, false)
  | count + 1 =>
      let t := if t.pathExists p.parent then t else (makeDirectories t p.parent count).1
      let made := makeDirectory? t p
      (made.getD t, made.isSome)

/-- The names in a text between slashes, single dots among them. -/
def pieces (name : String) : List String :=
  (Path.splitSlashes [] name.toList).filter (· != "")

/-- The last name is a single dot, which means a directory. -/
def endsInDot (names : List String) : Bool := names.getLast? == some "."

/-- The directory at a path, made with those above it if nothing is there.  If it was `dotted`,
it does not have to be new. -/
def makeAbove (t : FileTree) (p : Path) (dotted : Bool) : FileTree × Bool :=
  if t.pathExists p then (t, true)
  else
    let made := makeDirectories t p p.parts.length
    (made.1, made.2 || dotted && made.1.pathExists p)

/-- The place at which a file with this path is written: that of the file that is there, or a
new one in a directory. -/
def filePlace? (t : FileTree) (p : Path) : Option Location :=
  match t.find p with
  | .file l _ => some l
  | .missing =>
      match t.find p.parent with
      | .directory l => some (Path.step l p.name)
      | _ => none
  | _ => none

/-- Writes a member at a path, where the directories above it are there; `none` if something
stands in the way. -/
def writeMember? (t : FileTree) (p : Path) (m : Member) : Option FileTree :=
  match m.kind with
  | .link _ _ => none
  | .file bytes =>
      if endsInDot (pieces m.name) then none
      else (filePlace? t p).map fun l => t.put l (.file bytes)
  | .directory =>
      match t.find p with
      | .directory _ => some t
      | _ => makeDirectory? t p

/-- Writes one member below the directory.  Directories above it stay even if it cannot be
written. -/
def extractMember (dest : Location) (t : FileTree) (m : Member) : FileTree × Bool :=
  let p := (Path.ofLocation dest).join (Path.ofText m.name)
  let names := pieces m.name
  let above := makeAbove t (if endsInDot names then p else p.parent) (endsInDot names.dropLast)
  let written := if above.2 then writeMember? above.1 p m else none
  (written.getD above.1, written.isSome)

/-- Writes members up to the first one that cannot be written. -/
def extractAll (dest : Location) (t : FileTree) : List Member → FileTree × Bool
  | [] => (t, true)
  | m :: ms =>
      let first := extractMember dest t m
      if first.2 then extractAll dest first.1 ms else first

/-- A name with the ending of scene files. -/
def isSceneName (name : String) : Bool :=
  ".pbrt".toList.isSuffixOf name.toList

/-- Path order: part by part. -/
def pathLE : Location → Location → Bool
  | [], _ => true
  | _ :: _, [] => false
  | a :: as, b :: bs => a < b || a == b && pathLE as bs

/-- Everything below a directory that is named like a scene, in path order. -/
def scenesBelow (t : FileTree) (dest : Location) : List Location :=
  ((t.nodes.map (·.1)).filter (fun l =>
    dest.isPrefixOf l && l != dest && isSceneName (l.getLastD ""))).mergeSort pathLE

/-- The members of a compressed archive. -/
def members? (bytes : List UInt8) : Option (List Member) :=
  (Packed.Gzip.unpack bytes).toOption.bind Packed.Tape.members?

/-- The files after an archive was unpacked, and the scene among them. -/
structure Unpacked where
  files : FileTree
  scene : Except Fault Location

/-- The scene among files that were written below a directory. -/
def firstScene (t : FileTree) (path : Path) (dest : Location) : Except Fault Location :=
  match scenesBelow t dest with
  | scene :: _ => .ok scene
  | [] => .error (.scene (.unplaced (.fileNotFound (path.text ++ ": no .pbrt file in archive") [])))

/-- Writes the members of the archive at a path below a directory. -/
def unpack (t : FileTree) (path : Path) (dest : Location) (ms : List Member) : Unpacked :=
  match checkMembers path dest ms with
  | .error f => ⟨t, .error f⟩
  | .ok () =>
      let all := extractAll dest t ms
      ⟨all.1, if all.2 then firstScene all.1 path dest else .error (unreadable path .refused)⟩

/-- Unpacks the archive at a path into a directory. -/
def extract (t : FileTree) (path : Path) (dest : Location) : Unpacked :=
  match t.find path with
  | .file _ bytes =>
      match members? bytes with
      | none => ⟨t, .error (unreadable path .refused)⟩
      | some ms => unpack t path dest ms
  | _ => ⟨t, .error (.scene (.unplaced (.fileNotFound path.text [])))⟩

end Archive
end SceneReader
