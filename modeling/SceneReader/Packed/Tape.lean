import SceneReader.File.Encoding
import SceneReader.Packed.Deflate

/-!
# Archives as bytes

An archive is a row of blocks of one size.  Each member has a block of fields and, if it is
a file, its bytes, filled up with zeros to whole blocks.  A name that does not fit into the
fields of a member stands in a member of its own before it.  A block of zeros ends the
archive.

**Results.**
* `length_field`: a field is as wide as it should be.
-/

namespace SceneReader

/-- What an archive member is. -/
inductive MemberKind where
  | file (bytes : List UInt8)
  | directory
  /-- Another name of a file: a path to it, or the name of another member. -/
  | link (isPath : Bool) (target : String)
deriving DecidableEq

/-- One member of an archive, under the name that the archive gives it. -/
structure Member where
  name : String
  kind : MemberKind
deriving DecidableEq

namespace Packed
namespace Tape

/-- The size of a block. -/
def blockSize : Nat := 512

/-- The number of bytes that whole blocks around so many bytes have. -/
def wholeBlocks (n : Nat) : Nat := (n + blockSize - 1) / blockSize * blockSize

/-- Bytes followed by zeros, or cut, to a width. -/
def field (width : Nat) (bytes : List UInt8) : List UInt8 :=
  (bytes ++ List.replicate width 0).take width

theorem length_field (width : Nat) (bytes : List UInt8) : (field width bytes).length = width := by
  simp [field]

/-- The bytes of a text. -/
def bytesOf (s : String) : List UInt8 := s.toUTF8.toList

/-- A number of so many bytes in digits to the base eight, a zero at the end. -/
def octal (width n : Nat) : List UInt8 :=
  let digits := (Nat.toDigits 8 n).map fun c => c.toNat.toUInt8
  List.replicate (width - 1 - digits.length) 48 ++ digits ++ [0]

/-- The sum of bytes. -/
def sum (bytes : List UInt8) : Nat := bytes.foldl (fun n b => n + b.toNat) 0

/-! ## Writing -/

/-- The fields of a member.  `mode` tells who may do what with it. -/
def header (mode : Nat) (kind : Char) (name : String) (target : String) (size : Nat) :
    List UInt8 :=
  let ascii (s : String) : List UInt8 :=
    s.toList.map fun c => if c.toNat < 128 then c.toNat.toUInt8 else 63
  let front := field 100 (ascii name) ++ octal 8 mode ++ octal 8 0 ++ octal 8 0 ++
    octal 12 size ++ octal 12 0
  let back := kind.toNat.toUInt8 :: field 100 (ascii target) ++ bytesOf "ustar" ++ [0, 48, 48]
  let blanks := List.replicate 8 32
  field blockSize (front ++ octal 7 (sum front + sum blanks + sum back) ++ [32] ++ back)

/-- Bytes filled up to whole blocks. -/
def payload (bytes : List UInt8) : List UInt8 := field (wholeBlocks bytes.length) bytes

/-- The length of a record that counts its own digits: the rest of it has `rest` bytes. -/
def recordLength (rest : Nat) : Nat :=
  let step (n : Nat) : Nat := rest + (toString n).length
  step (step (step rest))

/-- A record of a text that does not fit into the fields. -/
def record (key value : String) : List UInt8 :=
  let rest := " " ++ key ++ "=" ++ value ++ "\n"
  bytesOf (toString (recordLength (bytesOf rest).length) ++ rest)

/-- A text fits into the fields of a member. -/
def fits (s : String) : Bool := s.length ≤ 100 && s.toList.all fun c => c.toNat < 128

/-- The blocks in front of a member with texts that do not fit. -/
def recordBlocks (texts : List (String × String)) : List UInt8 :=
  let records := (texts.filter fun e => !fits e.2).flatMap fun e => record e.1 e.2
  if records.isEmpty then []
  else header 0 'x' "././@PaxHeader" "" records.length ++ payload records

/-- The permissions of a member: its owner may write. -/
def memberMode : Nat := 0x1A4

/-- The blocks of a member. -/
def memberBlocks (m : Member) : List UInt8 :=
  match m.kind with
  | .file bytes =>
      recordBlocks [("path", m.name)] ++ header memberMode '0' m.name "" bytes.length ++
        payload bytes
  | .directory =>
      let name := if m.name.endsWith "/" then m.name else m.name ++ "/"
      recordBlocks [("path", name)] ++ header memberMode '5' name "" 0
  | .link isPath target =>
      recordBlocks [("path", m.name), ("linkpath", target)] ++
        header memberMode (if isPath then '2' else '1') m.name target 0

/-- An archive is filled up to a multiple of this number of bytes. -/
def archiveUnit : Nat := 20 * blockSize

/-- The bytes of an archive. -/
def pack (ms : List Member) : List UInt8 :=
  let blocks := ms.flatMap memberBlocks
  let size := blocks.length + 2 * blockSize
  field ((size + archiveUnit - 1) / archiveUnit * archiveUnit) blocks

/-! ## Reading -/

/-- The fields of a member that matter. -/
structure Header where
  name : String
  size : Nat
  kind : Char
  target : String

/-- The bytes of a field up to a zero. -/
def fieldAt (block : List UInt8) (start width : Nat) : List UInt8 :=
  ((block.drop start).take width).takeWhile (· != 0)

/-- The character at the start of bytes, and the bytes behind it. -/
def firstChar? (bytes : List UInt8) : Option (Char × List UInt8) :=
  (List.range 4).findSome? fun n =>
    match Encoding.utf8.decode (bytes.take (n + 1)) with
    | .ok [c] => some (c, bytes.drop (n + 1))
    | _ => none

/-- What stands for a byte that belongs to no character: a character that is set aside for
private use. -/
def strayByte (b : UInt8) : Char := Char.ofNat (0x10DC00 + b.toNat)

/-- The characters of bytes; a byte that belongs to none has one of its own.  `room` is the
number of bytes. -/
def charsFrom : (room : Nat) → List UInt8 → List Char
  | 0, _ => []
  | _, [] => []
  | room + 1, b :: bytes =>
      match firstChar? (b :: bytes) with
      | some (c, rest) => c :: charsFrom room rest
      | none => strayByte b :: charsFrom room bytes

/-- The text of bytes. -/
def textOf (bytes : List UInt8) : String :=
  match Encoding.utf8.decode bytes with
  | .ok cs => String.ofList cs
  | .error _ => String.ofList (charsFrom bytes.length bytes)

/-- The number in a field: digits to the base eight between blanks, none for zero. -/
def octal? (bytes : List UInt8) : Option Nat :=
  let digits := (bytes.dropWhile (· == 32)).reverse.dropWhile (· == 32) |>.reverse
  if digits.all fun b => 48 ≤ b && b < 56 then
    some (digits.foldl (fun n b => 8 * n + (b.toNat - 48)) 0)
  else none

/-- A name without slashes at its end. -/
def withoutSlashes (s : String) : String :=
  String.ofList (s.toList.reverse.dropWhile (· == '/')).reverse

/-- The checksum of a block: the sum of its bytes, the field of the checksum counted as
blanks. -/
def checksum (block : List UInt8) : Nat :=
  sum (block.take 148) + 8 * 32 + sum (block.drop 156)

/-- The fields in a block, if its checksum is right. -/
def header? (block : List UInt8) : Option Header := do
  let name := textOf (fieldAt block 0 100)
  let size ← octal? (fieldAt block 124 12)
  let sum ← octal? (fieldAt block 148 8)
  let kind := Char.ofNat ((block.getD 156 0).toNat)
  let target := textOf (fieldAt block 157 100)
  let above := textOf (fieldAt block 345 155)
  let kind := if kind = '\x00' && name.endsWith "/" then '5' else kind
  let name := if kind = '5' then withoutSlashes name else name
  let name := if above.isEmpty || kind = 'L' || kind = 'K' then name else above ++ "/" ++ name
  if sum = checksum block then some ⟨name, size, kind, target⟩ else none

/-- Kinds of members without bytes: links, devices and directories. -/
def hasBytes (kind : Char) : Bool := !"123456".toList.contains kind

/-- The member with these fields and bytes. -/
def memberOf (h : Header) (bytes : List UInt8) : Member :=
  ⟨h.name, match h.kind with
    | '5' => .directory
    | '1' => .link false h.target
    | '2' => .link true h.target
    | _ => .file bytes⟩

/-- The value of a key in records; the last one counts. -/
def recordValue? (key : String) : (room : Nat) → List UInt8 → Option (List UInt8)
  | 0, _ => none
  | room + 1, bytes =>
      let isDigit (b : UInt8) : Bool := 48 ≤ b && b < 58
      let size := (bytes.takeWhile isDigit).foldl (fun n b => 10 * n + (b.toNat - 48)) 0
      if size = 0 then none
      else
        let entry := ((bytes.take size).dropWhile isDigit).drop 1
        let here := if (entry.takeWhile (· != 61)) = bytesOf key then
          some (((entry.dropWhile (· != 61)).drop 1).dropLast) else none
        (recordValue? key room (bytes.drop size)).or here

/-- What extra members say of the member behind them. -/
structure Extra where
  name : Option String
  target : Option String

/-- The fields of a member with what was said before it. -/
def Extra.apply (e : Extra) (h : Header) : Header :=
  let name := e.name.getD h.name
  { h with
    name := if h.kind = '5' then withoutSlashes name else name
    target := e.target.getD h.target }

/-- What an extra member adds. -/
def Extra.add (e : Extra) (h : Header) (bytes : List UInt8) : Extra :=
  let upToZero := bytes.takeWhile (· != 0)
  match h.kind with
  | 'L' => { e with name := some (textOf upToZero) }
  | 'K' => { e with target := some (textOf upToZero) }
  | 'x' =>
      let value (key : String) := (recordValue? key bytes.length bytes).map textOf
      ⟨((value "path").map withoutSlashes).or e.name, (value "linkpath").or e.target⟩
  | _ => e

/-- The member is about the one behind it. -/
def isExtra (kind : Char) : Bool := "LKxg".toList.contains kind

/-- Reads members.  `extra` is what was said of the next one.  An archive that starts with a
bad block is none, and a member of which something was said has to be there; else a bad
block only ends the archive. -/
def membersFrom (isFirst : Bool) (extra : Option Extra) :
    (room : Nat) → List UInt8 → Option (List Member)
  | 0, _ => none
  | room + 1, bytes =>
      let block := bytes.take blockSize
      if block.length = blockSize && block.all (· == 0) && extra.isNone then some []
      else match (if block.length < blockSize then none else header? block) with
        | none => if isFirst || extra.isSome then none else some []
        | some h =>
            let said := extra.getD ⟨none, none⟩
            let h := said.apply h
            let count := if hasBytes h.kind then h.size else 0
            let rest := bytes.drop blockSize
            if rest.length < wholeBlocks count then none
            else
              let body := rest.take count
              let rest := rest.drop (wholeBlocks count)
              if isExtra h.kind then membersFrom false (some (said.add h body)) room rest
              else (membersFrom false none room rest).map (memberOf h body :: ·)

/-- The members of an archive. -/
def members? (bytes : List UInt8) : Option (List Member) :=
  membersFrom true none (bytes.length / blockSize + 1) bytes

end Tape
end Packed
end SceneReader
