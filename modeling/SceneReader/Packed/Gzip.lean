import SceneReader.Packed.Deflate

/-!
# Compressed files

A compressed file is a row of members.  Each has a head, a deflated stream and behind it
the checksum and the length of what the stream holds.  Zeros may follow a member.  An
empty file holds nothing.
-/

namespace SceneReader
namespace Packed
namespace Gzip

/-- The two bytes that a member starts with. -/
def mark : List UInt8 := [0x1F, 0x8B]

/-- One bit of a checksum is taken in. -/
def checksumBit (crc : UInt32) : UInt32 :=
  if crc &&& 1 = 1 then (crc >>> 1) ^^^ 0xEDB88320 else crc >>> 1

/-- Eight bits of a checksum are taken in. -/
def checksumByte (crc : UInt32) (b : UInt8) : UInt32 :=
  Nat.repeat checksumBit 8 (crc ^^^ b.toUInt32)

/-- The cyclic checksum of bytes. -/
def checksum (bytes : List UInt8) : UInt32 :=
  bytes.foldl checksumByte 0xFFFFFFFF ^^^ 0xFFFFFFFF

/-- The checksum and the length of bytes as they stand behind a stream. -/
def trailer (bytes : List UInt8) : List UInt8 :=
  Deflate.littleEndian 4 (checksum bytes).toNat ++ Deflate.littleEndian 4 bytes.length

/-- The bytes after so many. -/
def skip (count : Nat) (bytes : List UInt8) : Except StreamFault (List UInt8) :=
  if bytes.length < count then .error .refused else .ok (bytes.drop count)

/-- The bytes after a text that a zero ends. -/
def skipText (bytes : List UInt8) : List UInt8 := (bytes.dropWhile (· != 0)).tail

/-- The bytes after a field with its length in front. -/
def skipField : List UInt8 → Except StreamFault (List UInt8)
  | low :: high :: bytes => skip (low.toNat + 256 * high.toNat) bytes
  | _ => .error .refused

/-- The bytes after the head of a member. -/
def skipHead (bytes : List UInt8) : Except StreamFault (List UInt8) :=
  match bytes with
  | 0x1F :: 0x8B :: 8 :: flags :: rest => do
      let has (flag : UInt8) : Bool := flags &&& flag != 0
      let rest ← skip 6 rest
      let rest ← if has 4 then skipField rest else pure rest
      let rest := if has 8 then skipText rest else rest
      let rest := if has 16 then skipText rest else rest
      if has 2 then skip 2 rest else pure rest
  | _ => .error .refused

/-- Unpacks the members that bytes consist of; at most `room` of them. -/
def members : (room : Nat) → List UInt8 → Except StreamFault (List UInt8)
  | _, [] => .ok []
  | 0, _ => .error .refused
  | room + 1, bytes => do
      let (out, rest) ← Deflate.inflate (← skipHead bytes)
      if (trailer out).isPrefixOf rest then
        return out ++ (← members room ((rest.drop 8).dropWhile (· == 0)))
      else .error .refused

/-- Unpacks a file. -/
def unpack (bytes : List UInt8) : Except StreamFault (List UInt8) :=
  members bytes.length bytes

/-- A file that unpacks to bytes. -/
def pack (bytes : List UInt8) : List UInt8 :=
  mark ++ [8, 0, 0, 0, 0, 0, 0, 255] ++ Deflate.store bytes ++ trailer bytes

end Gzip
end Packed
end SceneReader
