/-!
# Bits of a byte stream

Compressed streams are read bit by bit, the lowest bit of a byte first.  A number is
written with its lowest bit first.

**Results.**
* `size_bit`: reading a bit uses up one bit.
-/

namespace SceneReader
namespace Packed

/-- Why a compressed stream was not unpacked. -/
inductive StreamFault where
  /-- It is no such stream, it ends too early, or its checksum is wrong. -/
  | refused
  /-- Its bits mean nothing. -/
  | corrupt
deriving DecidableEq

/-- Bytes that are waiting, and how many bits of the first one have been read. -/
structure BitStream where
  bytes : List UInt8
  read : Nat

/-- How many bits are waiting, if fewer than eight of the first byte have been read. -/
def BitStream.size (s : BitStream) : Nat := 8 * s.bytes.length - s.read

/-- What is read from a stream of bits. -/
abbrev BitReader := StateT BitStream (Except StreamFault)

namespace BitReader

/-- One bit. -/
def bit : BitReader Nat := fun s =>
  match s.bytes with
  | [] => .error .refused
  | b :: bs =>
      let value := (b.toNat >>> s.read) % 2
      .ok (value, if s.read < 7 then ⟨b :: bs, s.read + 1⟩ else ⟨bs, 0⟩)

theorem size_bit {s t : BitStream} {n : Nat} (hs : s.read < 8) (h : bit s = .ok (n, t)) :
    t.size + 1 = s.size ∧ t.read < 8 := by
  unfold bit at h
  split at h
  · cases h
  · rename_i b bs hb
    injection h with h
    injection h with _ h
    subst h
    split <;> simp [BitStream.size, hb] <;> omega

/-- A number of so many bits. -/
def number : Nat → BitReader Nat
  | 0 => pure 0
  | width + 1 => do
      let low ← bit
      let high ← number width
      return low + 2 * high

/-- Leaves out the rest of a byte of which a part has been read. -/
def toByte : BitReader Unit := fun s =>
  .ok ((), if s.read = 0 then s else ⟨s.bytes.tail, 0⟩)

/-- So many whole bytes. -/
def bytes (count : Nat) : BitReader (List UInt8) := fun s =>
  if s.bytes.length < count then .error .refused
  else .ok (s.bytes.take count, ⟨s.bytes.drop count, 0⟩)

/-- How many bits are waiting. -/
def remaining : BitReader Nat := do return (← get).size

end BitReader
end Packed
end SceneReader
