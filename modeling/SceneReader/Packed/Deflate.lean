import SceneReader.Packed.Code

/-!
# Deflated bytes

A deflated stream is a row of blocks.  A block holds bytes as they are, or symbols of a
code that stand for single bytes and for repetitions of earlier bytes.  The code is the
standing one or is described in front of the symbols.
-/

namespace SceneReader
namespace Packed
namespace Deflate

/-- The least length of repetition that a symbol stands for, and how many bits follow that
tell how much longer it is. -/
def lengths : List (Nat × Nat) :=
  [(3, 0), (4, 0), (5, 0), (6, 0), (7, 0), (8, 0), (9, 0), (10, 0), (11, 1), (13, 1), (15, 1),
   (17, 1), (19, 2), (23, 2), (27, 2), (31, 2), (35, 3), (43, 3), (51, 3), (59, 3), (67, 4),
   (83, 4), (99, 4), (115, 4), (131, 5), (163, 5), (195, 5), (227, 5), (258, 0)]

/-- The least distance of a repetition that a symbol stands for, and how many bits follow
that tell how much greater it is. -/
def distances : List (Nat × Nat) :=
  [(1, 0), (2, 0), (3, 0), (4, 0), (5, 1), (7, 1), (9, 2), (13, 2), (17, 3), (25, 3), (33, 4),
   (49, 4), (65, 5), (97, 5), (129, 6), (193, 6), (257, 7), (385, 7), (513, 8), (769, 8),
   (1025, 9), (1537, 9), (2049, 10), (3073, 10), (4097, 11), (6145, 11), (8193, 12),
   (12289, 12), (16385, 13), (24577, 13)]

/-- The number that a symbol stands for together with the bits behind it. -/
def numberOf (table : List (Nat × Nat)) (symbol : Nat) : BitReader Nat :=
  match table[symbol]? with
  | none => throw .corrupt
  | some (least, width) => do return least + (← BitReader.number width)

/-- Repeats bytes from a distance back, each as soon as the one before it stands. -/
def repeatBytes (distance : Nat) : Nat → Array UInt8 → Array UInt8
  | 0, out => out
  | n + 1, out => repeatBytes distance n (out.push (out.getD (out.size - distance) 0))

/-- The symbol that ends a block. -/
def blockEnd : Nat := 256

/-- Reads symbols until the block ends; at most `room` of them. -/
def coded (literals back : Code) : (room : Nat) → Array UInt8 → BitReader (Array UInt8)
  | 0, _ => throw .refused
  | room + 1, out => do
      let s ← literals.symbol
      if s < blockEnd then coded literals back room (out.push s.toUInt8)
      else if s = blockEnd then return out
      else do
        let count ← numberOf lengths (s - blockEnd - 1)
        let distance ← numberOf distances (← back.symbol)
        if out.size < distance then throw .corrupt
        else coded literals back room (repeatBytes distance count out)

/-- Reads bytes that stand as they are. -/
def plain (out : Array UInt8) : BitReader (Array UInt8) := do
  BitReader.toByte
  let count ← BitReader.number 16
  let inverted ← BitReader.number 16
  if count + inverted = 0xFFFF then return out ++ (← BitReader.bytes count).toArray
  else throw .corrupt

/-- The standing code of bytes and lengths. -/
def standingLiterals : Code :=
  .ofLengths (List.replicate 144 8 ++ List.replicate 112 9 ++ List.replicate 24 7 ++
    List.replicate 8 8)

/-- The standing code of distances. -/
def standingDistances : Code := .ofLengths (List.replicate 32 5)

/-- The order in which the lengths of the words for lengths are written. -/
def lengthOrder : List Nat := [16, 17, 18, 0, 8, 7, 9, 6, 10, 5, 11, 4, 12, 3, 13, 2, 14, 1, 15]

/-- Numbers of so many bits each. -/
def numbers (width : Nat) : Nat → BitReader (List Nat)
  | 0 => return []
  | n + 1 => do
      let first ← BitReader.number width
      return first :: (← numbers width n)

/-- Reads lengths of words until there are `total` of them.  `done` holds them backwards,
and at most `room` symbols are read. -/
def wordLengths (c : Code) (total : Nat) : (room : Nat) → List Nat → BitReader (List Nat)
  | 0, _ => throw .corrupt
  | room + 1, done =>
      if done.length = total then return done.reverse
      else if total < done.length then throw .corrupt
      else do
        let s ← c.symbol
        match s with
        | 16 =>
            match done with
            | [] => throw .corrupt
            | last :: _ => do
                let n ← BitReader.number 2
                wordLengths c total room (List.replicate (n + 3) last ++ done)
        | 17 => do
            let n ← BitReader.number 3
            wordLengths c total room (List.replicate (n + 3) 0 ++ done)
        | 18 => do
            let n ← BitReader.number 7
            wordLengths c total room (List.replicate (n + 11) 0 ++ done)
        | s => wordLengths c total room (s :: done)

/-- A block of symbols with the code that is described in front of them. -/
def described (out : Array UInt8) : BitReader (Array UInt8) := do
  let literalCount := (← BitReader.number 5) + 257
  let distanceCount := (← BitReader.number 5) + 1
  let given ← numbers 3 ((← BitReader.number 4) + 4)
  if 286 < literalCount || 30 < distanceCount then throw .corrupt
  let places := lengthOrder.zip given
  let c := Code.ofLengths ((List.range 19).map fun i => (places.lookup i).getD 0)
  if !c.isComplete then throw .corrupt
  let total := literalCount + distanceCount
  let all ← wordLengths c total (total + 1) []
  let literals := Code.ofLengths (all.take literalCount)
  let back := Code.ofLengths (all.drop literalCount)
  let isGood (c : Code) : Bool := c.isComplete || c.isTrivial
  if all[blockEnd]? == some 0 || !isGood literals || !isGood back then throw .corrupt
  coded literals back ((← BitReader.remaining) + 1) out

/-- Reads blocks up to the last one; at most `room` of them. -/
def blocks : (room : Nat) → Array UInt8 → BitReader (Array UInt8)
  | 0, _ => throw .refused
  | room + 1, out => do
      let isLast ← BitReader.bit
      let out ← match ← BitReader.number 2 with
        | 0 => plain out
        | 1 => coded standingLiterals standingDistances ((← BitReader.remaining) + 1) out
        | 2 => described out
        | _ => throw .corrupt
      if isLast = 1 then return out else blocks room out

/-- Inflates the stream that bytes start with; the result is what it holds and the bytes
behind it. -/
def inflate (bytes : List UInt8) : Except StreamFault (List UInt8 × List UInt8) := do
  let (out, rest) ← (blocks (8 * bytes.length + 1) #[]).run ⟨bytes, 0⟩
  let ((), rest) ← BitReader.toByte.run rest
  return (out.toList, rest.bytes)

/-- The bytes of a number, the lowest first. -/
def littleEndian : Nat → Nat → List UInt8
  | 0, _ => []
  | width + 1, n => n.toUInt8 :: littleEndian width (n / 256)

/-- The greatest number of bytes in one block of plain bytes. -/
def plainSize : Nat := 0xFFFF

/-- One block of plain bytes. -/
def plainBlock (isLast : Bool) (bytes : List UInt8) : List UInt8 :=
  (if isLast then 1 else 0) :: littleEndian 2 bytes.length ++
    littleEndian 2 (0xFFFF - bytes.length) ++ bytes

/-- A stream of bytes as they are. -/
def store (bytes : List UInt8) : List UInt8 :=
  if plainSize < bytes.length then
    plainBlock false (bytes.take plainSize) ++ store (bytes.drop plainSize)
  else plainBlock true bytes
  termination_by bytes.length
  decreasing_by simp [plainSize] at *; omega

end Deflate
end Packed
end SceneReader
