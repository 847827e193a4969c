import Mathlib.Algebra.Group.Nat.Defs
import SceneReader.Packed.Gzip

/-!
# Bytes that are stored as they are

A stream may hold bytes as they are, in blocks that begin with how many there are.  Reading such a
stream gives the bytes back, and leaves what follows it.

**Results.**
* `number_within`, `number_add`: numbers of bits that lie in one byte, and longer ones.
* `blocks_plainBlock`: a block of plain bytes.
* `inflate_store`, `unpack_pack`: what is stored is unpacked as it was.
-/

namespace SceneReader
namespace Packed
namespace BitReader

/-- One reader after the other. -/
theorem bind_ok {α β : Type} {x : BitReader α} {f : α → BitReader β} {s t : BitStream} {a : α}
    (h : x s = .ok (a, t)) : (x >>= f) s = f a t := by
  change (x s >>= fun p => f p.1 p.2) = f a t
  rw [h]
  rfl

/-! ## Numbers -/

/-- A number whose bits lie in the first byte. -/
theorem number_within (b : UInt8) (bs : List UInt8) (width : Nat) {read : Nat} (hread : read < 8)
    (h : read + width ≤ 8) : number width ⟨b :: bs, read⟩ =
      .ok ((b.toNat >>> read) % 2 ^ width,
        if read + width < 8 then ⟨b :: bs, read + width⟩ else ⟨bs, 0⟩) := by
  induction width generalizing read with
  | zero =>
      rw [Nat.add_zero, if_pos hread, Nat.pow_zero, Nat.mod_one]
      rfl
  | succ width ih =>
      have hbits : (b.toNat >>> read) % 2 ^ (width + 1) =
          (b.toNat >>> read) % 2 + 2 * ((b.toNat >>> (read + 1)) % 2 ^ width) := by
        rw [Nat.pow_succ', Nat.mod_mul, Nat.shiftRight_succ]
      rw [hbits, number]
      by_cases hlast : read < 7
      · have hbit : bit ⟨b :: bs, read⟩ =
            .ok ((b.toNat >>> read) % 2, ⟨b :: bs, read + 1⟩) := by
          simp only [bit, if_pos hlast]
        rw [bind_ok hbit, bind_ok (ih (by omega) (by omega)), Nat.add_right_comm, Nat.add_assoc]
        rfl
      · -- The last bit of the byte ends the number, too.
        obtain rfl : read = 7 := by omega
        obtain rfl : width = 0 := by omega
        rw [Nat.pow_zero, Nat.mod_one]
        rfl

theorem number_byte (b : UInt8) (bs : List UInt8) :
    number 8 ⟨b :: bs, 0⟩ = .ok (b.toNat, ⟨bs, 0⟩) := by
  rw [number_within b bs 8 (by omega) (by omega), Nat.shiftRight_zero,
    Nat.mod_eq_of_lt b.toNat_lt]
  rfl

/-- The bits of a number one part after the other. -/
theorem number_add (m n : Nat) : number (m + n) = (do
    let low ← number m
    let high ← number n
    return low + 2 ^ m * high) := by
  induction m with
  | zero => simp only [number, Nat.zero_add, pure_bind, Nat.pow_zero, Nat.one_mul, bind_pure]
  | succ m ih =>
      rw [Nat.add_right_comm, number, number, ih]
      simp only [bind_assoc, pure_bind]
      refine bind_congr fun bit => bind_congr fun low => bind_congr fun high => ?_
      rw [Nat.pow_succ', Nat.mul_add, Nat.mul_assoc, Nat.add_assoc]

theorem number_bytes (low high : UInt8) (bs : List UInt8) :
    number 16 ⟨low :: high :: bs, 0⟩ = .ok (low.toNat + 256 * high.toNat, ⟨bs, 0⟩) := by
  rw [number_add 8 8, bind_ok (number_byte low (high :: bs)), bind_ok (number_byte high bs)]
  rfl

end BitReader

namespace Deflate

open BitReader

/-! ## Blocks -/

theorem length_littleEndian (width n : Nat) : (littleEndian width n).length = width := by
  induction width generalizing n with
  | zero => rfl
  | succ width ih => rw [littleEndian, List.length_cons, ih]

/-- A number that takes up two bytes. -/
theorem number_littleEndian {n : Nat} (hn : n ≤ plainSize) (bs : List UInt8) :
    number 16 ⟨littleEndian 2 n ++ bs, 0⟩ = .ok (n, ⟨bs, 0⟩) := by
  have hvalue : n.toUInt8.toNat + 256 * (n / 256).toUInt8.toNat = n := by
    simp only [Nat.toUInt8_eq, UInt8.toNat_ofNat']
    unfold plainSize at hn
    omega
  change number 16 ⟨n.toUInt8 :: (n / 256).toUInt8 :: bs, 0⟩ = _
  rw [number_bytes, hvalue]

theorem bytes_append (bs rest : List UInt8) :
    BitReader.bytes bs.length ⟨bs ++ rest, 0⟩ = .ok (bs, ⟨rest, 0⟩) := by
  have hlength : ¬ (bs ++ rest).length < bs.length := by
    rw [List.length_append]
    omega
  simp only [BitReader.bytes, if_neg hlength, List.take_left, List.drop_left]

theorem toByte_within (b : UInt8) (bs : List UInt8) {read : Nat} (h : read ≠ 0) :
    toByte ⟨b :: bs, read⟩ = .ok ((), ⟨bs, 0⟩) := by
  simp only [toByte, if_neg h, List.tail_cons]

/-- The content of a block of plain bytes, behind the three bits that tell what block it is. -/
theorem plain_block {bs : List UInt8} (h : bs.length ≤ plainSize) (out : Array UInt8)
    (first : UInt8) (rest : List UInt8) :
    plain out ⟨first :: (littleEndian 2 bs.length ++ (littleEndian 2 (0xFFFF - bs.length) ++
      (bs ++ rest))), 3⟩ = .ok (out ++ bs.toArray, ⟨rest, 0⟩) := by
  have hsum : bs.length + (0xFFFF - bs.length) = 0xFFFF := by
    unfold plainSize at h
    omega
  have hinverse : 0xFFFF - bs.length ≤ plainSize := Nat.sub_le _ _
  unfold plain
  rw [bind_ok (toByte_within first _ (by decide)), bind_ok (number_littleEndian h _),
    bind_ok (number_littleEndian hinverse _), if_pos hsum, bind_ok (bytes_append bs rest)]
  rfl

/-- A block of plain bytes has a kind of its own. -/
theorem number_kind {first : UInt8} (h : first.toNat < 2) (tail : List UInt8) :
    number 2 ⟨first :: tail, 1⟩ = .ok (0, ⟨first :: tail, 3⟩) := by
  have hzero : first.toNat >>> 1 = 0 := by
    rw [Nat.shiftRight_eq_div_pow]
    omega
  rw [number_within first tail 2 (by decide) (by decide), hzero]
  rfl

/-- A block of plain bytes. -/
theorem blocks_plainBlock (isLast : Bool) {bs : List UInt8} (h : bs.length ≤ plainSize)
    (room : Nat) (out : Array UInt8) (rest : List UInt8) :
    blocks (room + 1) out ⟨plainBlock isLast bs ++ rest, 0⟩ =
      if isLast then .ok (out ++ bs.toArray, ⟨rest, 0⟩)
      else blocks room (out ++ bs.toArray) ⟨rest, 0⟩ := by
  have hplain (first : UInt8) := plain_block h out first rest
  unfold plainBlock
  simp only [List.cons_append, List.append_assoc]
  rw [blocks]
  generalize littleEndian 2 bs.length ++ _ = tail at hplain ⊢
  cases isLast with
  | true =>
      have hbit : bit ⟨1 :: tail, 0⟩ = .ok (1, ⟨1 :: tail, 1⟩) := rfl
      rw [if_pos rfl, if_pos rfl, bind_ok hbit, bind_ok (number_kind (by decide) tail)]
      change (plain out >>= fun out => if 1 = 1 then pure out else blocks room out) _ = _
      rw [bind_ok (hplain 1), if_pos rfl]
      rfl
  | false =>
      have hbit : bit ⟨0 :: tail, 0⟩ = .ok (0, ⟨0 :: tail, 1⟩) := rfl
      rw [if_neg Bool.false_ne_true, if_neg Bool.false_ne_true, bind_ok hbit,
        bind_ok (number_kind (by decide) tail)]
      change (plain out >>= fun out => if 0 = 1 then pure out else blocks room out) _ = _
      rw [bind_ok (hplain 0), if_neg Nat.zero_ne_one]

/-- A stream of stored bytes. -/
theorem blocks_store (bs : List UInt8) {room : Nat} (hroom : bs.length < room) (out : Array UInt8)
    (rest : List UInt8) :
    blocks room out ⟨store bs ++ rest, 0⟩ = .ok (out ++ bs.toArray, ⟨rest, 0⟩) := by
  fun_induction store bs generalizing room out with
  | case1 bs hlong ih =>
      obtain ⟨room, rfl⟩ := Nat.exists_eq_add_one_of_ne_zero (Nat.ne_of_gt (Nat.zero_lt_of_lt hroom))
      have hdrop : (bs.drop plainSize).length < room := by
        rw [List.length_drop]
        unfold plainSize at *
        omega
      rw [List.append_assoc, blocks_plainBlock false (List.length_take_le _ _), ih hdrop]
      simp
  | case2 bs hshort =>
      obtain ⟨room, rfl⟩ := Nat.exists_eq_add_one_of_ne_zero (Nat.ne_of_gt (Nat.zero_lt_of_lt hroom))
      rw [blocks_plainBlock true (Nat.not_lt.mp hshort)]
      rfl

theorem length_le_store (bs : List UInt8) : bs.length ≤ (store bs).length := by
  fun_induction store bs with
  | case1 bs hlong ih =>
      rw [List.length_append]
      simp only [plainBlock, List.length_append, List.length_take, List.length_drop] at ih ⊢
      omega
  | case2 bs hshort =>
      simp only [plainBlock, List.length_append]
      omega

/-- What is stored is read back, and what follows it is left. -/
theorem inflate_store (bs rest : List UInt8) : inflate (store bs ++ rest) = .ok (bs, rest) := by
  have hroom : bs.length < 8 * (store bs ++ rest).length + 1 := by
    have hstore := length_le_store bs
    rw [List.length_append]
    omega
  have hblocks := blocks_store bs hroom #[] rest
  unfold inflate
  change (blocks _ #[] ⟨store bs ++ rest, 0⟩ >>= _) = _
  rw [hblocks]
  have hout : (#[] ++ bs.toArray).toList = bs := by simp
  exact congrArg (fun out => Except.ok (out, rest)) hout

end Deflate

namespace Gzip

/-- What is stored in a file is unpacked as it was. -/
theorem unpack_pack (bs : List UInt8) : unpack (pack bs) = .ok bs := by
  have hinflate := Deflate.inflate_store bs (trailer bs)
  have htrailer : (trailer bs).length = 8 := by
    rw [trailer, List.length_append, Deflate.length_littleEndian, Deflate.length_littleEndian]
  have hdrop : (trailer bs).drop 8 = [] := List.drop_eq_nil_of_le (Nat.le_of_eq htrailer)
  have hprefix : (trailer bs).isPrefixOf (trailer bs) = true :=
    List.isPrefixOf_iff_prefix.mpr (List.prefix_refl _)
  have hhead : skipHead (pack bs) = .ok (Deflate.store bs ++ trailer bs) := by
    unfold pack
    rw [List.append_assoc]
    generalize Deflate.store bs ++ trailer bs = body
    have hskip : skip 6 ([0, 0, 0, 0, 0, 255] ++ body) = .ok body := by
      simp [skip]
    change (skip 6 ([0, 0, 0, 0, 0, 255] ++ body) >>= _) = _
    rw [hskip]
    rfl
  have hmembers (room : Nat) : members (room + 1) (pack bs) = .ok bs := by
    rw [members, hhead]
    · change (Deflate.inflate (Deflate.store bs ++ trailer bs) >>= _) = _
      rw [hinflate]
      change (if (trailer bs).isPrefixOf (trailer bs) then
        members room (((trailer bs).drop 8).dropWhile (· == 0)) >>= fun more => pure (bs ++ more)
        else _) = _
      rw [if_pos hprefix, hdrop, List.dropWhile_nil, members]
      exact congrArg Except.ok (List.append_nil bs)
    · exact List.cons_ne_nil _ _
  exact hmembers _

end Gzip
end Packed
end SceneReader
