import SceneReader.Number.Reading
import SceneReader.Proofs.Number.Packing

/-!
# Rounding natural numbers to values

A natural number that is a value is read as that value.  Any other one is rounded, and it
is rounded to the same value whether it stands by itself or is ten times as much over ten.

A mantissa may have more zero bits at its end, with a lower exponent for them: rounding
takes them away again.  Both ways to read a number come down to such a mantissa.

**Results.**
* `roundWithAccuracy_shifted`: zero bits at the end of a mantissa do not change rounding.
* `rounded_natural`: a natural number that is a value is not rounded.
* `ofScientific_natural`, `ofScientific_tenfold`: reading a natural number, by itself and
  as ten times as much over ten.
* `nearest_tenfold`: a zero behind the point does not change what is read.
* `integer?_nearest`: an integer that is a value is read as itself.
-/

namespace SceneReader
namespace Number

open Float.Model Float.Model.UnpackedFloat

/-! ## Zero bits to spare -/

theorem log2_mul_two_pow {m : Nat} (hm : 0 < m) (k : Nat) : (m * 2 ^ k).log2 = m.log2 + k := by
  have hpos := Nat.two_pow_pos k
  obtain ⟨hlower, hupper⟩ := (Nat.log2_eq_iff (Nat.ne_of_gt hm)).mp rfl
  refine (Nat.log2_eq_iff (Nat.ne_of_gt (Nat.mul_pos hm hpos))).mpr ⟨?_, ?_⟩
  · rw [Nat.pow_add]
    exact Nat.mul_le_mul_right _ hlower
  · rw [Nat.add_right_comm, Nat.pow_add]
    exact Nat.mul_lt_mul_of_pos_right hupper hpos

theorem targetExponent_eq (t : Int) :
    Format.binary64.targetExponent t = max (t - 53) (-1074) := rfl

theorem totalExponent_shifted {m : Nat} (hm : 0 < m) (e : Int) (k : Nat) :
    totalExponent (m * 2 ^ k) (e - k) = totalExponent m e := by
  unfold totalExponent
  rw [log2_mul_two_pow hm]
  push_cast
  omega

theorem repeat_succ_apply {α : Type} (f : α → α) (n : Nat) (a : α) :
    Nat.repeat f (n + 1) a = Nat.repeat f n (f a) := by
  induction n with
  | zero => rfl
  | succ n ih => exact congrArg f ih

theorem shiftRightOne_double (m : Nat) :
    ExtendedMantissa.shiftRightOne ⟨m * 2, false, false⟩ = ⟨m, false, false⟩ := by
  simp [ExtendedMantissa.shiftRightOne]

/-- Shifting takes zero bits away. -/
theorem repeat_shiftRightOne (m n k : Nat) :
    Nat.repeat ExtendedMantissa.shiftRightOne (n + k) ⟨m * 2 ^ k, false, false⟩ =
      Nat.repeat ExtendedMantissa.shiftRightOne n ⟨m, false, false⟩ := by
  induction k with
  | zero => rw [Nat.pow_zero, Nat.mul_one, Nat.add_zero]
  | succ k ih => rw [← Nat.add_assoc, repeat_succ_apply, Nat.pow_succ, ← Nat.mul_assoc,
      shiftRightOne_double, ih]

/-- Zero bits at the end of a mantissa do not change where it is shifted to. -/
theorem shiftToTargetExponent_shifted {m : Nat} {e : Int} (hm : 0 < m) (k : Nat)
    (h : e ≤ Format.binary64.targetExponent (totalExponent m e)) :
    shiftToTargetExponent .binary64 (m * 2 ^ k) (e - k) .exact =
      shiftToTargetExponent .binary64 m e .exact := by
  unfold shiftToTargetExponent shiftToExponent
  rw [totalExponent_shifted hm]
  generalize Format.binary64.targetExponent (totalExponent m e) = t at h
  have hshift : (t - (e - k)).toNat = (t - e).toNat + k := by omega
  dsimp only
  rw [hshift]
  refine Prod.ext (repeat_shiftRightOne m (t - e).toNat k) ?_
  dsimp only
  omega

theorem roundWithAccuracy_shifted {m : Nat} {e : Int} (s : Sign) (hm : 0 < m) (k : Nat)
    (h : e ≤ Format.binary64.targetExponent (totalExponent m e)) :
    roundWithAccuracy .binary64 s (m * 2 ^ k) (e - k) .exact =
      roundWithAccuracy .binary64 s m e .exact := by
  unfold roundWithAccuracy
  rw [shiftToTargetExponent_shifted hm k h]

theorem targetExponent_normal {m : Nat} {e : Int} (h : IsNormal m e) :
    Format.binary64.targetExponent (totalExponent m e) = e := by
  have hleast := h.least
  rw [targetExponent_eq, totalExponent, h.log2]
  omega

theorem shiftToTargetExponent_normal {m : Nat} {e : Int} (h : IsNormal m e) :
    shiftToTargetExponent .binary64 m e .exact = (⟨m, false, false⟩, e) := by
  unfold shiftToTargetExponent shiftToExponent
  rw [targetExponent_normal h]
  dsimp only
  rw [Int.sub_self]
  exact Prod.ext rfl (Int.add_zero e)

/-- A normal mantissa is not rounded. -/
theorem roundWithAccuracy_normal {m : Nat} {e : Int} (s : Sign) (h : IsNormal m e) :
    roundWithAccuracy .binary64 s m e .exact = .finite s m e h.pos := by
  have hrounded : ExtendedMantissa.roundedMantissa ⟨m, false, false⟩ = m := rfl
  unfold roundWithAccuracy
  rw [shiftToTargetExponent_normal h]
  dsimp only
  rw [hrounded, shiftToTargetExponent_normal h]
  exact dif_neg (Nat.ne_of_gt h.pos)

/-! ## Reading -/

theorem IsMagnitude.pos {n m : Nat} {e : Int} (hn : IsMagnitude n m e) (hm : 0 < m) : 0 < n :=
  Nat.pos_of_mul_pos_right (hn ▸ Nat.mul_pos hm (Nat.two_pow_pos _))

/-- A natural number with a normal mantissa has so many bits. -/
theorem IsMagnitude.totalExponent {n m : Nat} {e : Int} (hn : IsMagnitude n m e)
    (h : IsNormal m e) : totalExponent n 0 = 53 + e := by
  have hlog : n.log2 + (-e).toNat = 52 + e.toNat := by
    rw [← log2_mul_two_pow (hn.pos h.pos), hn, log2_mul_two_pow h.pos, h.log2]
  unfold Float.Model.totalExponent
  omega

theorem IsMagnitude.exponent_le {n m : Nat} {e : Int} (hn : IsMagnitude n m e) (h : IsNormal m e)
    (hlt : n < 2 ^ 53) : e ≤ 0 := by
  have hlog := (Nat.log2_lt (Nat.ne_of_gt (hn.pos h.pos))).mpr hlt
  have htotal := hn.totalExponent h
  unfold Float.Model.totalExponent at htotal
  omega

theorem round_natural {n m : Nat} {e : Int} (h : IsNormal m e) (hn : IsMagnitude n m e)
    (hle : e ≤ 0) : UnpackedFloat.round .binary64 .positive n 0 = .finite .positive m e h.pos := by
  have htarget : Format.binary64.targetExponent (totalExponent n 0) = e := by
    have hleast := h.least
    rw [hn.totalExponent h, targetExponent_eq]
    omega
  have hmantissa : n <<< (0 - e).toNat = m := by
    have hzero : e.toNat = 0 := by omega
    have hneg : (0 - e).toNat = (-e).toNat := by omega
    rw [IsMagnitude, hzero, Nat.pow_zero, Nat.mul_one] at hn
    rw [Nat.shiftLeft_eq, hneg, hn]
  have hexponent : (0 : Int) - (0 - e).toNat = e := by omega
  unfold UnpackedFloat.round decreaseExponent
  rw [htarget]
  dsimp only
  rw [hmantissa, hexponent]
  exact roundWithAccuracy_normal .positive h

theorem toFloat_natural {n m : Nat} {e : Int} (h : IsNormal m e) (hn : IsMagnitude n m e)
    (hlt : n < 2 ^ 53) : n.toUInt64.toFloat = valueOf .positive m e h.pos := by
  have hpos := hn.pos h.pos
  have hle := hn.exponent_le h hlt
  have hnat : n.toUInt64.toNat = n := by
    rw [Nat.toUInt64_eq, UInt64.toNat_ofNat']
    omega
  have hcompare : compare (n : Int) 0 = .gt := by
    rw [Int.compare_eq_gt]
    omega
  change Float.ofModel (.pack (UnpackedFloat.ofNat .binary64 n.toUInt64.toNat)) = _
  rw [hnat]
  unfold UnpackedFloat.ofNat UnpackedFloat.ofInt UnpackedFloat.normalize
  rw [hcompare]
  dsimp only
  rw [Int.toNat_natCast, round_natural h hn hle]
  rfl

theorem isNormal_one : IsNormal (2 ^ 52) (-52) :=
  ⟨by decide, by decide, by decide, by decide⟩

theorem isNormal_ten : IsNormal (10 * 2 ^ 49) (-49) :=
  ⟨by decide, by decide, by decide, by decide⟩

theorem ofBits_one :
    Float.ofBits 0x3FF0000000000000 = valueOf .positive (2 ^ 52) (-52) isNormal_one.pos := by
  decide

theorem ofBits_ten :
    Float.ofBits 0x4024000000000000 = valueOf .positive (10 * 2 ^ 49) (-49) isNormal_ten.pos := by
  decide

theorem mul_valueOf {m m' : Nat} {e e' : Int} (h : IsNormal m e) (h' : IsNormal m' e') :
    valueOf .positive m e h.pos * valueOf .positive m' e' h'.pos =
      .ofModel (.pack (roundWithAccuracy .binary64 .positive (m * m') (e + e') .exact)) := by
  have hmul : valueOf .positive m e h.pos * valueOf .positive m' e' h'.pos = .ofModel (.pack
      (UnpackedFloat.mul .binary64 (Float.Model.pack _).unpack (Float.Model.pack _).unpack)) := rfl
  rw [hmul, unpack_pack h, unpack_pack h']
  rfl

/-- What a natural number is rounded to, from a mantissa with zero bits to spare. -/
def rounded (n : Nat) : UnpackedFloat :=
  roundWithAccuracy .binary64 .positive (n * 2 ^ 53) (-53) .exact

/-- How many zero bits there are to spare does not matter. -/
theorem rounded_eq {n k : Nat} (hn : 0 < n) (hk : 52 - (n.log2 : Int) ≤ k) :
    roundWithAccuracy .binary64 .positive (n * 2 ^ k) (-k) .exact = rounded n := by
  have htarget (j : Nat) (hj : 52 - (n.log2 : Int) ≤ j) : -(j : Int) ≤
      Format.binary64.targetExponent (totalExponent (n * 2 ^ j) (-j)) := by
    rw [← Int.zero_sub, totalExponent_shifted hn, targetExponent_eq]
    unfold totalExponent
    omega
  unfold rounded
  rcases Nat.le_total k 53 with hle | hle
  · have hmantissa : n * 2 ^ 53 = n * 2 ^ k * 2 ^ (53 - k) := by
      rw [Nat.mul_assoc, ← Nat.pow_add, Nat.add_sub_cancel' hle]
    have hexponent : (-53 : Int) = -k - (53 - k : Nat) := by omega
    rw [hmantissa, hexponent]
    exact (roundWithAccuracy_shifted _ (Nat.mul_pos hn (Nat.two_pow_pos k)) _ (htarget k hk)).symm
  · have hmantissa : n * 2 ^ k = n * 2 ^ 53 * 2 ^ (k - 53) := by
      rw [Nat.mul_assoc, ← Nat.pow_add, Nat.add_sub_cancel' hle]
    have hexponent : -(k : Int) = -53 - (k - 53 : Nat) := by omega
    rw [hmantissa, hexponent]
    exact roundWithAccuracy_shifted _ (Nat.mul_pos hn (Nat.two_pow_pos 53)) _
      (htarget 53 (by omega))

/-- A natural number that is a value is not rounded. -/
theorem rounded_natural {n m : Nat} {e : Int} (h : IsNormal m e) (hn : IsMagnitude n m e) :
    rounded n = .finite .positive m e h.pos := by
  have htotal := hn.totalExponent h
  have hleast : -52 ≤ e := by
    unfold totalExponent at htotal
    omega
  have hmantissa : n * 2 ^ 53 = m * 2 ^ (e + 53).toNat := hn.shifted (by omega)
  have hexponent : (-53 : Int) = e - (e + 53).toNat := by omega
  unfold rounded
  rw [hmantissa, hexponent,
    roundWithAccuracy_shifted _ h.pos _ (Int.le_of_eq (targetExponent_normal h).symm)]
  exact roundWithAccuracy_normal .positive h

/-- Few digits: the number itself is a value. -/
theorem exists_normal_of_lt {n : Nat} (hn : 0 < n) (hlt : n < 2 ^ 53) :
    ∃ m e, IsNormal m e ∧ IsMagnitude n m e :=
  IsMagnitude.exists_normal (m := n) (e := 0) rfl hn hlt (by decide)

theorem exponentRange : (2 : Int) ^ Format.binary64.exponentBits = 2048 := rfl

/-- Reading a natural number. -/
theorem ofScientific_natural {n : Nat} (hn : 0 < n) :
    Float.ofScientific n false 0 = .ofModel (.pack (rounded n)) := by
  have hne := Nat.ne_of_gt hn
  unfold Float.ofScientific
  split
  · rename_i hfast
    obtain ⟨m, e, h, hmagnitude⟩ := exists_normal_of_lt hn hfast.1
    have hone : roundWithAccuracy .binary64 .positive (m * 2 ^ 52) (e + -52) .exact =
        roundWithAccuracy .binary64 .positive m e .exact :=
      roundWithAccuracy_shifted .positive h.pos 52 (Int.le_of_eq (targetExponent_normal h).symm)
    change n.toUInt64.toFloat * Float.ofBits 0x3FF0000000000000 = _
    rw [toFloat_natural h hmagnitude hfast.1, ofBits_one, mul_valueOf h isNormal_one, hone,
      roundWithAccuracy_normal .positive h, rounded_natural h hmagnitude]
  · change Float.ofModel (.pack (UnpackedFloat.ofScientific .binary64 n 0)) = _
    unfold UnpackedFloat.ofScientific rounded
    rw [exponentRange, dif_neg hne, if_neg (by decide), if_neg (by omega), if_pos (Int.le_refl 0)]
    change Float.ofModel
      (.pack (roundWithAccuracy .binary64 .positive (n <<< 53 * 1) (-53) .exact)) = _
    rw [Nat.shiftLeft_eq, Nat.mul_one]

/-! ## Ten times as much over ten -/

theorem log2_tenfold {n : Nat} (hn : 0 < n) : (10 * n).log2 ≤ n.log2 + 4 := by
  have hlt : 10 * n < 2 ^ (n.log2 + 5) := by
    have hupper := ((Nat.log2_eq_iff (Nat.ne_of_gt hn)).mp rfl).2
    have hpow : 2 ^ (n.log2 + 5) = 16 * 2 ^ (n.log2 + 1) := by
      rw [Nat.pow_add, Nat.pow_add]
      omega
    omega
  have hlog := (Nat.log2_lt (by omega)).mpr hlt
  omega

/-- A quotient without a remainder. -/
theorem divCore_exact {m₁ m₂ q s : Nat} {e₁ e₂ : Int} (hm₂ : 0 < m₂)
    (hs : (e₁ - e₂ - min (e₁ - e₂) (Format.binary64.targetExponent
      (totalExponent m₁ e₁ - totalExponent m₂ e₂))).toNat = s) (hq : m₁ * 2 ^ s = q * m₂) :
    divCore .binary64 m₁ e₁ m₂ e₂ = (q, e₁ - e₂ - s, .exact) := by
  unfold divCore
  dsimp only
  rw [hs, Nat.shiftLeft_eq, hq, Nat.mul_div_cancel q hm₂, Nat.mul_mod_left]
  refine Prod.ext rfl (Prod.ext ?_ rfl)
  dsimp only
  omega

/-- The quotient of the mantissas when ten times the number is a value. -/
theorem divCore_normal {n m : Nat} {e : Int} (h : IsNormal m e)
    (hmagnitude : IsMagnitude (10 * n) m e) (hle : e ≤ 0) :
    divCore .binary64 m e (10 * 2 ^ 49) (-49) =
      (n * 2 ^ (4 - e).toNat, -((4 - e).toNat : Int), .exact) := by
  have hbits := hmagnitude.totalExponent h
  have hshift : (e - -49 - min (e - -49) (Format.binary64.targetExponent
      (totalExponent m e - totalExponent (10 * 2 ^ 49) (-49)))).toNat = 53 := by
    have hleast : -52 ≤ e := by
      unfold totalExponent at hbits
      omega
    rw [targetExponent_eq]
    unfold totalExponent
    rw [h.log2, isNormal_ten.log2]
    omega
  have hquotient : m * 2 ^ 53 = n * 2 ^ (4 - e).toNat * (10 * 2 ^ 49) := by
    have hmantissa := hmagnitude.shifted (k := (-e).toNat) (by omega)
    have hzero : (e + (-e).toNat).toNat = 0 := by omega
    have hsum : (4 - e).toNat = (-e).toNat + 4 := by omega
    rw [hzero, Nat.pow_zero, Nat.mul_one, Nat.mul_assoc] at hmantissa
    rw [← hmantissa, hsum, Nat.pow_add, ← Nat.mul_assoc n]
    omega
  rw [divCore_exact (by decide) hshift hquotient]
  refine Prod.ext rfl (Prod.ext ?_ rfl)
  dsimp only
  omega

theorem divCore_ten {n s : Nat} (hs : (-min 0 (Format.binary64.targetExponent
      (totalExponent (10 * n) 0 - totalExponent 10 0))).toNat = s) :
    divCore .binary64 (10 * n) 0 10 0 = (n * 2 ^ s, -(s : Int), .exact) := by
  have hquotient : 10 * n * 2 ^ s = n * 2 ^ s * 10 := by
    rw [Nat.mul_assoc, Nat.mul_comm]
  rw [divCore_exact (s := s) (by decide) (by simpa using hs) hquotient]
  refine Prod.ext rfl (Prod.ext ?_ rfl)
  dsimp only
  omega

theorem div_valueOf {m m' : Nat} {e e' : Int} (h : IsNormal m e) (h' : IsNormal m' e') :
    valueOf .positive m e h.pos / valueOf .positive m' e' h'.pos =
      .ofModel (.pack (
        let d := divCore .binary64 m e m' e'
        roundWithAccuracy .binary64 .positive d.1 d.2.1 d.2.2)) := by
  have hdiv : valueOf .positive m e h.pos / valueOf .positive m' e' h'.pos = .ofModel (.pack
      (UnpackedFloat.div .binary64 (Float.Model.pack _).unpack (Float.Model.pack _).unpack)) := rfl
  rw [hdiv, unpack_pack h, unpack_pack h']
  rfl

/-- Reading ten times as much over ten. -/
theorem ofScientific_tenfold {n : Nat} (hn : 0 < n) :
    Float.ofScientific (10 * n) true 1 = .ofModel (.pack (rounded n)) := by
  have hne : 10 * n ≠ 0 := by omega
  have hlog := log2_tenfold hn
  unfold Float.ofScientific
  split
  · rename_i hfast
    obtain ⟨m, e, h, hmagnitude⟩ := exists_normal_of_lt (by omega) hfast.1
    have hbits := hmagnitude.totalExponent h
    have hle := hmagnitude.exponent_le h hfast.1
    change (10 * n).toUInt64.toFloat / Float.ofBits 0x4024000000000000 = _
    rw [toFloat_natural h hmagnitude hfast.1, ofBits_ten, div_valueOf h isNormal_ten,
      divCore_normal h hmagnitude hle]
    refine congrArg (fun u => Float.ofModel (.pack u)) (rounded_eq hn ?_)
    unfold totalExponent at hbits
    omega
  · change Float.ofModel (.pack (UnpackedFloat.ofScientific .binary64 (10 * n) (-1))) = _
    unfold UnpackedFloat.ofScientific
    rw [exponentRange, dif_neg hne, if_neg (by decide), if_neg (by omega), if_neg (by decide)]
    change Float.ofModel (.pack (
      let d := divCore .binary64 (10 * n) 0 10 0
      roundWithAccuracy .binary64 .positive d.1 d.2.1 d.2.2)) = _
    rw [divCore_ten rfl]
    refine congrArg (fun u => Float.ofModel (.pack u)) (rounded_eq hn ?_)
    have hten : Nat.log2 10 = 3 := by decide
    rw [targetExponent_eq]
    unfold totalExponent
    rw [hten]
    omega

/-! ## Nearest values -/

theorem length_toDigits_tenfold {n : Nat} (hn : 0 < n) :
    (Nat.toDigits 10 (10 * n)).length = (Nat.toDigits 10 n).length + 1 := by
  have happend :=
    Nat.toDigits_append_toDigits (b := 10) (n := n) (d := 0) (by decide) hn (by decide)
  rw [Nat.add_zero, Nat.toDigits_zero] at happend
  rw [← happend, List.length_append]
  rfl

/-- A zero behind the point does not change the nearest value. -/
theorem nearest_tenfold (n : Nat) : nearest (10 * n) (-1) = nearest n 0 := by
  rcases Nat.eq_zero_or_pos n with rfl | hn
  · rfl
  · have hleading : (-1 : Int) + ((Nat.toDigits 10 (10 * n)).length : Int) =
        0 + ((Nat.toDigits 10 n).length : Int) := by
      rw [length_toDigits_tenfold hn]
      push_cast
      omega
    have hvalue : Float.ofScientific (10 * n) (decide ((-1 : Int) < 0)) (-1 : Int).natAbs =
        Float.ofScientific n (decide ((0 : Int) < 0)) (0 : Int).natAbs :=
      (ofScientific_tenfold hn).trans (ofScientific_natural hn).symm
    have hten : 10 * n ≠ 0 := by omega
    unfold nearest
    dsimp only
    rw [hleading, hvalue, if_neg hten, if_neg (Nat.ne_of_gt hn)]

theorem two_pow_le_ten_pow (k : Nat) : 2 ^ (3 * k) ≤ 10 ^ k := by
  rw [Nat.pow_mul]
  exact Nat.pow_le_pow_left (by decide) k

/-- A value that is an integer has few digits. -/
theorem IsMagnitude.lt_ten_pow {n m k : Nat} {e : Int} (hn : IsMagnitude n m e)
    (h : IsNormal m e) (hk : 1024 ≤ 3 * k) : n < 10 ^ k := by
  have hmost := h.most
  calc n ≤ n * 2 ^ (-e).toNat := Nat.le_mul_of_pos_right n (Nat.two_pow_pos _)
    _ = m * 2 ^ e.toNat := hn
    _ < 2 ^ 53 * 2 ^ e.toNat := Nat.mul_lt_mul_of_pos_right h.upper (Nat.two_pow_pos _)
    _ = 2 ^ (53 + e.toNat) := (Nat.pow_add 2 53 e.toNat).symm
    _ ≤ 2 ^ (3 * k) := Nat.pow_le_pow_right (by decide) (by omega)
    _ ≤ 10 ^ k := two_pow_le_ten_pow k

theorem IsMagnitude.length_toDigits_le {n m k : Nat} {e : Int} (hn : IsMagnitude n m e)
    (h : IsNormal m e) (hk : 1024 ≤ 3 * k) : (Nat.toDigits 10 n).length ≤ k :=
  (Nat.length_toDigits_le_iff (by decide) (by omega)).mpr (hn.lt_ten_pow h hk)

theorem nearest_of_normal {n m : Nat} {e : Int} (h : IsNormal m e) (hn : IsMagnitude n m e) :
    nearest n 0 = valueOf .positive m e h.pos := by
  have hpos := hn.pos h.pos
  have hlength : (Nat.toDigits 10 n).length ≤ 400 := hn.length_toDigits_le h (by decide)
  have hdigits : 0 < (Nat.toDigits 10 n).length := Nat.length_toDigits_pos
  unfold nearest
  dsimp only
  rw [if_neg (Nat.ne_of_gt hpos), if_neg (by omega), if_neg (by omega)]
  change Float.ofScientific n false 0 = _
  rw [ofScientific_natural hpos, rounded_natural h hn]
  rfl

/-- The integer that a value is is read as itself. -/
theorem integer?_nearest {x : Float} {i : Int} (h : integer? x = some i) :
    integer? (if i < 0 then -nearest i.natAbs 0 else nearest i.natAbs 0) = some i := by
  by_cases hi : i = 0
  · subst hi
    change integer? 0.0 = some 0
    decide +kernel
  · obtain ⟨m, e, hnormal, hmagnitude⟩ := exists_normal_of_integer? h hi
    rw [nearest_of_normal hnormal hmagnitude]
    split
    · rw [neg_valueOf _ hnormal, integer?_valueOf _ hnormal hmagnitude]
      change some (-(i.natAbs : Int)) = some i
      congr 1
      omega
    · rw [integer?_valueOf _ hnormal hmagnitude]
      change some (i.natAbs : Int) = some i
      congr 1
      omega

end Number
end SceneReader
