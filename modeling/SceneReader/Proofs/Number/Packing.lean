import Mathlib.Algebra.Order.Ring.Int
import SceneReader.Number.Binary

/-!
# Values and their parts

A value with a normal mantissa keeps sign, mantissa and exponent when it is packed into
bits, and these are the parts that are read off its bits.  So it is known which integers
are values: those whose bits fit into a normal mantissa.

**Results.**
* `unpack_pack`: packing a normal mantissa loses nothing.
* `exists_normal_of_integer?`: an integer that is a value has a normal mantissa.
* `integer?_valueOf`: a normal mantissa that stands for an integer is a value.
-/

namespace SceneReader
namespace Number

open Float.Model Float.Model.UnpackedFloat

/-! ## Mantissas -/

/-- A mantissa with its leading bit at the top, and an exponent that values have. -/
structure IsNormal (m : Nat) (e : Int) : Prop where
  lower : 2 ^ 52 ≤ m
  upper : m < 2 ^ 53
  least : -1074 ≤ e
  most : e ≤ 971

namespace IsNormal

variable {m : Nat} {e : Int}

theorem pos (h : IsNormal m e) : 0 < m := Nat.lt_of_lt_of_le (by decide) h.lower

theorem log2 (h : IsNormal m e) : m.log2 = 52 :=
  (Nat.log2_eq_iff (Nat.ne_of_gt h.pos)).mpr ⟨h.lower, h.upper⟩

end IsNormal

/-! ## Packing -/

theorem unpackSign_packComponents (s : Sign) (e : BitVec 11) (f : BitVec 52) :
    Sign.ofBitVec (unpackSign (packComponents .binary64 s e f)) = s := by
  unfold unpackSign packComponents BitVec.extractLsb
  rw [BitVec.extractLsb'_append_eq_of_le (by decide),
    BitVec.extractLsb'_append_eq_of_le (by decide)]
  cases s <;> rfl

theorem toNat_one_append (f : BitVec 52) : (1#1 ++ f).toNat = 2 ^ 52 + f.toNat := by
  rw [BitVec.toNat_append, ← Nat.shiftLeft_add_eq_or_of_lt f.isLt]
  rfl

theorem finite_congr {s : Sign} {m m' : Nat} {e e' : Int} {hm : 0 < m} {hm' : 0 < m'}
    (hmantissa : m = m') (hexponent : e = e') :
    UnpackedFloat.finite s m e hm = .finite s m' e' hm' := by
  subst hmantissa hexponent
  rfl

/-- Packing a normal mantissa loses nothing. -/
theorem unpack_pack {s : Sign} {m : Nat} {e : Int} (h : IsNormal m e) :
    (Float.Model.pack (.finite s m e h.pos)).unpack = .finite s m e h.pos := by
  have hlower := h.lower
  have hupper := h.upper
  have hleast := h.least
  have hmost := h.most
  have hbiased : (e + Format.binary64.exponentBias +
      Format.binary64.mantissaBitsWithoutImplicit).toNat = (e + 1075).toNat := by
    change (e + (1023 : Nat) + (52 : Nat)).toNat = _
    omega
  have hexponent : (BitVec.ofNat 11 (e + 1075).toNat).toNat = (e + 1075).toNat := by
    rw [BitVec.toNat_ofNat]
    omega
  have hpack : UnpackedFloat.pack .binary64 (.finite s m e h.pos) =
      packComponents .binary64 s (BitVec.ofNat 11 (e + 1075).toNat) (BitVec.ofNat 52 m) := by
    unfold UnpackedFloat.pack
    dsimp only
    rw [hbiased, h.log2, if_neg (by omega)]
    exact if_pos rfl
  have hfull : BitVec.ofNat 11 (e + 1075).toNat ≠ -1#11 := by
    intro heq
    have hnat : (e + 1075).toNat = 2047 := hexponent.symm.trans (congrArg BitVec.toNat heq)
    omega
  have hzero : BitVec.ofNat 11 (e + 1075).toNat ≠ 0#11 := by
    intro heq
    have hnat : (e + 1075).toNat = 0 := hexponent.symm.trans (congrArg BitVec.toNat heq)
    omega
  have hmantissa : (1#1 ++ BitVec.ofNat 52 m).toNat = m := by
    rw [toNat_one_append, BitVec.toNat_ofNat]
    omega
  change UnpackedFloat.unpack .binary64 (UnpackedFloat.pack .binary64 _) = _
  rw [hpack]
  unfold UnpackedFloat.unpack
  rw [unpackExponent_packComponents]
  dsimp only
  rw [if_neg hfull, if_neg hzero, unpackSign_packComponents]
  refine finite_congr ?_ ?_
  · rw [unpackMantissa_packComponents, hmantissa]
  · rw [hexponent]
    change (((e + 1075).toNat : Nat) : Int) - ((1023 : Nat) + (52 : Nat)) = e
    omega

/-- The value with a sign, a mantissa and an exponent. -/
def valueOf (s : Sign) (m : Nat) (e : Int) (hm : 0 < m) : Float :=
  .ofModel (.pack (.finite s m e hm))

/-- The bits of a value. -/
def fieldsOf (x : Float) : BitVec Format.binary64.numBits := x.toModel.toBits.toBitVec

theorem exponentField (x : Float) :
    ((x.toBits >>> 52) &&& 0x7FF).toNat = (unpackExponent (fieldsOf x)).toNat := by
  unfold fieldsOf unpackExponent
  rw [BitVec.toNat_cast, BitVec.extractLsb_toNat, UInt64.toNat_and, UInt64.toNat_shiftRight]
  exact Nat.and_two_pow_sub_one_eq_mod _ 11

theorem mantissaField (x : Float) :
    (x.toBits &&& 0xFFFFFFFFFFFFF).toNat = (unpackMantissa (fieldsOf x)).toNat := by
  unfold fieldsOf unpackMantissa
  rw [BitVec.toNat_cast, BitVec.extractLsb_toNat, UInt64.toNat_and]
  exact Nat.and_two_pow_sub_one_eq_mod _ 52

theorem signField (x : Float) :
    signBit x = (Sign.ofBitVec (unpackSign (fieldsOf x)) == .negative) := by
  have hnat : (unpackSign (fieldsOf x)).toNat = (x.toBits >>> 63).toNat := by
    have hlt := x.toBits.toNat_lt
    unfold fieldsOf unpackSign
    rw [BitVec.toNat_cast, BitVec.extractLsb_toNat, UInt64.toNat_shiftRight]
    change x.toBits.toNat >>> 63 % 2 = x.toBits.toNat >>> 63
    rw [Nat.shiftRight_eq_div_pow]
    omega
  unfold signBit Sign.ofBitVec
  by_cases hsign : unpackSign (fieldsOf x) = 0#1
  · rw [hsign] at hnat
    have hbits : x.toBits >>> 63 = 0 := UInt64.toNat_inj.mp hnat.symm
    rw [hbits, if_pos hsign]
    rfl
  · have hone : unpackSign (fieldsOf x) = 1#1 := by
      have hlt := (unpackSign (fieldsOf x)).isLt
      have hne : (unpackSign (fieldsOf x)).toNat ≠ 0 := fun heq => hsign (BitVec.eq_of_toNat_eq heq)
      refine BitVec.eq_of_toNat_eq ?_
      change _ = 1
      omega
    rw [hone] at hnat
    have hbits : x.toBits >>> 63 = 1 := UInt64.toNat_inj.mp hnat.symm
    rw [hbits, if_neg hsign]
    rfl

/-- The magnitude of a value that is neither zero nor without bound. -/
theorem ofFloat_of_unpack {x : Float} {s : Sign} {m : Nat} {e : Int} {hm : 0 < m}
    (h : x.toModel.unpack = .finite s m e hm) :
    (Binary.ofFloat x).mantissa = m ∧ (Binary.ofFloat x).exponent = e ∧
      signBit x = (s == .negative) ∧ m < 2 ^ 53 ∧ e ≤ 971 := by
  have hmantissa : (unpackMantissa (fieldsOf x)).toNat < 2 ^ 52 :=
    (unpackMantissa (fieldsOf x)).isLt
  have hexponent : (unpackExponent (fieldsOf x)).toNat < 2 ^ 11 :=
    (unpackExponent (fieldsOf x)).isLt
  change UnpackedFloat.unpack .binary64 (fieldsOf x) = _ at h
  unfold UnpackedFloat.unpack at h
  dsimp only at h
  unfold Binary.ofFloat
  simp only [exponentField, mantissaField, signField]
  by_cases hfull : unpackExponent (fieldsOf x) = -1#11
  · rw [if_pos hfull] at h
    by_cases hzero : unpackMantissa (fieldsOf x) = 0#52
    · rw [if_pos hzero] at h
      cases h
    · rw [if_neg hzero] at h
      cases h
  · rw [if_neg hfull] at h
    have hmost : (unpackExponent (fieldsOf x)).toNat ≠ 2047 :=
      fun heq => hfull (BitVec.eq_of_toNat_eq heq)
    by_cases hzero : unpackExponent (fieldsOf x) = 0#11
    · have hnat : (unpackExponent (fieldsOf x)).toNat = 0 := congrArg BitVec.toNat hzero
      rw [if_pos hzero] at h
      rw [if_pos hnat]
      by_cases hnone : unpackMantissa (fieldsOf x) = 0#52
      · rw [dif_pos hnone] at h
        cases h
      · rw [dif_neg hnone] at h
        cases h
        refine ⟨rfl, ?_, rfl, by omega, by omega⟩
        rw [hnat]
        rfl
    · have hnat : (unpackExponent (fieldsOf x)).toNat ≠ 0 :=
        fun heq => hzero (BitVec.eq_of_toNat_eq heq)
      rw [if_neg hzero] at h
      rw [if_neg hnat]
      cases h
      rw [toNat_one_append]
      refine ⟨rfl, rfl, rfl, by omega, ?_⟩
      change ((unpackExponent (fieldsOf x)).toNat : Int) - 1075 ≤ 971
      omega

theorem ofFloat_of_unpack_zero {x : Float} {s : Sign} (h : x.toModel.unpack = .zero s) :
    (Binary.ofFloat x).mantissa = 0 := by
  change UnpackedFloat.unpack .binary64 (fieldsOf x) = _ at h
  unfold UnpackedFloat.unpack at h
  dsimp only at h
  unfold Binary.ofFloat
  simp only [exponentField, mantissaField]
  by_cases hfull : unpackExponent (fieldsOf x) = -1#11
  · rw [if_pos hfull] at h
    by_cases hzero : unpackMantissa (fieldsOf x) = 0#52
    · rw [if_pos hzero] at h
      cases h
    · rw [if_neg hzero] at h
      cases h
  · rw [if_neg hfull] at h
    by_cases hzero : unpackExponent (fieldsOf x) = 0#11
    · rw [if_pos hzero] at h
      by_cases hnone : unpackMantissa (fieldsOf x) = 0#52
      · rw [hzero, hnone]
        rfl
      · rw [dif_neg hnone] at h
        cases h
    · rw [if_neg hzero] at h
      cases h

/-! ## Natural numbers that are values -/

/-- The natural number is a mantissa with its exponent. -/
def IsMagnitude (n m : Nat) (e : Int) : Prop := n * 2 ^ (-e).toNat = m * 2 ^ e.toNat

theorem natural?_eq_some_iff {b : Binary} {n : Nat} :
    b.natural? = some n ↔ IsMagnitude n b.mantissa b.exponent := by
  have hden : 0 < b.den := Nat.two_pow_pos _
  have hdef : IsMagnitude n b.mantissa b.exponent ↔ n * b.den = b.num := Iff.rfl
  rw [hdef]
  unfold Binary.natural?
  constructor
  · intro h
    split at h
    · rename_i hmod
      cases h
      exact Nat.div_mul_cancel (Nat.dvd_of_mod_eq_zero hmod)
    · cases h
  · intro h
    rw [← h, if_pos (Nat.mul_mod_left _ _), Nat.mul_div_cancel _ hden]

namespace IsMagnitude

variable {n m : Nat} {e : Int}

/-- A lower exponent makes the same number of a longer mantissa. -/
theorem shifted (h : IsMagnitude n m e) {k : Nat} (hk : 0 ≤ e + k) :
    n * 2 ^ k = m * 2 ^ (e + k).toNat := by
  unfold IsMagnitude at h
  rcases Int.le_total 0 e with he | he
  · have hsum : (e + k).toNat = e.toNat + k := by omega
    have hzero : (-e).toNat = 0 := by omega
    rw [hzero, Nat.pow_zero, Nat.mul_one] at h
    rw [h, hsum, Nat.pow_add, Nat.mul_assoc]
  · have hsum : k = (-e).toNat + (e + k).toNat := by omega
    have hzero : e.toNat = 0 := by omega
    rw [hzero, Nat.pow_zero, Nat.mul_one] at h
    rw [← h, Nat.mul_assoc, ← Nat.pow_add, ← hsum]

/-- The bits of the mantissa are all that the number has. -/
theorem exists_dvd (h : IsMagnitude n m e) (hm : m < 2 ^ 53) {l : Nat} (hl : 2 ^ l ≤ n) :
    2 ^ (l - 52) ∣ n ∧ ((l - 52 : Nat) : Int) ≤ max e 0 := by
  unfold IsMagnitude at h
  rcases Int.le_total 0 e with he | he
  · have hzero : (-e).toNat = 0 := by omega
    rw [hzero, Nat.pow_zero, Nat.mul_one] at h
    have hlt : 2 ^ l < 2 ^ (53 + e.toNat) := by
      rw [Nat.pow_add]
      exact Nat.lt_of_le_of_lt (h ▸ hl) (Nat.mul_lt_mul_of_pos_right hm (Nat.two_pow_pos _))
    have hbits := (Nat.pow_lt_pow_iff_right (by decide)).mp hlt
    refine ⟨h ▸ Nat.dvd_mul_left_of_dvd (Nat.pow_dvd_pow 2 (by omega)) m, by omega⟩
  · have hzero : e.toNat = 0 := by omega
    rw [hzero, Nat.pow_zero, Nat.mul_one] at h
    have hle : n ≤ m := h ▸ Nat.le_mul_of_pos_right n (Nat.two_pow_pos _)
    have hlt : 2 ^ l < 2 ^ 53 := by omega
    have hbits := (Nat.pow_lt_pow_iff_right (by decide)).mp hlt
    have hnone : l - 52 = 0 := by omega
    rw [hnone]
    exact ⟨Nat.one_dvd n, by omega⟩

/-- A number with few enough bits is a normal mantissa with an exponent. -/
theorem exists_normal (h : IsMagnitude n m e) (hn : 0 < n) (hm : m < 2 ^ 53) (he : e ≤ 971) :
    ∃ m' e', IsNormal m' e' ∧ IsMagnitude n m' e' := by
  obtain ⟨hlower, hupper⟩ := (Nat.log2_eq_iff (Nat.ne_of_gt hn)).mp (rfl : n.log2 = n.log2)
  generalize n.log2 = l at hlower hupper
  rcases Nat.le_total l 52 with hl | hl
  · -- few bits: zero bits are put behind them
    have hneg : (-((l : Int) - 52)).toNat = 52 - l := by omega
    have hzero : ((l : Int) - 52).toNat = 0 := by omega
    have hpos := Nat.two_pow_pos (52 - l)
    have hleast : 2 ^ 52 ≤ n * 2 ^ (52 - l) := by
      calc 2 ^ 52 = 2 ^ l * 2 ^ (52 - l) := by rw [← Nat.pow_add, Nat.add_sub_cancel' hl]
        _ ≤ n * 2 ^ (52 - l) := Nat.mul_le_mul_right _ hlower
    have hmost : n * 2 ^ (52 - l) < 2 ^ 53 := by
      calc n * 2 ^ (52 - l) < 2 ^ (l + 1) * 2 ^ (52 - l) := Nat.mul_lt_mul_of_pos_right hupper hpos
        _ = 2 ^ 53 := by
          rw [← Nat.pow_add]
          congr 1
          omega
    refine ⟨n * 2 ^ (52 - l), (l : Int) - 52, ⟨hleast, hmost, by omega, by omega⟩, ?_⟩
    rw [IsMagnitude, hneg, hzero, Nat.pow_zero, Nat.mul_one]
  · -- many bits: the lowest ones are zero
    obtain ⟨⟨q, rfl⟩, hexponent⟩ := h.exists_dvd hm hlower
    have hpos := Nat.two_pow_pos (l - 52)
    have hleast : 2 ^ 52 ≤ q := by
      refine Nat.le_of_mul_le_mul_left ?_ hpos
      rwa [← Nat.pow_add, Nat.sub_add_cancel hl]
    have hmost : q < 2 ^ 53 := by
      refine Nat.lt_of_mul_lt_mul_left (a := 2 ^ (l - 52)) ?_
      rw [← Nat.pow_add]
      have hsum : l - 52 + 53 = l + 1 := by omega
      rwa [hsum]
    refine ⟨q, (l - 52 : Nat), ⟨hleast, hmost, by omega, by omega⟩, ?_⟩
    have hneg : (-((l - 52 : Nat) : Int)).toNat = 0 := by omega
    rw [IsMagnitude, hneg, Int.toNat_natCast, Nat.pow_zero, Nat.mul_one, Nat.mul_comm]

end IsMagnitude

theorem integer?_of_natural? {x : Float} {n : Nat} (hx : isFinite x = true)
    (h : (Binary.ofFloat x).natural? = some n) :
    integer? x = some (if signBit x then -(n : Int) else (n : Int)) := by
  unfold integer?
  rw [if_pos hx, h]
  rfl

/-- An integer that is a value has a normal mantissa, if it is not zero. -/
theorem exists_normal_of_integer? {x : Float} {i : Int} (h : integer? x = some i) (hi : i ≠ 0) :
    ∃ m e, IsNormal m e ∧ IsMagnitude i.natAbs m e := by
  by_cases hfinite : isFinite x = true
  · cases hnat : (Binary.ofFloat x).natural? with
    | none =>
        rw [integer?, if_pos hfinite, hnat] at h
        cases h
    | some n =>
        rw [integer?_of_natural? hfinite hnat, Option.some.injEq] at h
        have hn : i.natAbs = n := by
          split at h <;> omega
        have hpos : 0 < n := by omega
        have hmagnitude := natural?_eq_some_iff.mp hnat
        change x.toModel.unpack.isFinite = true at hfinite
        cases hx : x.toModel.unpack with
        | infinity s =>
            rw [hx] at hfinite
            cases hfinite
        | notANumber =>
            rw [hx] at hfinite
            cases hfinite
        | zero s =>
            rw [IsMagnitude, ofFloat_of_unpack_zero hx, Nat.zero_mul] at hmagnitude
            exact absurd hmagnitude (Nat.ne_of_gt (Nat.mul_pos hpos (Nat.two_pow_pos _)))
        | finite s m e hm =>
            obtain ⟨hmantissa, hexponent, -, hupper, hmost⟩ := ofFloat_of_unpack hx
            rw [hmantissa, hexponent] at hmagnitude
            rw [hn]
            exact hmagnitude.exists_normal hpos hupper hmost
  · rw [integer?, if_neg hfinite] at h
    cases h

theorem integer?_valueOf {n m : Nat} {e : Int} (s : Sign) (h : IsNormal m e)
    (hn : IsMagnitude n m e) : integer? (valueOf s m e h.pos) = some (s.apply n) := by
  have hunpack : (valueOf s m e h.pos).toModel.unpack = .finite s m e h.pos := unpack_pack h
  obtain ⟨hmantissa, hexponent, hsign, -⟩ := ofFloat_of_unpack hunpack
  have hfinite : isFinite (valueOf s m e h.pos) = true := by
    change (valueOf s m e h.pos).toModel.unpack.isFinite = true
    rw [hunpack]
    rfl
  have hnat : (Binary.ofFloat (valueOf s m e h.pos)).natural? = some n := by
    rw [natural?_eq_some_iff, hmantissa, hexponent]
    exact hn
  rw [integer?_of_natural? hfinite hnat, hsign]
  cases s <;> rfl

theorem neg_valueOf {m : Nat} {e : Int} (s : Sign) (h : IsNormal m e) :
    -valueOf s m e h.pos = valueOf (-s) m e h.pos := by
  change Float.ofModel (.pack (UnpackedFloat.neg (valueOf s m e h.pos).toModel.unpack)) = _
  have hunpack : (valueOf s m e h.pos).toModel.unpack = .finite s m e h.pos := unpack_pack h
  rw [hunpack]
  rfl

end Number
end SceneReader
