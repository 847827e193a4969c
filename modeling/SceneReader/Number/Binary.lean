/-!
# Finite floating point values as exact numbers

A finite value is a natural number times a power of two.  Everything that is said
exactly about a value, its shortest decimal, its rounding to some digits or its
integer part, is computed from this form.
-/

namespace SceneReader
namespace Number

/-- The magnitude `mantissa * 2 ^ exponent` of a finite value. -/
structure Binary where
  mantissa : Nat
  exponent : Int
  /-- The gap to the value below is half the gap to the value above. -/
  narrowBelow : Bool
deriving DecidableEq

namespace Binary

/-- The magnitude of a finite value; neither NaN nor an infinity is one. -/
def ofFloat (x : Float) : Binary :=
  let bits := x.toBits
  let e := ((bits >>> 52) &&& 0x7FF).toNat
  let f := (bits &&& 0xFFFFFFFFFFFFF).toNat
  if e = 0 then ⟨f, -1074, false⟩
  else ⟨0x10000000000000 + f, (e : Int) - 1075, f == 0 && decide (1 < e)⟩

/-- Numerator of the magnitude over `den`. -/
def num (b : Binary) : Nat :=
  b.mantissa * Nat.pow 2 b.exponent.toNat

/-- Denominator of the magnitude, a power of two. -/
def den (b : Binary) : Nat :=
  Nat.pow 2 (-b.exponent).toNat

/-- The magnitude when it is a natural number. -/
def natural? (b : Binary) : Option Nat :=
  if b.num % b.den = 0 then some (b.num / b.den) else none

end Binary

/-- Neither NaN nor an infinity. -/
def isFinite (x : Float) : Bool :=
  x.isFinite

/-- The sign bit is set; zero has a sign, too. -/
def signBit (x : Float) : Bool :=
  x.toBits >>> 63 == 1

/-- The integer that a value is, if it is one. -/
def integer? (x : Float) : Option Int :=
  if isFinite x then
    (Binary.ofFloat x).natural?.map (fun n => if signBit x then -(n : Int) else (n : Int))
  else none

end Number
end SceneReader
