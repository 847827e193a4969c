/-!
# Decimals and how they are laid out

A decimal is a natural number of digits times a power of ten.  A `Layout` holds the
decisions of one output format; `Layout.render` writes a decimal by them.

The exponent form has one digit before the point, a sign and at least two digits of
exponent.  A decimal is written in it when the exponent of its leading digit is
outside the range that the layout keeps positional.
-/

namespace SceneReader
namespace Number

/-- The magnitude `digits * 10 ^ exponent`. -/
structure Decimal where
  digits : Nat
  exponent : Int
deriving DecidableEq

/-- The decimal digits of a natural number. -/
def decimalDigits (n : Nat) : List Char :=
  Nat.toDigits 10 n

/-- The decimal digits of an integer. -/
def integerText (i : Int) : String :=
  String.ofList (if i < 0 then '-' :: decimalDigits i.natAbs else decimalDigits i.natAbs)

namespace Decimal

/-- Trailing zeros moved from the digits into the exponent, `fuel` of them at most. -/
def strip : Nat → Decimal → Decimal
  | 0, d => d
  | fuel + 1, d =>
      if d.digits ≠ 0 ∧ d.digits % 10 = 0 then
        strip fuel ⟨d.digits / 10, d.exponent + 1⟩
      else d

/-- The same magnitude without trailing zeros. -/
def normalize (d : Decimal) : Decimal :=
  strip (decimalDigits d.digits).length d

/-- Exponent of the leading digit; zero has its one digit at the units. -/
def leading (d : Decimal) : Int :=
  if d.digits = 0 then 0 else d.exponent + (decimalDigits d.digits).length - 1

end Decimal

/-- What an output format decides about its numbers. -/
structure Layout where
  /-- Leading exponents from here … -/
  plainFrom : Int
  /-- … to below here are written positionally. -/
  plainBelow : Int
  /-- Integral values in positional form end in a point and a zero. -/
  pointZero : Bool

namespace Layout

/-- The exponent of the exponent form: a sign and at least two digits. -/
def exponentText (e : Int) : List Char :=
  let ds := decimalDigits e.natAbs
  'e' :: (if e < 0 then '-' else '+') :: (List.replicate (2 - ds.length) '0' ++ ds)

/-- Digits in positional form, the first of them standing for `10 ^ leading`. -/
def positional (l : Layout) (ds : List Char) (leading : Int) : List Char :=
  if leading < 0 then
    '0' :: '.' :: (List.replicate (leading.natAbs - 1) '0' ++ ds)
  else
    let whole := leading.toNat + 1
    if ds.length ≤ whole then
      ds ++ List.replicate (whole - ds.length) '0' ++ (if l.pointZero then ['.', '0'] else [])
    else ds.take whole ++ '.' :: ds.drop whole

/-- Digits in exponent form. -/
def scientific (ds : List Char) (leading : Int) : List Char :=
  match ds with
  | [] => []
  | [d] => d :: exponentText leading
  | d :: rest => d :: '.' :: (rest ++ exponentText leading)

/-- A magnitude without trailing zeros, written by the layout. -/
def render (l : Layout) (d : Decimal) : List Char :=
  let ds := decimalDigits d.digits
  if l.plainFrom ≤ d.leading ∧ d.leading < l.plainBelow then l.positional ds d.leading
  else scientific ds d.leading

end Layout

end Number
end SceneReader
