import SceneReader.Number.Binary
import SceneReader.Number.Decimal

/-!
# The shortest decimal of a value

The reals that round to a value form an interval around it, whose ends belong to it
when the mantissa is even.  Among the decimals in that interval those with the
fewest digits are sought, and of these the nearest to the value; a tie goes to the
even digit.

Numbers taken from scene text are written in this form: positionally while the
leading exponent is at least -4 and below 16.
-/

namespace SceneReader
namespace Number

/-- Compares `a * 10 ^ i` with `n * 2 ^ j`. -/
def compareScaled (a : Nat) (i : Int) (n : Nat) (j : Int) : Ordering :=
  compare (a * Nat.pow 10 i.toNat * Nat.pow 2 (-j).toNat)
    (n * Nat.pow 2 j.toNat * Nat.pow 10 (-i).toNat)

namespace Binary

/-- The decimal lies among the reals that round to the value. -/
def readsBack (b : Binary) (d : Decimal) : Bool :=
  let lo := if b.narrowBelow then 4 * b.mantissa - 1 else 4 * b.mantissa - 2
  let hi := 4 * b.mantissa + 2
  let closed := b.mantissa % 2 == 0
  let below := compareScaled d.digits d.exponent lo (b.exponent - 2)
  let above := compareScaled d.digits d.exponent hi (b.exponent - 2)
  (below == .gt || (closed && below == .eq)) && (above == .lt || (closed && above == .eq))

/-- The exponent `e` with `10 ^ e ≤ b < 10 ^ (e + 1)`, for a value that is not zero. -/
def leading (b : Binary) : Int :=
  let e : Int := ((decimalDigits b.num).length : Int) - (decimalDigits b.den).length
  if compare (b.den * Nat.pow 10 e.toNat) (b.num * Nat.pow 10 (-e).toNat) == .gt then e - 1 else e

/-- The value over `10 ^ grid`, as a quotient of naturals. -/
def onGrid (b : Binary) (grid : Int) : Nat × Nat :=
  (b.num * Nat.pow 10 (-grid).toNat, b.den * Nat.pow 10 grid.toNat)

/-- The neighbours of the value on a decimal grid that read back, the nearer if both do. -/
def shortestOnGrid? (b : Binary) (grid : Int) : Option Decimal :=
  let (n, d) := b.onGrid grid
  let lo := n / d
  let down : Decimal := ⟨lo, grid⟩
  let up : Decimal := ⟨lo + 1, grid⟩
  match b.readsBack down, b.readsBack up with
  | true, false => some down
  | false, true => some up
  | false, false => none
  | true, true =>
      match compare (2 * (n % d)) d with
      | .lt => some down
      | .gt => some up
      | .eq => if lo % 2 = 0 then some down else some up

/-- The decimal that has all digits of the value. -/
def exactDecimal (b : Binary) : Decimal :=
  ⟨b.mantissa * Nat.pow 2 b.exponent.toNat * Nat.pow 5 (-b.exponent).toNat, min b.exponent 0⟩

/-- The nearest among the shortest decimals that read back, without trailing zeros. -/
def shortest (b : Binary) : Decimal :=
  if b.mantissa = 0 then ⟨0, 0⟩
  else
    (((List.range 17).findSome? (fun (n : Nat) => b.shortestOnGrid? (b.leading - n))).getD
      b.exactDecimal).normalize

end Binary

/-- The text of a value with the given writing of magnitudes. -/
def signed (magnitude : Binary → List Char) (x : Float) : String :=
  if x.isNaN then "nan"
  else
    let body := if isFinite x then magnitude (Binary.ofFloat x) else ['i', 'n', 'f']
    String.ofList (if signBit x then '-' :: body else body)

/-- Exact numbers are positional from `10 ^ -4` to below `10 ^ 16`, and integral ones
keep a point and a zero. -/
def exactLayout : Layout := ⟨-4, 16, true⟩

/-- The shortest text that reads back to the value. -/
def exactText (x : Float) : String :=
  signed (fun b => exactLayout.render b.shortest) x

end Number
end SceneReader
