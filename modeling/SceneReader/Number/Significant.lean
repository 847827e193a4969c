import SceneReader.Number.Shortest

/-!
# Numbers rounded to significant digits

Computed numbers are shown rounded to a set count of significant digits, an exact tie
going to the even digit, and without trailing zeros.  They are written positionally
while the leading exponent is at least -4 and below the count of digits.
-/

namespace SceneReader
namespace Number

/-- The quotient rounded to the nearest natural number, a tie to the even one. -/
def roundDiv (n d : Nat) : Nat :=
  let q := n / d
  match compare (2 * (n % d)) d with
  | .lt => q
  | .gt => q + 1
  | .eq => if q % 2 = 0 then q else q + 1

/-- The value rounded to `places` significant digits. -/
def Binary.rounded (places : Nat) (b : Binary) : Decimal :=
  if b.mantissa = 0 then ⟨0, 0⟩
  else
    let grid := b.leading - (places - 1 : Nat)
    let (n, d) := b.onGrid grid
    Decimal.normalize ⟨roundDiv n d, grid⟩

/-- Rounded numbers are positional from `10 ^ -4` to below the count of their digits. -/
def roundedLayout (places : Nat) : Layout := ⟨-4, places, false⟩

/-- A value with `places` significant digits at most. -/
def roundedText (places : Nat) (x : Float) : String :=
  signed (fun b => (roundedLayout places).render (b.rounded places)) x

/-- Values as the scene tree shows them, with six digits. -/
def briefText (x : Float) : String :=
  roundedText 6 x

end Number
end SceneReader
