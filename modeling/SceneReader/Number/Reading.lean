import SceneReader.Text.Blank
import SceneReader.Text.Digit
import SceneReader.Number.Binary

/-!
# Reading decimal numbers

The numerals that stand for a number: blanks around them are left out, the digits may
be the decimal digits of any script, the point and the exponent are optional, and the
words for infinity and for the undefined value are numbers, too.  The value is the
nearest one, a tie going to the even mantissa.
-/

namespace SceneReader
namespace Number

/-- What a numeral says, before it is rounded to a value. -/
inductive Numeral where
  | infinite
  | undefined
  | finite (mantissa : Nat) (exponent : Int)
deriving DecidableEq

/-- Decimal digits of any script as those of ASCII, blanks beyond ASCII as spaces. -/
def plainChar (c : Char) : Char :=
  if c.toNat < 127 then c
  else if Text.isBlank c then ' '
  else match Text.decimalDigit? c with
    | some d => Nat.digitChar d
    | none => '?'

/-- The blanks of ASCII that may stand around a numeral. -/
def isPadding (c : Char) : Bool :=
  c == ' ' || (decide (9 ≤ c.toNat) && decide (c.toNat ≤ 13))

/-- A text without the padding around it. -/
def trimPadding (cs : List Char) : List Char :=
  ((cs.dropWhile isPadding).reverse.dropWhile isPadding).reverse

/-- The value of a row of ASCII digits. -/
def digitsValue (cs : List Char) : Nat :=
  cs.foldl (fun n c => 10 * n + (c.toNat - 48)) 0

/-- A sign, if there is one: whether it is a minus, and what follows it. -/
def takeSign : List Char → Bool × List Char
  | '-' :: cs => (true, cs)
  | '+' :: cs => (false, cs)
  | cs => (false, cs)

/-- An exponent up to the end of the text; none at all is the exponent zero. -/
def exponent? : List Char → Option Int
  | [] => some 0
  | c :: cs =>
      if c = 'e' ∨ c = 'E' then
        let (negative, ds) := takeSign cs
        if ds.isEmpty || !ds.all Char.isDigit then none
        else some (if negative then -(digitsValue ds : Int) else (digitsValue ds : Int))
      else none

/-- The digits after the point, if there is a point, and what follows them. -/
def takeFraction : List Char → List Char × List Char
  | '.' :: cs => (cs.takeWhile Char.isDigit, cs.dropWhile Char.isDigit)
  | cs => ([], cs)

/-- A numeral of digits with optional point and exponent. -/
def digitNumeral? (cs : List Char) : Option Numeral :=
  let whole := cs.takeWhile Char.isDigit
  let (fraction, rest) := takeFraction (cs.dropWhile Char.isDigit)
  if whole.isEmpty && fraction.isEmpty then none
  else (exponent? rest).map
    (fun e => .finite (digitsValue (whole ++ fraction)) (e - fraction.length))

/-- A numeral without sign. -/
def unsignedNumeral? (cs : List Char) : Option Numeral :=
  let word := cs.map Char.toLower
  if word = ['i', 'n', 'f'] ∨ word = ['i', 'n', 'f', 'i', 'n', 'i', 't', 'y'] then some .infinite
  else if word = ['n', 'a', 'n'] then some .undefined
  else digitNumeral? cs

/-- The sign and the numeral that a text is. -/
def numeral? (cs : List Char) : Option (Bool × Numeral) :=
  let (negative, body) := takeSign (trimPadding (cs.map plainChar))
  (unsignedNumeral? body).map (fun n => (negative, n))

/-- The infinite value. -/
def infinity : Float := 1.0 / 0.0

/-- The undefined value. -/
def undefinedValue : Float := 0.0 / 0.0

/-- The value nearest to `mantissa * 10 ^ exponent`.  Magnitudes beyond every value are
told by their leading exponent alone. -/
def nearest (mantissa : Nat) (exponent : Int) : Float :=
  let leading := exponent + (Nat.toDigits 10 mantissa).length
  if mantissa = 0 then 0.0
  else if 400 < leading then infinity
  else if leading < -400 then 0.0
  else Float.ofScientific mantissa (decide (exponent < 0)) exponent.natAbs

/-- The value of a numeral. -/
def Numeral.value : Numeral → Float
  | .infinite => infinity
  | .undefined => undefinedValue
  | .finite m e => nearest m e

/-- Reads a number. -/
def ofChars? (cs : List Char) : Option Float :=
  (numeral? cs).map (fun p => if p.1 then -p.2.value else p.2.value)

/-- Reads a number from a string. -/
def ofText? (s : String) : Option Float :=
  ofChars? s.toList

end Number
end SceneReader
