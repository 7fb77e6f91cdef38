import SourcePreview.Number.Digits
import SourcePreview.Number.Rounding

/-! Reading numbers from text: integers with an optional sign, and floats with an optional fraction
and exponent or one of the words for infinity and no number. -/

namespace SourcePreview.Number

def cutSign : Text → Bool × Text
  | '-' :: r => (true, r)
  | '+' :: r => (false, r)
  | s => (false, s)

/-- The integer a text denotes: an optional sign and digits, within 64 bits. -/
def readInt? (s : Text) : Option Int64 :=
  let (negative, row) := cutSign s
  (value? row).bind fun n => int64? (if negative then -(n : Int) else n)

/-- The natural number below `2^64` a text denotes: an optional plus sign and digits. -/
def readNat? (s : Text) : Option Nat :=
  let row := match s with
    | '+' :: r => r
    | _ => s
  (value? row).filter (· < 2 ^ 64)

def cutDigits (s : Text) : Text × Text := Text.spanOf isDigit s

/-- The number that a row of digits denotes, zero for none. -/
def rowValue (row : Text) : Nat := (value? row).getD 0

/-- The float nearest to `n · 10^e`. Exponents that must give zero or infinity are not raised to a
power. -/
def nearestFloat (n : Nat) (e : Int) : Float :=
  if n = 0 then 0
  else
    let size := e + (digits n).length
    if 310 < size then 1 / 0 else if size < -330 then 0 else Float.ofScientific n (e < 0) e.natAbs

/-- The exponent part of a float, and zero without one; `none` if it is not one. -/
def readExponent? (s : Text) : Option Int :=
  match s with
  | [] => some 0
  | c :: r =>
    if c == 'e' || c == 'E' then
      let (negative, row) := cutSign r
      (value? row).map fun n => if negative then -(n : Int) else n
    else none

def readDecimal? (s : Text) : Option Float :=
  let (whole, r) := cutDigits s
  let (fraction, r) := match r with
    | '.' :: r => cutDigits r
    | _ => ([], r)
  if whole.isEmpty && fraction.isEmpty then none
  else (readExponent? r).map fun e =>
  nearestFloat (rowValue (whole ++ fraction)) (e - fraction.length)

def lowerAscii (s : Text) : Text := s.map Char.toLower

def readFloat? (s : Text) : Option Float :=
  let (negative, r) := cutSign s
  let magnitude :=
    let word := lowerAscii r
    if word == "inf".toList || word == "infinity".toList then some (1 / 0)
    else if word == "nan".toList then some (0 / 0)
    else readDecimal? r
  magnitude.map fun x => if negative then -x else x

example : readInt? "-7".toList = some (-7) ∧ readInt? "1_0".toList = none ∧
    readInt? "9223372036854775808".toList = none := by decide +kernel

end SourcePreview.Number
