import SourcePreview.Number.Digits
import SourcePreview.Number.Shortest

/-! Floats written out: with the fewest digits, always positionally (`plain`), or with a fixed
number of decimal places (`fixed`). -/

namespace SourcePreview.Number

/-- The digits of a decimal with the point set where its exponent says. -/
def Decimal.positional (d : Decimal) : Text :=
  let row := digits d.coefficient
  if 0 ≤ d.exponent then row ++ List.replicate d.exponent.toNat '0'
  else
    let places := d.exponent.natAbs
    let padded := List.replicate (places + 1 - row.length) '0' ++ row
    padded.take (padded.length - places) ++ '.' :: padded.drop (padded.length - places)

/-- The leading digit, the others behind a point, and the exponent of the leading digit. -/
def Decimal.scientific (d : Decimal) : Text × Int :=
  let row := digits d.coefficient
  let mantissa := match row with
    | [] => []
    | [c] => [c]
    | c :: r => c :: '.' :: r
  (mantissa, d.exponent + (row.length - 1 : Nat))

def signText (negative : Bool) : Text := if negative then ['-'] else []

/-- The fewest digits that identify a float, written positionally at every size. -/
def plain (x : Float) : Text :=
  match Binary64.ofFloat x with
  | .nan => "NaN".toList
  | .infinite negative => signText negative ++ "inf".toList
  | .finite negative m q =>
    signText negative ++ if m = 0 then ['0'] else (Magnitude.ofParts m q).shortest.positional

/-- A float with a fixed number of decimal places: its exact value, rounded with a half to the even
neighbour. -/
def fixed (places : Nat) (x : Float) : Text :=
  match Binary64.ofFloat x with
  | .nan => "NaN".toList
  | .infinite negative => signText negative ++ "inf".toList
  | .finite negative m q =>
    let scaled := roundDiv .toEven (m * 2 ^ q.toNat * 10 ^ places) (2 ^ (-q).toNat)
    let row := digits scaled
    let padded := List.replicate (places + 1 - row.length) '0' ++ row
    let whole := padded.take (padded.length - places)
    signText negative ++ if places = 0 then whole else
    whole ++ '.' :: padded.drop (padded.length - places)

example : plain 1e21 = "1000000000000000000000".toList ∧ plain 1.5e-7 = "0.00000015".toList := by
  decide +kernel
example :
    fixed 1 0.25 = "0.2".toList ∧ fixed 0 2.5 = "2".toList ∧ fixed 2 (-0.001) = "-0.00".toList := by
  decide +kernel

end SourcePreview.Number
