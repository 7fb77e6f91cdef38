import SourcePreview.Number.Layout
import SourcePreview.Number.Numeral

/-! Values of the preview: texts, 64-bit integers and floats, how each is shown, and how input is
read as one. -/

namespace SourcePreview

inductive Kind where
  | str
  | int
  | float
  deriving DecidableEq, Repr

inductive Value where
  | str (text : Text)
  | int (n : Int64)
  | float (x : Float)

def Kind.name : Kind → Text
  | .str => "str".toList
  | .int => "int".toList
  | .float => "float".toList

/-- The value that stands in for input that cannot be read. -/
def Kind.zero : Kind → Value
  | .str => .str []
  | .int => .int 0
  | .float => .float 0

/-- A float as it is shown: the fewest digits that identify it, positionally with a fraction while
the leading digit stands between the fourth place behind the point and the sixteenth before it, and
otherwise with a signed exponent of at least two digits. -/
def floatText (x : Float) : Text :=
  match Number.Binary64.ofFloat x with
  | .nan => "nan".toList
  | .infinite negative => Number.signText negative ++ "inf".toList
  | .finite negative m q =>
    Number.signText negative ++
      if m = 0 then "0.0".toList
      else
        let decimal := (Number.Magnitude.ofParts m q).shortest
        let (mantissa, exponent) := decimal.scientific
        if -4 ≤ exponent ∧ exponent < 16 then
          decimal.positional ++ (if 0 ≤ decimal.exponent then ".0".toList else [])
        else
          let row := Number.digits exponent.natAbs
          mantissa ++ 'e' :: (if exponent < 0 then '-' else '+') ::
          (List.replicate (2 - row.length) '0' ++ row)

namespace Value

def kind : Value → Kind
  | .str _ => .str
  | .int _ => .int
  | .float _ => .float

def isNumeric : Value → Bool
  | .str _ => false
  | _ => true

def toFloat? : Value → Option Float
  | .str _ => none
  | .int n => some (Number.floatOfInt n.toInt)
  | .float x => some x

def text : Value → Text
  | .str s => s
  | .int n => Number.numeral n.toInt
  | .float x => floatText x

end Value

/-- Input that cannot be read as a value of a kind. -/
structure InvalidLiteral where
  kind : Kind
  raw : Text
  deriving DecidableEq, Repr

/-- What is said of input that cannot be read. -/
def InvalidLiteral.message (e : InvalidLiteral) : Text :=
  "invalid literal for ".toList ++ e.kind.name ++ "(): '".toList ++ e.raw ++ "'".toList

/-- Reads input as a value of a kind; blanks around a number do not count. -/
def Value.coerce (raw : Text) (kind : Kind) : Except InvalidLiteral Value :=
  let read : Option Value :=
    match kind with
    | .str => some (.str raw)
    | .int => (Number.readInt? (Text.trim raw)).map .int
    | .float => (Number.readFloat? (Text.trim raw)).map .float
  match read with
  | some value => .ok value
  | none => .error ⟨kind, raw⟩

example : floatText 1e16 = "1e+16".toList ∧ floatText 0.000015 = "1.5e-05".toList ∧ floatText
    (-2) = "-2.0".toList ∧
    floatText (0.1 + 0.2) = "0.30000000000000004".toList := by decide +kernel

end SourcePreview
