import SourcePreview.Number.Binary64

/-! The shortest decimal that identifies a float: the fewest digits among the decimals that round to
it, of these the nearest. The search is exact arithmetic on `m · 2^q`. -/

namespace SourcePreview.Number

structure Decimal where
  coefficient : Nat
  exponent : Int
  deriving DecidableEq, Repr

/-- A positive float `m · 2^q`; `narrow` if the gap to the float below is half the gap to the one
above. -/
structure Magnitude where
  m : Nat
  q : Int
  narrow : Bool

def Magnitude.ofParts (m : Nat) (q : Int) : Magnitude := ⟨m, q, m = 2 ^ 52 ∧ -1074 < q⟩

def compareScaled (a : Nat) (i : Int) (n : Nat) (j : Int) : Ordering :=
  compare (a * 10 ^ i.toNat * 2 ^ (-j).toNat) (n * 2 ^ j.toNat * 10 ^ (-i).toNat)

/-- Whether a decimal lies among the reals that round to the float: between the midpoints to its
neighbours, which belong to it just when `m` is even. -/
def Magnitude.readsBack (x : Magnitude) (d : Decimal) : Bool :=
  let low := if x.narrow then 4 * x.m - 1 else 4 * x.m - 2
  let high := 4 * x.m + 2
  let closed := x.m % 2 == 0
  let atLow := compareScaled d.coefficient d.exponent low (x.q - 2)
  let atHigh := compareScaled d.coefficient d.exponent high (x.q - 2)
  (atLow == .gt || (closed && atLow == .eq)) && (atHigh == .lt || (closed && atHigh == .eq))

/-- The multiple of `10^i` just below the float, or at it. -/
def Magnitude.floorOn (x : Magnitude) (i : Int) : Nat :=
  (x.m * 2 ^ x.q.toNat * 10 ^ (-i).toNat) / (2 ^ (-x.q).toNat * 10 ^ i.toNat)

/-- The better of the float's two neighbours on the grid of `10^i`, if one reads back; of two
equally near, the upper. -/
def Magnitude.onGrid? (x : Magnitude) (i : Int) : Option Decimal :=
  let below := x.floorOn i
  let lower : Decimal := ⟨below, i⟩
  let upper : Decimal := ⟨below + 1, i⟩
  match x.readsBack lower, x.readsBack upper with
  | true, false => some lower
  | false, true => some upper
  | false, false => none
  | true, true =>
    -- nearer than half way between the two?
    if compareScaled (2 * below + 1) i (2 * x.m) x.q == .gt then some lower else some upper

/-- An exponent `k` with the float below `10^k`, at most one too large. -/
def Magnitude.scale (x : Magnitude) : Int :=
  let binary := (x.m.log2 : Int) + x.q
  -- 1233 / 4096 is a little less than the decimal logarithm of 2
  let guess := binary * 1233 / 4096 - 1
  let atLeast := fun k => compareScaled 1 k x.m x.q != .gt
  if atLeast (guess + 2) then guess + 3 else if atLeast (guess + 1) then guess + 2
  else if atLeast guess then guess + 1 else guess

/-- Trailing zeros of the digits go into the exponent. -/
def Decimal.stripZeros (d : Decimal) : Decimal :=
  if d.coefficient ≠ 0 ∧ d.coefficient % 10 = 0 then
    Decimal.stripZeros ⟨d.coefficient / 10, d.exponent + 1⟩ else d
termination_by d.coefficient
decreasing_by omega

/-- The exact value, for a float that no decimal of seventeen digits identifies; there is none. -/
def Magnitude.exact (x : Magnitude) : Decimal :=
  ⟨x.m * 2 ^ x.q.toNat * 5 ^ (-x.q).toNat, min x.q 0⟩

/-- The decimal with the fewest digits that rounds to the float. -/
def Magnitude.shortest (x : Magnitude) : Decimal :=
  let k := x.scale
  (((List.range 18).findSome? fun (n : Nat) => x.onGrid? (k - n)).getD x.exact).stripZeros

end SourcePreview.Number
