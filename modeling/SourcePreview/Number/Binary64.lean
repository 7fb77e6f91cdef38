import SourcePreview.Number.Rounding

/-! Double-precision numbers taken apart: what a float stands for, exactly, and the rounding of it
to whole numbers. All of it is arithmetic on natural numbers and integers, so nothing is lost on the
way. -/

namespace SourcePreview.Number

/-- What a float stands for: no number, an infinity, or `±m · 2^q`. -/
inductive Binary64 where
  | nan
  | infinite (negative : Bool)
  | finite (negative : Bool) (m : Nat) (q : Int)
  deriving DecidableEq, Repr

/-- Reads the sign, exponent and fraction fields of a float. -/
def Binary64.ofFloat (x : Float) : Binary64 :=
  let bits := x.toBits.toNat
  let negative := bits / 2 ^ 63 == 1
  let exponent : Nat := bits / 2 ^ 52 % 2 ^ 11
  let fraction : Nat := bits % 2 ^ 52
  if exponent = 2047 then (if fraction = 0 then .infinite negative else .nan)
  else if exponent = 0 then .finite negative fraction (-1074)
  else .finite negative (2 ^ 52 + fraction) ((exponent : Int) - 1075)

def withSign (negative : Bool) (n : Nat) : Int := if negative then -(n : Int) else n

/-- Whole-number directions for a float. -/
inductive Direction where
  | towardZero
  | down
  | nearest (tie : Tie)
  deriving DecidableEq, Repr

def roundScaled (direction : Direction) (negative : Bool) (m : Nat) (q : Int) : Int :=
  let up := m * 2 ^ q.toNat
  let down := 2 ^ (-q).toNat
  match direction with
  | .towardZero => withSign negative (up / down)
  | .down => if negative then -((up + down - 1) / down : Nat) else (up / down : Nat)
  | .nearest tie => withSign negative (roundDiv tie up down)

/-- The 64-bit integer a float is rounded to: out of range goes to the nearer end, no number to
zero. -/
def roundToInt64 (direction : Direction) (x : Float) : Int64 :=
  match Binary64.ofFloat x with
  | .nan => 0
  | .infinite negative => if negative then Int64.minValue else Int64.maxValue
  | .finite negative m q => clamp64 (roundScaled direction negative m q)

def floatOfInt (n : Int) : Float := Float.ofInt n

/-- The whole float nearest to a float, a half going to the even neighbour; the sign stays, also
that of zero. -/
def roundToEven (x : Float) : Float :=
  match Binary64.ofFloat x with
  | .finite negative m q =>
    if 0 ≤ q then x
    else
      let whole := floatOfInt (roundScaled (.nearest .toEven) false m q)
      if negative then -whole else whole
  | _ => x

example : roundToInt64 (.nearest .toEven) 2.5 = 2 ∧ roundToInt64 .down (-0.5) = -1 ∧
    roundToInt64 .towardZero 1e300 = Int64.maxValue := by decide +kernel

example : (roundToEven (-0.3)).toBits = (-0.0 : Float).toBits := by decide +kernel

end SourcePreview.Number
