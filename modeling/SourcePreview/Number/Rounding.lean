/-!
Rounding a quotient of natural numbers to a whole number, and an integer to the 64-bit range.
-/

namespace SourcePreview.Number

-- powers are the core library's, whatever other instance for them a later import brings along
attribute [instance (1100), default_instance 20000] instPowNat

/-- Which neighbour a number half way between two whole numbers goes to. -/
inductive Tie where
  | toEven
  | awayFromZero
  deriving DecidableEq, Repr

/-- The whole number nearest to `num / den`. -/
def roundDiv (tie : Tie) (num den : Nat) : Nat :=
  let q := num / den
  match compare (2 * (num % den)) den, tie with
  | .lt, _ => q
  | .gt, _ => q + 1
  | .eq, .awayFromZero => q + 1
  | .eq, .toEven => if q % 2 = 0 then q else q + 1

/-- Whether an integer fits in 64 bits with sign. -/
def Fits (n : Int) : Prop := -2 ^ 63 ≤ n ∧ n < 2 ^ 63

instance (n : Int) : Decidable (Fits n) := inferInstanceAs (Decidable (_ ∧ _))

/-- The 64-bit integer of an integer that fits. -/
def int64? (n : Int) : Option Int64 := if Fits n then some (Int64.ofInt n) else none

/-- The 64-bit integer nearest to an integer. -/
def clamp64 (n : Int) : Int64 :=
  if n < -2 ^ 63 then Int64.minValue else if 2 ^ 63 ≤ n then Int64.maxValue else Int64.ofInt n

theorem toInt_of_int64? {n : Int} {i : Int64} (h : int64? n = some i) : i.toInt = n := by
  simp only [int64?] at h
  split at h
  · next hn => cases h; exact Int64.toInt_ofInt_of_le hn.1 hn.2
  · cases h

theorem fits_toInt (i : Int64) : Fits i.toInt := ⟨i.le_toInt, i.toInt_lt⟩

@[simp] theorem int64?_toInt (i : Int64) : int64? i.toInt = some i := by
  simp [int64?, fits_toInt i]

end SourcePreview.Number
