import SourcePreview.Text.Basic

/-!
Numerals in a base up to sixteen. Digits above nine are letters, of either case.
-/

namespace SourcePreview.Number

def hexValue? (c : Char) : Option Nat :=
  if '0' ≤ c ∧ c ≤ '9' then some (c.toNat - '0'.toNat)
  else if 'a' ≤ c ∧ c ≤ 'f' then some (c.toNat - 'a'.toNat + 10)
  else if 'A' ≤ c ∧ c ≤ 'F' then some (c.toNat - 'A'.toNat + 10)
  else none

def digitIn? (base : Nat) (c : Char) : Option Nat := (hexValue? c).filter (· < base)

/-- The number that a row of digits denotes in a base, read after the digits of `acc`. -/
def valueIn? (base : Nat) (acc : Nat) : Text → Option Nat
  | [] => some acc
  | c :: r => (digitIn? base c).bind fun d => valueIn? base (base * acc + d) r

example : valueIn? 16 0 "fF".toList = some 255 ∧ valueIn? 2 0 "102".toList = none := by decide

end SourcePreview.Number
