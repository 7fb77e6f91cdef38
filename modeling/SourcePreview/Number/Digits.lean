import SourcePreview.Text.Basic

/-! Decimal numerals for natural numbers and integers: `digits` writes, `value?` reads. Main
statement: what is written reads back (`value?_digits`). -/

namespace SourcePreview.Number

def digitChar (d : Nat) : Char := Char.ofNat (48 + d)

/-- The value of a digit character; only the ten ASCII digits are digits. -/
def digitValue? (c : Char) : Option Nat :=
  if 48 ≤ c.toNat ∧ c.toNat ≤ 57 then some (c.toNat - 48) else none

/-- Whether a character is one of the ten ASCII digits. -/
def isDigit (c : Char) : Bool := (digitValue? c).isSome

/-- The decimal numeral of a natural number, without leading zeros. -/
def digits (n : Nat) : Text :=
  if n < 10 then [digitChar n] else digits (n / 10) ++ [digitChar (n % 10)]

/-- The decimal numeral of an integer, with a minus sign below zero. -/
def numeral : Int → Text
  | .ofNat n => digits n
  | .negSucc n => '-' :: digits (n + 1)

/-- The number that a row of digits denotes, read after the digits of `acc`. -/
def valueFrom? (acc : Nat) : Text → Option Nat
  | [] => some acc
  | c :: r => (digitValue? c).bind fun d => valueFrom? (10 * acc + d) r

/-- The number that a row of digits denotes; there must be a digit. -/
def value? : Text → Option Nat
  | [] => none
  | s => valueFrom? 0 s

theorem digitValue?_digitChar {d : Nat} (h : d < 10) : digitValue? (digitChar d) = some d := by
  revert h; revert d; decide

theorem valueFrom?_append (acc : Nat) (s t : Text) :
    valueFrom? acc (s ++ t) = (valueFrom? acc s).bind fun a => valueFrom? a t := by
  induction s generalizing acc with
  | nil => rfl
  | cons c r ih =>
    simp only [List.cons_append, valueFrom?]
    cases digitValue? c <;> simp [ih]

theorem valueFrom?_digits (n : Nat) : valueFrom? 0 (digits n) = some n := by
  induction n using Nat.strongRecOn with
  | _ n ih =>
    rw [digits]
    split
    · next h => simp [valueFrom?, digitValue?_digitChar h]
    · next h =>
      rw [valueFrom?_append, ih (n / 10) (by omega)]
      simp only [Option.bind_some, valueFrom?,
        digitValue?_digitChar (Nat.mod_lt n (by omega : 10 > 0)), Option.some.injEq]
      omega

theorem digits_ne_nil (n : Nat) : digits n ≠ [] := by
  rw [digits]; split <;> simp

/-- A written number reads back. -/
theorem value?_digits (n : Nat) : value? (digits n) = some n := by
  have h := valueFrom?_digits n
  cases hd : digits n with
  | nil => exact absurd hd (digits_ne_nil n)
  | cons c r => rw [hd] at h; exact h

end SourcePreview.Number
