import Mathlib.Algebra.Ring.Int.Defs
import SourcePreview.Expression.Evaluation

/-! Arithmetic on whole numbers. No operation wraps: sums, differences and products are exact or
floats (`Value.binary_int_whole`), and so are quotients without their fraction, negatives and
magnitudes, where the least integer alone has a result out of range. A list is added up exactly as
long as the numbers added up so far are in range (`Aggregate.reduce?_sum`). -/

namespace SourcePreview

namespace Number

variable {n : Int64}

theorem int64?_eq_none_iff {n : Int} : int64? n = none ↔ ¬ Fits n := by
  simp [int64?]

theorem toInt_eq_minValue_iff : n.toInt = -2 ^ 63 ↔ n = Int64.minValue := by
  rw [← Int64.toInt_inj, Int64.toInt_minValue]

theorem fits_neg : Fits (-n.toInt) ↔ n ≠ Int64.minValue := by
  have range := fits_toInt n
  rw [Ne, ← toInt_eq_minValue_iff]
  unfold Fits at *
  omega

theorem fits_natAbs : Fits n.toInt.natAbs ↔ n ≠ Int64.minValue := by
  have range := fits_toInt n
  rw [Ne, ← toInt_eq_minValue_iff]
  unfold Fits at *
  omega

theorem fits_tdiv (a b : Int64) :
    Fits (a.toInt.tdiv b.toInt) ↔ ¬ (a = Int64.minValue ∧ b = -1) := by
  constructor
  · rintro fits ⟨rfl, rfl⟩
    exact absurd fits (by decide)
  · intro other
    by_cases ha : a = Int64.minValue
    · rw [← Int64.toInt_div_of_ne_right a b fun hb => other ⟨ha, hb⟩]
      exact fits_toInt _
    · rw [← Int64.toInt_div_of_ne_left a b ha]
      exact fits_toInt _

end Number

/-- The result of an operation on whole numbers, a quotient cut off toward zero. -/
def Operator.whole : Operator → Int → Int → Int
  | .add, a, b => a + b
  | .sub, a, b => a - b
  | .mul, a, b => a * b
  | .div, a, b => a.tdiv b

namespace Value

/-- Whether a value is the integer `n`, or, where something keeps it from being that, a float. -/
structure IntUnless (out : Prop) (n : Int) (v : Value) : Prop where
  exact : ¬ out → ∃ i, v = .int i ∧ i.toInt = n
  float : out → ∃ x, v = .float x

variable {n : Int} {v : Value}

theorem IntUnless.congr {out out' : Prop} (h : IntUnless out n v) (same : out ↔ out') :
    IntUnless out' n v :=
  ⟨fun within => h.exact (mt same.1 within), fun left => h.float (same.2 left)⟩

theorem intUnless_of_int64?_eq_some {i : Int64} (h : Number.int64? n = some i) :
    IntUnless (¬ Number.Fits n) n (.int i) := by
  have exact := Number.toInt_of_int64? h
  exact ⟨fun _ => ⟨i, rfl, exact⟩, fun out => absurd (exact ▸ Number.fits_toInt i) out⟩

theorem intUnless_of_int64?_eq_none (h : Number.int64? n = none) (x : Float) :
    IntUnless (¬ Number.Fits n) n (.float x) :=
  ⟨fun fits => absurd (Number.int64?_eq_none_iff.1 h) fits, fun _ => ⟨x, rfl⟩⟩

variable (a b : Int64)

/-- An operation comes to its exact result, or to a float if the floats can be combined where that
is out of range. -/
theorem wholeOr_intUnless {op : Operator} {x : Float}
    (fallback : ¬ Number.Fits n →
      floatBinary op (Number.floatOfInt a.toInt) (Number.floatOfInt b.toInt) = .ok (.float x)) :
    ∃ v, wholeOr n op a b = .ok v ∧ IntUnless (¬ Number.Fits n) n v := by
  unfold wholeOr
  split
  · next i h => exact ⟨.int i, rfl, intUnless_of_int64?_eq_some h⟩
  · next h => exact ⟨.float x, fallback (Number.int64?_eq_none_iff.1 h),
      intUnless_of_int64?_eq_none h x⟩

/-- Sums, differences and products are exact or floats, whatever the rule of division. -/
theorem binary_int_whole {op : Operator} (h : op ≠ .div) (rule : Bool) :
    ∃ v, binary rule op (.int a) (.int b) = .ok v ∧
    IntUnless (¬ Number.Fits (op.whole a.toInt b.toInt)) (op.whole a.toInt b.toInt) v := by
  cases op with
  | add => exact wholeOr_intUnless a b fun _ => rfl
  | sub => exact wholeOr_intUnless a b fun _ => rfl
  | mul => exact wholeOr_intUnless a b fun _ => rfl
  | div => exact absurd rfl h

section

variable {b} (nonzero : b ≠ 0)
include nonzero

theorem binary_int_trueQuotient : ∃ x, binary true .div (.int a) (.int b) = .ok (.float x) := by
  rw [binary, intBinary, if_neg nonzero]
  exact ⟨_, rfl⟩

theorem binary_int_quotient : ∃ v, binary false .div (.int a) (.int b) = .ok v ∧
    IntUnless (a = Int64.minValue ∧ b = -1) (a.toInt.tdiv b.toInt) v := by
  have range : ¬ Number.Fits (a.toInt.tdiv b.toInt) ↔ a = Int64.minValue ∧ b = -1 := by
    rw [Number.fits_tdiv, Decidable.not_not]
  rw [binary, intBinary, if_neg nonzero]
  have fallback : ¬ Number.Fits (a.toInt.tdiv b.toInt) →
      floatBinary .div (Number.floatOfInt a.toInt) (Number.floatOfInt b.toInt) =
      .ok (.float (Number.floatOfInt a.toInt / Number.floatOfInt b.toInt)) := by
    intro out
    obtain ⟨-, rfl⟩ := range.1 out
    have divisor : (Number.floatOfInt (-1 : Int64).toInt == 0) = false := by decide +kernel
    rw [floatBinary, divisor]
    rfl
  obtain ⟨v, hv, exact⟩ := wholeOr_intUnless a b fallback
  exact ⟨v, hv, exact.congr range⟩

end

theorem binary_int_divisionByZero (rule : Bool) :
    binary rule .div (.int a) (.int b) = .error .divisionByZero ↔ b = 0 := by
  refine ⟨fun h => Decidable.byContradiction fun nonzero => ?_, ?_⟩
  · have value : ∃ v, binary rule .div (.int a) (.int b) = .ok v := by
      cases rule with
      | true => exact (binary_int_trueQuotient a nonzero).imp' _ fun x hx => hx
      | false => exact (binary_int_quotient a nonzero).imp fun v hv => hv.1
    obtain ⟨v, hv⟩ := value
    rw [hv] at h
    cases h
  · rintro rfl
    rfl

theorem negate?_whole :
    ∃ v, (int a).negate? = some v ∧ IntUnless (a = Int64.minValue) (-a.toInt) v := by
  have range : ¬ Number.Fits (-a.toInt) ↔ a = Int64.minValue := by
    rw [Number.fits_neg, Decidable.not_not]
  unfold negate?
  dsimp only
  split
  · next i h => exact ⟨_, rfl, (intUnless_of_int64?_eq_some h).congr range⟩
  · next h => exact ⟨_, rfl, (intUnless_of_int64?_eq_none h _).congr range⟩

theorem magnitude?_whole :
    ∃ v, (int a).magnitude? = some v ∧ IntUnless (a = Int64.minValue) a.toInt.natAbs v := by
  have range : ¬ Number.Fits a.toInt.natAbs ↔ a = Int64.minValue := by
    rw [Number.fits_natAbs, Decidable.not_not]
  unfold magnitude?
  dsimp only
  split
  · next i h => exact ⟨_, rfl, (intUnless_of_int64?_eq_some h).congr range⟩
  · next h => exact ⟨_, rfl, (intUnless_of_int64?_eq_none h _).congr range⟩

end Value

theorem Value.foldlM_add (rule : Bool) {ns : List Int64} {sum : Int64}
    (prefixes : ∀ row, row <+: ns → Number.Fits (sum.toInt + (row.map Int64.toInt).sum)) :
    ∃ total, (ns.map int).foldlM (fun sum v => (binary rule .add sum v).toOption) (.int sum) =
      some (.int total) ∧
      total.toInt = sum.toInt + (ns.map Int64.toInt).sum := by
  induction ns generalizing sum with
  | nil => exact ⟨sum, rfl, by simp⟩
  | cons n ns ih =>
    have fits : Number.Fits (sum.toInt + n.toInt) := by simpa using prefixes [n] (by simp)
    obtain ⟨v, added, whole⟩ := binary_int_whole sum n (show Operator.add ≠ .div by decide) rule
    obtain ⟨next, rfl, exact⟩ := whole.exact (not_not_intro fits)
    have later : ∀ row, row <+: ns → Number.Fits (next.toInt + (row.map Int64.toInt).sum) := by
      intro row hr
      have longer := prefixes (n :: row) (List.cons_prefix_cons.2 ⟨rfl, hr⟩)
      rw [List.map_cons, List.sum_cons, ← Int.add_assoc] at longer
      rwa [exact]
    obtain ⟨total, folded, value⟩ := ih later
    refine ⟨total, ?_, ?_⟩
    · rw [List.map_cons, List.foldlM_cons, added]
      exact folded
    · rw [value, exact, List.map_cons, List.sum_cons, Operator.whole, Int.add_assoc]

theorem Aggregate.reduce?_sum (rule : Bool) {ns : List Int64}
    (prefixes : ∀ row, row <+: ns → Number.Fits (row.map Int64.toInt).sum) :
    ∃ total, Aggregate.sum.reduce? rule (ns.map .int) = some (.int total) ∧
      total.toInt = (ns.map Int64.toInt).sum := by
  have onward : ∀ row, row <+: ns → Number.Fits ((0 : Int64).toInt + (row.map Int64.toInt).sum) :=
    fun row hr => by simpa using prefixes row hr
  obtain ⟨total, folded, value⟩ := Value.foldlM_add rule onward
  exact ⟨total, folded, by simpa using value⟩

end SourcePreview
