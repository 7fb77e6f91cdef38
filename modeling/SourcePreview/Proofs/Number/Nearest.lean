import SourcePreview.Number.Rounding

/-! Integers to 53 binary digits. Of a longer one the digits behind the first 53 are rounded away, a
half going to the even neighbour (`nearest`). Up to `2 ^ 53` nothing is lost (`nearest_eq_self`),
and beyond it the order is kept, though integers next to each other may meet (`nearest_mono`). -/

namespace SourcePreview.Number

section

variable (tie : Tie) {a b : Nat} (num den : Nat)

/-- Whether a quotient goes to the whole number above it. -/
def RoundsUp : Prop :=
  den < 2 * (num % den) ∨ den = 2 * (num % den) ∧ (tie = .awayFromZero ∨ num / den % 2 = 1)

instance : Decidable (RoundsUp tie num den) := inferInstanceAs (Decidable (_ ∨ _))

theorem roundDiv_eq : roundDiv tie num den = num / den + if RoundsUp tie num den then 1 else 0 := by
  unfold roundDiv
  dsimp only
  split
  · next h =>
    rw [Nat.compare_eq_lt] at h
    rw [if_neg (by unfold RoundsUp; omega), Nat.add_zero]
  · next h =>
    rw [Nat.compare_eq_gt] at h
    rw [if_pos (by exact .inl h)]
  · next h =>
    rw [Nat.compare_eq_eq] at h
    rw [if_pos (by exact .inr ⟨h.symm, .inl rfl⟩)]
  · next h =>
    rw [Nat.compare_eq_eq] at h
    have up : RoundsUp .toEven num den ↔ num / den % 2 = 1 := by simp [RoundsUp, h]
    simp only [up]
    by_cases even : num / den % 2 = 0
    · rw [if_pos even, if_neg (by omega), Nat.add_zero]
    · rw [if_neg even, if_pos (by omega)]

theorem roundDiv_bounds :
    num / den ≤ roundDiv tie num den ∧ roundDiv tie num den ≤ num / den + 1 := by
  rw [roundDiv_eq]
  split <;> omega

theorem roundDiv_mono (h : a ≤ b) : roundDiv tie a den ≤ roundDiv tie b den := by
  have quotients : a / den ≤ b / den := Nat.div_le_div_right h
  by_cases same : a / den = b / den
  · -- in one step between multiples the greater remainder is rounded up if the smaller one is
    have whole := Nat.div_add_mod a den
    have whole' := Nat.div_add_mod b den
    rw [same] at whole
    have up : RoundsUp tie a den → RoundsUp tie b den := by
      unfold RoundsUp
      rw [same]
      rintro (above | ⟨half, ties⟩)
      · exact .inl (by omega)
      · exact (Nat.lt_or_ge den (2 * (b % den))).imp_right fun within => ⟨by omega, ties⟩
    rw [roundDiv_eq, roundDiv_eq, same]
    by_cases above : RoundsUp tie a den
    · exact Nat.le_of_eq (by rw [if_pos above, if_pos (up above)])
    · rw [if_neg above]
      exact Nat.le_add_right _ _
  · have below := (roundDiv_bounds tie a den).2
    have above := (roundDiv_bounds tie b den).1
    omega

/-- A quotient is rounded alike in lower and in higher terms. -/
theorem roundDiv_mul_right {k : Nat} (positive : 0 < k) :
    roundDiv tie (num * k) (den * k) = roundDiv tie num den := by
  have up : RoundsUp tie (num * k) (den * k) ↔ RoundsUp tie num den := by
    unfold RoundsUp
    rw [Nat.mul_div_mul_right _ _ positive, Nat.mul_mod_mul_right, ← Nat.mul_assoc,
      Nat.mul_lt_mul_right positive, Nat.mul_left_inj (Nat.ne_of_gt positive)]
  rw [roundDiv_eq, roundDiv_eq, Nat.mul_div_mul_right _ _ positive]
  simp only [up]

theorem roundDiv_one : roundDiv tie num 1 = num := by
  rw [roundDiv_eq, if_neg (by simp [RoundsUp, Nat.mod_one]), Nat.div_one, Nat.add_zero]

end

/-- How many binary digits of a number are behind its first 53. -/
def excess (n : Nat) : Nat := n.log2 - 52

/-- A natural number rounded to 53 binary digits. -/
def nearestNat (n : Nat) : Nat := roundDiv .toEven n (2 ^ excess n) * 2 ^ excess n

/-- An integer rounded to 53 binary digits. -/
def nearest (n : Int) : Int := n.sign * nearestNat n.natAbs

section

variable {n m : Nat}

theorem nearestNat_eq_self (h : n ≤ 2 ^ 53) : nearestNat n = n := by
  rcases Nat.lt_or_eq_of_le h with short | rfl
  · have whole : excess n = 0 := by
      by_cases zero : n = 0
      · subst zero
        rfl
      · have := (Nat.log2_lt zero).2 short
        unfold excess
        omega
    rw [nearestNat, whole, Nat.pow_zero, roundDiv_one, Nat.mul_one]
  · decide

theorem nearestNat_bounds (filled : n ≠ 0) :
    2 ^ n.log2 ≤ nearestNat n ∧ nearestNat n ≤ 2 ^ (n.log2 + 1) := by
  have kept : excess n ≤ n.log2 := Nat.sub_le n.log2 52
  have least : 2 ^ (n.log2 - excess n) ≤ n / 2 ^ excess n := by
    rw [Nat.le_div_iff_mul_le (Nat.two_pow_pos _), ← Nat.pow_add, Nat.sub_add_cancel kept]
    exact Nat.log2_self_le filled
  have greatest : n / 2 ^ excess n < 2 ^ (n.log2 + 1 - excess n) := by
    rw [Nat.div_lt_iff_lt_mul (Nat.two_pow_pos _), ← Nat.pow_add, Nat.sub_add_cancel (by omega)]
    exact Nat.lt_log2_self
  obtain ⟨low, high⟩ := roundDiv_bounds .toEven n (2 ^ excess n)
  constructor
  · calc 2 ^ n.log2 = 2 ^ (n.log2 - excess n) * 2 ^ excess n := by rw [← Nat.pow_add,
        Nat.sub_add_cancel kept]
      _ ≤ nearestNat n := Nat.mul_le_mul_right _ (Nat.le_trans least low)
  · calc nearestNat n ≤ 2 ^ (n.log2 + 1 - excess n) * 2 ^ excess n :=
      Nat.mul_le_mul_right _ (Nat.le_trans high greatest)
      _ = 2 ^ (n.log2 + 1) := by rw [← Nat.pow_add, Nat.sub_add_cancel (by omega)]

theorem roundDiv_excess_bounds (long : 2 ^ 52 ≤ n) :
    2 ^ 52 ≤ roundDiv .toEven n (2 ^ excess n) ∧ roundDiv .toEven n (2 ^ excess n) ≤ 2 ^ 53 := by
  have filled : n ≠ 0 := by omega
  have digits : n.log2 = 52 + excess n := (Nat.add_sub_of_le ((Nat.le_log2 filled).2 long)).symm
  obtain ⟨low, high⟩ := nearestNat_bounds filled
  rw [digits, nearestNat] at low high
  rw [Nat.add_right_comm] at high
  rw [Nat.pow_add] at low high
  exact ⟨Nat.le_of_mul_le_mul_right low (Nat.two_pow_pos _),
    Nat.le_of_mul_le_mul_right high (Nat.two_pow_pos _)⟩

theorem nearestNat_mono (h : n ≤ m) : nearestNat n ≤ nearestNat m := by
  by_cases zero : n = 0
  · subst zero
    exact Nat.zero_le _
  have filled : m ≠ 0 := by omega
  have digits : n.log2 ≤ m.log2 := (Nat.le_log2 filled).2 (Nat.le_trans (Nat.log2_self_le zero) h)
  by_cases same : excess n = excess m
  · rw [nearestNat, nearestNat, same]
    exact Nat.mul_le_mul_right _ (roundDiv_mono .toEven _ h)
  · -- there is a power of two between them
    have more : n.log2 + 1 ≤ m.log2 := by
      unfold excess at same
      omega
    calc nearestNat n ≤ 2 ^ (n.log2 + 1) := (nearestNat_bounds zero).2
      _ ≤ 2 ^ m.log2 := Nat.pow_le_pow_right (by decide) more
      _ ≤ nearestNat m := (nearestNat_bounds filled).1

theorem log2_mul_two_pow (filled : n ≠ 0) (k : Nat) : (n * 2 ^ k).log2 = n.log2 + k := by
  rw [Nat.log2_eq_iff (Nat.mul_ne_zero filled (Nat.ne_of_gt (Nat.two_pow_pos k))),
    Nat.add_right_comm, Nat.pow_add, Nat.pow_add]
  exact ⟨Nat.mul_le_mul_right _ (Nat.log2_self_le filled),
    Nat.mul_lt_mul_of_pos_right Nat.lt_log2_self (Nat.two_pow_pos k)⟩

theorem nearestNat_mul_two_pow (long : 2 ^ 52 ≤ n) (k : Nat) :
    nearestNat (n * 2 ^ k) = nearestNat n * 2 ^ k := by
  have filled : n ≠ 0 := by omega
  have digits : 52 ≤ n.log2 := (Nat.le_log2 filled).2 long
  have more : excess (n * 2 ^ k) = excess n + k := by
    rw [excess, log2_mul_two_pow filled, excess]
    omega
  rw [nearestNat, nearestNat, more, Nat.pow_add, roundDiv_mul_right _ _ _ (Nat.two_pow_pos k),
    Nat.mul_assoc]

end

theorem nearest_natCast (n : Nat) : nearest n = nearestNat n := by
  cases n with
  | zero => rfl
  | succ n => exact Int.one_mul _

theorem nearest_neg (n : Int) : nearest (-n) = -nearest n := by
  rw [nearest, nearest, Int.sign_neg, Int.natAbs_neg, Int.neg_mul]

section

variable {a b : Int}

theorem nearest_eq_self (h : a.natAbs ≤ 2 ^ 53) : nearest a = a := by
  rw [nearest, nearestNat_eq_self h, Int.sign_mul_natAbs]

theorem nearest_ne_zero (h : a ≠ 0) : nearest a ≠ 0 := by
  have least := (nearestNat_bounds (Int.natAbs_ne_zero.2 h)).1
  have positive := Nat.two_pow_pos a.natAbs.log2
  exact Int.mul_ne_zero (mt Int.sign_eq_zero_iff_zero.1 h) (by omega)

theorem nearest_mono (h : a ≤ b) : nearest a ≤ nearest b := by
  have naturals : ∀ {a b : Int}, 0 ≤ a → a ≤ b → nearest a ≤ nearest b := by
    intro a b positive h
    obtain ⟨n, rfl⟩ := Int.eq_ofNat_of_zero_le positive
    obtain ⟨m, rfl⟩ := Int.eq_ofNat_of_zero_le (Int.le_trans positive h)
    rw [nearest_natCast, nearest_natCast]
    exact Int.ofNat_le.2 (nearestNat_mono (Int.ofNat_le.1 h))
  by_cases positive : 0 ≤ a
  · exact naturals positive h
  by_cases negative : b ≤ 0
  · have reflected := naturals (show 0 ≤ -b by omega) (Int.neg_le_neg h)
    rw [nearest_neg, nearest_neg] at reflected
    exact Int.neg_le_neg_iff.1 reflected
  · have reflected := naturals (Int.le_refl 0) (show 0 ≤ -a by omega)
    rw [nearest_neg] at reflected
    calc nearest a ≤ 0 := Int.neg_nonneg.1 reflected
      _ ≤ nearest b := naturals (Int.le_refl 0) (show 0 ≤ b by omega)

end

example : nearest (2 ^ 53 + 1) = 2 ^ 53 ∧ nearest (-(2 ^ 53 + 3)) = -(2 ^ 53 + 4) := by decide

end SourcePreview.Number
