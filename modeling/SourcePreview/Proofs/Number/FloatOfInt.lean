import SourcePreview.Number.Binary64
import SourcePreview.Proofs.Number.Nearest

/-! The float of an integer. A float that is not a denormal one is told by how many times the least
positive float it is (`Measures`), whatever its mantissa and exponent; rounding, packing, negation
and comparison are then facts about one integer. The float of an integer is the integer rounded to
53 binary digits (`measures_floatOfInt`), so floats of integers compare as the rounded integers do
(`floatOfInt_lt`, `floatOfInt_beq`). -/

namespace SourcePreview.Number

open Float.Model Float.Model.UnpackedFloat

/-- The float is zero, or is normal, and is so many times the least positive float `2 ^ -1074`. -/
inductive Measures : UnpackedFloat → Int → Prop
  | zero (s : Sign) : Measures (.zero s) 0
  | normal (s : Sign) {m k : Nat} (positive : 0 < m) (full : 2 ^ 52 ≤ m) (short : m < 2 ^ 53)
      (range : k ≤ 2045) :
    Measures (.finite s m (k - 1074) positive) (s.apply (m * 2 ^ k : Nat))

section

variable {u v : UnpackedFloat} {a b : Int}

theorem Measures.neg (h : Measures u a) : Measures u.neg (-a) := by
  cases h with
  | zero s => exact .zero (-s)
  | normal s positive full short range =>
    cases s
    · rw [Sign.apply, Int.neg_neg]
      exact .normal .positive positive full short range
    · exact .normal .negative positive full short range

theorem ofBitVec_unpackSign {s : Sign} {exponent : BitVec 11} {mantissa : BitVec 52} :
    Sign.ofBitVec (unpackSign (packComponents .binary64 s exponent mantissa)) = s := by
  unfold unpackSign packComponents BitVec.extractLsb
  rw [BitVec.extractLsb'_append_eq_of_le (by decide),
    BitVec.extractLsb'_append_eq_of_le (by decide)]
  cases s <;> rfl

theorem toNat_implicit_append {m : Nat} (full : 2 ^ 52 ≤ m) (short : m < 2 ^ 53) :
    (1#1 ++ BitVec.ofNat 52 m).toNat = m := by
  have fraction : (BitVec.ofNat 52 m).toNat = m % 2 ^ 52 := BitVec.toNat_ofNat _ _
  have implicit : (1#1).toNat <<< 52 = 2 ^ 52 := rfl
  rw [BitVec.toNat_append, ← Nat.shiftLeft_add_eq_or_of_lt (BitVec.ofNat 52 m).isLt, fraction,
    implicit]
  omega

theorem log2_of_full {m : Nat} (full : 2 ^ 52 ≤ m) (short : m < 2 ^ 53) : m.log2 = 52 :=
  (Nat.log2_eq_iff (by omega)).2 ⟨full, short⟩

theorem unpack_of_normal {b : BitVec 64} (finite : @unpackExponent .binary64 b ≠ -1#11)
    (normal : @unpackExponent .binary64 b ≠ 0#11) :
    ∃ positive, UnpackedFloat.unpack .binary64 b = .finite (.ofBitVec (@unpackSign .binary64 b))
      (1#1 ++ @unpackMantissa .binary64 b).toNat ((@unpackExponent .binary64 b).toNat - 1075)
      positive :=
  ⟨_, (if_neg finite).trans (if_neg normal)⟩

theorem finite_congr {s : Sign} {m n : Nat} {e f : Int} {hm : 0 < m} {hn : 0 < n} (mantissa : m = n)
    (exponent : e = f) :
    UnpackedFloat.finite s m e hm = .finite s n f hn := by
  subst mantissa exponent
  rfl

theorem Measures.unpack_pack (h : Measures u a) :
    UnpackedFloat.unpack .binary64 (UnpackedFloat.pack .binary64 u) = u := by
  cases h with
  | zero s => cases s <;> rfl
  | @normal s m k positive full short range =>
    have biased :
        ((k : Int) - 1074 + Format.binary64.exponentBias +
          Format.binary64.mantissaBitsWithoutImplicit).toNat = k + 1 := by
      show ((k : Int) - 1074 + 1023 + 52).toNat = k + 1
      omega
    have exponent : (BitVec.ofNat 11 (k + 1)).toNat = k + 1 := by
      rw [BitVec.toNat_ofNat]
      omega
    have finite : BitVec.ofNat 11 (k + 1) ≠ -1#11 := fun h => by
      have := congrArg BitVec.toNat h
      rw [exponent] at this
      have ones : (-1#11).toNat = 2047 := rfl
      omega
    have normal : BitVec.ofNat 11 (k + 1) ≠ 0#11 := fun h => by
      have := congrArg BitVec.toNat h
      rw [exponent] at this
      exact absurd this (Nat.succ_ne_zero k)
    have packed : UnpackedFloat.pack .binary64 (.finite s m (k - 1074) positive) =
        packComponents .binary64 s (BitVec.ofNat 11 (k + 1)) (BitVec.ofNat 52 m) := by
      rw [← biased]
      exact (if_neg (by rw [biased]; show ¬2048 ≤ k + 1 + 1; omega)).trans
        (if_pos (by rw [log2_of_full full short]; rfl))
    obtain ⟨positive', unpacked⟩ :=
      @unpack_of_normal (packComponents .binary64 s (BitVec.ofNat 11 (k + 1)) (BitVec.ofNat 52 m))
      (by rwa [unpackExponent_packComponents]) (by rwa [unpackExponent_packComponents])
    rw [packed, unpacked, ofBitVec_unpackSign]
    refine finite_congr ?_ ?_
    · rw [unpackMantissa_packComponents]
      exact toNat_implicit_append full short
    · rw [unpackExponent_packComponents]
      show ((BitVec.ofNat 11 (k + 1)).toNat : Int) - (1023 + 52) = k - 1074
      rw [exponent]
      omega

end

/-! ### Comparison -/

theorem compare_scaled {m n k l : Nat} (full : 2 ^ 52 ≤ m) (short : m < 2 ^ 53) (full' : 2 ^ 52 ≤ n)
    (short' : n < 2 ^ 53) :
    (compare k l).then (compare m n) = compare (m * 2 ^ k) (n * 2 ^ l) := by
  have apart : ∀ {m n k l : Nat}, m < 2 ^ 53 → 2 ^ 52 ≤ n → k < l → m * 2 ^ k < n * 2 ^ l := by
    intro m n k l short full h
    calc m * 2 ^ k < 2 ^ 53 * 2 ^ k := Nat.mul_lt_mul_of_pos_right short (Nat.two_pow_pos k)
      _ = 2 ^ 52 * 2 ^ (k + 1) := by rw [Nat.pow_succ 2 52, Nat.mul_assoc, ← Nat.pow_succ']
      _ ≤ 2 ^ 52 * 2 ^ l := Nat.mul_le_mul_left _ (Nat.pow_le_pow_right (by decide) h)
      _ ≤ n * 2 ^ l := Nat.mul_le_mul_right _ full
  rcases Nat.lt_trichotomy k l with h | rfl | h
  · rw [Nat.compare_eq_lt.2 h, Nat.compare_eq_lt.2 (apart short full' h)]
    rfl
  · rw [Nat.compare_eq_eq.2 rfl, Ordering.eq_then]
    rcases Nat.lt_trichotomy m n with h | rfl | h
    · rw [Nat.compare_eq_lt.2 h,
        Nat.compare_eq_lt.2 (Nat.mul_lt_mul_of_pos_right h (Nat.two_pow_pos k))]
    · rw [Nat.compare_eq_eq.2 rfl, Nat.compare_eq_eq.2 rfl]
    · rw [Nat.compare_eq_gt.2 h,
        Nat.compare_eq_gt.2 (Nat.mul_lt_mul_of_pos_right h (Nat.two_pow_pos k))]
  · rw [Nat.compare_eq_gt.2 h, Nat.compare_eq_gt.2 (apart short' full h)]
    rfl

theorem compare_eq_compare {a b : Int} {c d : Nat} (less : a < b ↔ c < d) (more : b < a ↔ d < c) :
    compare a b = compare c d := by
  rcases Nat.lt_trichotomy c d with h | h | h
  · rw [Nat.compare_eq_lt.2 h, Int.compare_eq_lt.2 (less.2 h)]
  · rw [Nat.compare_eq_eq.2 h, Int.compare_eq_eq.2 (by omega)]
  · rw [Nat.compare_eq_gt.2 h, Int.compare_eq_gt.2 (more.2 h)]

theorem Measures.compare {u v : UnpackedFloat} {a b : Int} (hu : Measures u a) (hv : Measures v b) :
    u.compare v = some (Ord.compare a b) := by
  cases hu with
  | zero s =>
    cases hv with
    | zero t => rfl
    | @normal t n l positive =>
      have filled : 0 < n * 2 ^ l := Nat.mul_pos positive (Nat.two_pow_pos l)
      cases t
      · exact congrArg some
          (Int.compare_eq_gt.2 (Int.neg_neg_of_pos (Int.natCast_pos.2 filled))).symm
      · exact congrArg some (Int.compare_eq_lt.2 (Int.natCast_pos.2 filled)).symm
  | @normal s m k positive full short =>
    have filled : 0 < m * 2 ^ k := Nat.mul_pos positive (Nat.two_pow_pos k)
    cases hv with
    | zero t =>
      cases s
      · exact congrArg some
          (Int.compare_eq_lt.2 (Int.neg_neg_of_pos (Int.natCast_pos.2 filled))).symm
      · exact congrArg some (Int.compare_eq_gt.2 (Int.natCast_pos.2 filled)).symm
    | @normal t n l positive' full' short' =>
      have filled' : 0 < n * 2 ^ l := Nat.mul_pos positive' (Nat.two_pow_pos l)
      have exponents : Ord.compare ((k : Int) - 1074) (l - 1074) = Ord.compare k l :=
        compare_eq_compare (by omega) (by omega)
      have scaled := compare_scaled (k := k) (l := l) full short full' short'
      cases s <;> cases t
      · show some ((Ord.compare ((k : Int) - 1074) (l - 1074)).then (Ord.compare m n)).swap = _
        rw [exponents, scaled, Nat.compare_swap]
        exact congrArg some
          (compare_eq_compare (by simp only [Sign.apply]; omega)
          (by simp only [Sign.apply]; omega)).symm
      · exact congrArg some (Int.compare_eq_lt.2 (by simp only [Sign.apply]; omega)).symm
      · exact congrArg some (Int.compare_eq_gt.2 (by simp only [Sign.apply]; omega)).symm
      · show some ((Ord.compare ((k : Int) - 1074) (l - 1074)).then (Ord.compare m n)) = _
        rw [exponents, scaled]
        exact congrArg some
          (compare_eq_compare (by simp only [Sign.apply]; omega)
          (by simp only [Sign.apply]; omega)).symm

/-! ### Rounding -/

/-- A mantissa without its last `i` digits, of which is kept whether they make up a half and whether
they are neither nothing nor a half. -/
def shifted (m i : Nat) : ExtendedMantissa :=
  ⟨m / 2 ^ i, decide (2 ^ i ≤ 2 * (m % 2 ^ i)),
    decide (2 * (m % 2 ^ i) ≠ 0 ∧ 2 * (m % 2 ^ i) ≠ 2 ^ i)⟩

theorem shiftRight_eq_shifted (m i : Nat) :
    ExtendedMantissa.ofMantissaAndAccuracy m .exact >>> i = shifted m i := by
  induction i with
  | zero =>
    have none : m % 2 ^ 0 = 0 := Nat.mod_one m
    simp only [shifted, none]
    rw [Nat.pow_zero, Nat.div_one]
    rfl
  | succ i ih =>
    have rest : m % 2 ^ (i + 1) = m % 2 ^ i + 2 ^ i * (m / 2 ^ i % 2) := by
      rw [Nat.pow_succ, Nat.mod_mul]
    have last : m / 2 ^ i % 2 = 0 ∨ m / 2 ^ i % 2 = 1 := Nat.mod_two_eq_zero_or_one _
    have bound : m % 2 ^ i < 2 ^ i := Nat.mod_lt m (Nat.two_pow_pos i)
    show (ExtendedMantissa.ofMantissaAndAccuracy m .exact >>> i).shiftRightOne = shifted m (i + 1)
    rw [ih, shifted, shifted, ExtendedMantissa.shiftRightOne, ExtendedMantissa.mk.injEq]
    refine ⟨by rw [Nat.div_div_eq_div_mul, ← Nat.pow_succ], ?_, ?_⟩
    · rw [rest, Nat.pow_succ, Bool.eq_iff_iff, bne_iff_ne, decide_eq_true_iff]
      rcases last with last | last <;> rw [last] <;> omega
    · rw [rest, Nat.pow_succ, Bool.eq_iff_iff, Bool.or_eq_true, decide_eq_true_iff,
        decide_eq_true_iff, decide_eq_true_iff]
      rcases last with last | last <;> rw [last] <;> omega

theorem roundedMantissa_shifted (m i : Nat) :
    (shifted m i).roundedMantissa = roundDiv .toEven m (2 ^ i) := by
  have positive := Nat.two_pow_pos i
  unfold ExtendedMantissa.roundedMantissa shifted
  rw [roundDiv_eq]
  rcases Nat.lt_trichotomy (2 * (m % 2 ^ i)) (2 ^ i) with below | half | above
  · rw [decide_eq_false (Nat.not_le.2 below), if_neg (by unfold RoundsUp; omega)]
    cases decide (2 * (m % 2 ^ i) ≠ 0 ∧ 2 * (m % 2 ^ i) ≠ 2 ^ i) <;> rfl
  · have up : RoundsUp .toEven m (2 ^ i) ↔ m / 2 ^ i % 2 = 1 := by simp [RoundsUp, half]
    rw [decide_eq_true (Nat.le_of_eq half.symm), decide_eq_false (by omega)]
    show m / 2 ^ i + m / 2 ^ i % 2 = _
    simp only [up]
    split <;> omega
  · rw [decide_eq_true (Nat.le_of_lt above), decide_eq_true (by omega),
      if_pos (by exact .inl above)]
    rfl

theorem targetExponent_eq (e : Int) : Format.binary64.targetExponent e = max (e - 53) (-1074) := rfl

theorem carry_bounds {r : Nat} (least : 2 ^ 52 ≤ r) (greatest : r ≤ 2 ^ 53) :
    2 ^ 52 ≤ r / 2 ^ excess r ∧ r / 2 ^ excess r < 2 ^ 53 ∧
    r / 2 ^ excess r * 2 ^ excess r = r := by
  rcases Nat.lt_or_eq_of_le greatest with short | rfl
  · have none : excess r = 0 := by rw [excess, log2_of_full least short]
    rw [none, Nat.pow_zero, Nat.div_one, Nat.mul_one]
    exact ⟨least, short, rfl⟩
  · decide

section

variable {m : Nat} (full : 2 ^ 52 ≤ m) (k : Nat)

include full

theorem targetExponent_long :
    Format.binary64.targetExponent (totalExponent m (k - 1074)) =
      ((k + excess m : Nat) : Int) - 1074 := by
  have digits : 52 ≤ m.log2 := (Nat.le_log2 (by omega)).2 full
  rw [targetExponent_eq, totalExponent, excess]
  omega

theorem shiftToTargetExponent_eq :
    shiftToTargetExponent .binary64 m (k - 1074) .exact =
      (shifted m (excess m), ((k + excess m : Nat) : Int) - 1074) := by
  have amount : (((k + excess m : Nat) : Int) - 1074 - ((k : Int) - 1074)).toNat = excess m := by
    omega
  unfold shiftToTargetExponent shiftToExponent
  simp only [targetExponent_long full, amount, shiftRight_eq_shifted]
  congr 1
  omega

omit full in
theorem roundWithAccuracy_eq {spec : Format} {s : Sign} {e : Int} {accuracy : Accuracy}
    {p q : ExtendedMantissa × Int} {r : Nat} (first : shiftToTargetExponent spec m e accuracy = p)
    (rounded : p.1.roundedMantissa = r) (second : shiftToTargetExponent spec r p.2 .exact = q)
    (filled : q.1.mantissa ≠ 0) :
    roundWithAccuracy spec s m e accuracy =
      .finite s q.1.mantissa q.2 (Nat.pos_of_ne_zero filled) := by
  subst first rounded second
  exact dif_neg filled

theorem measures_roundWithAccuracy (s : Sign) (range : k + (nearestNat m).log2 ≤ 2097) :
    Measures (roundWithAccuracy .binary64 s m (k - 1074) .exact)
    (s.apply (nearestNat m * 2 ^ k : Nat)) := by
  obtain ⟨least, greatest⟩ := roundDiv_excess_bounds full
  obtain ⟨full', short', whole⟩ := carry_bounds least greatest
  have digits :
    (roundDiv .toEven m (2 ^ excess m)).log2 = 52 + excess (roundDiv .toEven m (2 ^ excess m)) :=
    (Nat.add_sub_of_le ((Nat.le_log2 (by omega)).2 least)).symm
  have scaled : nearestNat m * 2 ^ k = roundDiv .toEven m (2 ^ excess m) * 2 ^ (k + excess m) := by
    rw [nearestNat, Nat.mul_assoc, ← Nat.pow_add, Nat.add_comm k]
  rw [nearestNat, log2_mul_two_pow (by omega), digits] at range
  have carried := shiftToTargetExponent_eq least (k + excess m)
  have filled :
      roundDiv .toEven m (2 ^ excess m) / 2 ^ excess (roundDiv .toEven m (2 ^ excess m)) ≠ 0 := by
    omega
  rw [roundWithAccuracy_eq (shiftToTargetExponent_eq full k) (roundedMantissa_shifted m _) carried
    filled, scaled]
  have exact :=
    Measures.normal s (k := k + excess m + excess (roundDiv .toEven m (2 ^ excess m))) (by omega)
      full' short'
    (by omega)
  rwa [Nat.pow_add 2 (k + excess m), Nat.mul_comm (2 ^ (k + excess m)), ← Nat.mul_assoc, whole]
    at exact

end

theorem mul_finite {spec : Format} {s t : Sign} {m n : Nat} {e f : Int} {hm : 0 < m} {hn : 0 < n} :
    UnpackedFloat.mul spec (.finite s m e hm) (.finite t n f hn) =
    roundWithAccuracy spec (s * t) (m * n) (e + f) .exact := rfl

/-! ### Floats of integers -/

theorem Measures.packed {u : UnpackedFloat} {a : Int} (h : Measures u a) :
    Measures (Float.Model.pack u).unpack a := by
  show Measures (UnpackedFloat.unpack .binary64 (UnpackedFloat.pack .binary64 u)) a
  rwa [h.unpack_pack]

/-- How many times the least positive float goes into one. -/
def leastsInOne : Nat := 2 ^ 1074

theorem leastsInOne_pos : 0 < leastsInOne := by
  rw [leastsInOne]
  exact Nat.two_pow_pos 1074

theorem two_pow_mul_two_pow {i j : Nat} (h : i + j = 1074) : 2 ^ i * 2 ^ j = leastsInOne := by
  rw [← Nat.pow_add, h, leastsInOne]

section

variable {n : Nat}

theorem ofNat_long (long : 2 ^ 53 ≤ n) :
    (Float.ofNat n).toModel = Float.Model.ofScientific n 0 := by
  show (Float.ofScientific n false 0).toModel = _
  rw [Float.ofScientific, dif_neg (by omega)]
  rfl

theorem ofNat_short (short : n < 2 ^ 53) :
    (Float.ofNat n).toModel =
      (Float.Model.ofUInt64 n.toUInt64).mul (Float.exactlyRepresentablePowersOfTen[0]).toModel := by
  show (Float.ofScientific n false 0).toModel = _
  rw [Float.ofScientific, dif_pos ⟨short, by decide⟩]
  rfl

theorem measures_ofNat_long (long : 2 ^ 53 ≤ n) (range : n < 2 ^ 64) :
    Measures (Float.ofNat n).toModel.unpack (nearestNat n * leastsInOne : Nat) := by
  have filled : n ≠ 0 := by omega
  have full : 2 ^ 52 ≤ n := by omega
  have digits : n.log2 < 64 := (Nat.log2_lt filled).2 range
  have product : UnpackedFloat.ofScientific .binary64 n 0 =
      roundWithAccuracy .binary64 .positive (n * 2 ^ 53) ((1021 : Nat) - 1074) .exact := by
    have bits : Format.binary64.mantissaBits = 53 := by decide
    have least : (0 : Int) < 2 ^ Format.binary64.exponentBits := by decide
    rw [UnpackedFloat.ofScientific, dif_neg filled, if_neg (by decide), if_neg (by omega),
      if_pos (Int.le_refl 0)]
    rw [mul_finite, bits, Nat.shiftLeft_eq]
    congr 1
    exact Nat.mul_one _
  rw [ofNat_long long]
  refine Measures.packed ?_
  obtain ⟨least, greatest⟩ := nearestNat_bounds filled
  have filled' : nearestNat n ≠ 0 := Nat.ne_of_gt (Nat.lt_of_lt_of_le (Nat.two_pow_pos _) least)
  have magnitude : (nearestNat n).log2 < 65 :=
    (Nat.log2_lt filled').2
    (Nat.lt_of_le_of_lt greatest (Nat.pow_lt_pow_right (by decide) (by omega)))
  have rounded := measures_roundWithAccuracy (show 2 ^ 52 ≤ n * 2 ^ 53 by omega) 1021 .positive
    (by rw [nearestNat_mul_two_pow full, log2_mul_two_pow filled']; omega)
  rwa [nearestNat_mul_two_pow full, Nat.mul_assoc,
    two_pow_mul_two_pow (show 53 + 1021 = 1074 from rfl), ← product] at rounded

theorem measures_round (filled : n ≠ 0) (short : n < 2 ^ 53) :
    Measures (UnpackedFloat.round .binary64 .positive n 0) (n * leastsInOne : Nat) := by
  have digits : n.log2 < 53 := (Nat.log2_lt filled).2 short
  obtain ⟨j, lack⟩ : ∃ j, n.log2 + j = 52 := ⟨52 - n.log2, by omega⟩
  have scaled : (n * 2 ^ j).log2 = 52 := by rw [log2_mul_two_pow filled, lack]
  have scaled_filled : n * 2 ^ j ≠ 0 := Nat.mul_ne_zero filled (Nat.ne_of_gt (Nat.two_pow_pos j))
  have full : 2 ^ 52 ≤ n * 2 ^ j := (Nat.le_log2 scaled_filled).1 (Nat.le_of_eq scaled.symm)
  have bound : n * 2 ^ j < 2 ^ 53 := (Nat.log2_lt scaled_filled).1 (by omega)
  have target : Format.binary64.targetExponent (totalExponent n 0) = -(j : Int) := by
    rw [targetExponent_eq, totalExponent]
    omega
  have round : UnpackedFloat.round .binary64 .positive n 0 =
      roundWithAccuracy .binary64 .positive (n * 2 ^ j) ((1074 - j : Nat) - 1074) .exact := by
    have amount : (0 - -(j : Int)).toNat = j := by omega
    simp only [UnpackedFloat.round, target, decreaseExponent, amount, Nat.shiftLeft_eq]
    congr 1
    omega
  have rounded :=
    measures_roundWithAccuracy full (1074 - j) .positive
      (by rw [nearestNat_eq_self (Nat.le_of_lt bound)]; omega)
  rwa [nearestNat_eq_self (Nat.le_of_lt bound), Nat.mul_assoc, two_pow_mul_two_pow (by omega),
    ← round] at rounded

theorem Measures.mul_one {u : UnpackedFloat} {a : Int} (h : Measures u a)
    (large : 2 ^ 105 ≤ a.natAbs) {unit : 0 < 2 ^ 52} :
    Measures (UnpackedFloat.mul .binary64 u (.finite .positive (2 ^ 52) (-52) unit)) a := by
  cases h with
  | zero s => exact .zero _
  | @normal s m k positive full short range =>
    have magnitude : (s.apply (m * 2 ^ k : Nat)).natAbs = m * 2 ^ k := by
      cases s <;> simp only [Sign.apply] <;> omega
    have enough : 52 ≤ k := by
      refine Nat.le_of_not_lt fun few => Nat.not_le.2 ?_ (magnitude ▸ large)
      calc m * 2 ^ k < 2 ^ 53 * 2 ^ k := Nat.mul_lt_mul_of_pos_right short (Nat.two_pow_pos k)
        _ ≤ 2 ^ 53 * 2 ^ 52 :=
          Nat.mul_le_mul_left _ (Nat.pow_le_pow_right (by decide) (Nat.le_of_lt few))
    obtain ⟨l, rfl⟩ : ∃ l, k = l + 52 := ⟨k - 52, by omega⟩
    have product : UnpackedFloat.mul .binary64 (.finite s m ((l + 52 : Nat) - 1074) positive)
          (.finite .positive (2 ^ 52) (-52) unit) =
        roundWithAccuracy .binary64 s (m * 2 ^ 52) (l - 1074) .exact := by
      have sign : s * .positive = s := by cases s <;> rfl
      have exponent : ((l + 52 : Nat) - 1074 : Int) + -52 = l - 1074 := by omega
      rw [mul_finite, sign, exponent]
    have same : nearestNat (m * 2 ^ 52) = m * 2 ^ 52 := by
      rw [nearestNat_mul_two_pow full, nearestNat_eq_self (Nat.le_of_lt short)]
    have rounded := measures_roundWithAccuracy (show 2 ^ 52 ≤ m * 2 ^ 52 by omega) l s
      (by rw [same, log2_mul_two_pow (Nat.ne_of_gt positive), log2_of_full full short]; omega)
    rw [same] at rounded
    rwa [product, Nat.pow_add, Nat.mul_comm (2 ^ l), ← Nat.mul_assoc]

theorem measures_ofNat_short (short : n < 2 ^ 53) :
    Measures (Float.ofNat n).toModel.unpack (nearestNat n * leastsInOne : Nat) := by
  have one : (Float.exactlyRepresentablePowersOfTen[0]).toModel.unpack =
    .finite .positive (2 ^ 52) (-52) (by decide) := rfl
  by_cases filled : n = 0
  · subst filled
    rw [show nearestNat 0 = 0 from rfl, Nat.zero_mul]
    exact .zero .positive
  have normalized :
      UnpackedFloat.ofUInt64 .binary64 n.toUInt64 =
        UnpackedFloat.round .binary64 .positive n 0 := by
    have same : n.toUInt64.toNat = n := UInt64.toNat_ofNat_of_lt' (by show n < 2 ^ 64; omega)
    rw [UnpackedFloat.ofUInt64, same, UnpackedFloat.ofNat, UnpackedFloat.ofInt,
      UnpackedFloat.normalize, Int.compare_eq_gt.2 (by omega)]
    rfl
  rw [ofNat_short short, nearestNat_eq_self (Nat.le_of_lt short)]
  refine Measures.packed ?_
  rw [one]
  refine Measures.mul_one (Measures.packed ?_) ?_
  · rw [normalized]
    exact measures_round filled short
  · rw [Int.natAbs_natCast, leastsInOne]
    calc 2 ^ 105 ≤ 2 ^ 1074 := Nat.pow_le_pow_right (by decide) (by decide)
      _ ≤ n * 2 ^ 1074 := Nat.le_mul_of_pos_left _ (Nat.pos_of_ne_zero filled)

theorem measures_ofNat (range : n < 2 ^ 64) :
    Measures (Float.ofNat n).toModel.unpack (nearestNat n * leastsInOne : Nat) :=
  (Nat.lt_or_ge n (2 ^ 53)).elim measures_ofNat_short fun long => measures_ofNat_long long range

end

/-- The float of an integer is that integer rounded to 53 binary digits. -/
theorem measures_floatOfInt {n : Int} (range : n.natAbs < 2 ^ 64) :
    Measures (floatOfInt n).toModel.unpack (nearest n * leastsInOne) := by
  cases n with
  | ofNat n =>
    have h := measures_ofNat (n := n) range
    rwa [Int.natCast_mul, ← nearest_natCast] at h
  | negSucc n =>
    have h := (measures_ofNat (n := n + 1) range).neg.packed
    rwa [Int.natCast_mul, ← Int.neg_mul, ← nearest_natCast, ← nearest_neg] at h

section

variable {a b : Int} (ha : a.natAbs < 2 ^ 64) (hb : b.natAbs < 2 ^ 64)

include ha hb

theorem compare_floatOfInt :
    (floatOfInt a).toModel.unpack.compare (floatOfInt b).toModel.unpack =
      some (compare (nearest a) (nearest b)) := by
  have positive : (0 : Int) < leastsInOne := Int.natCast_pos.2 leastsInOne_pos
  rw [(measures_floatOfInt ha).compare (measures_floatOfInt hb)]
  rcases Int.lt_trichotomy (nearest a) (nearest b) with less | same | more
  · rw [Int.compare_eq_lt.2 less, Int.compare_eq_lt.2 (Int.mul_lt_mul_of_pos_right less positive)]
  · rw [same, Int.compare_eq_eq.2 rfl, Int.compare_eq_eq.2 rfl]
  · rw [Int.compare_eq_gt.2 more, Int.compare_eq_gt.2 (Int.mul_lt_mul_of_pos_right more positive)]

theorem floatOfInt_lt : floatOfInt a < floatOfInt b ↔ nearest a < nearest b := by
  have compared : floatOfInt a < floatOfInt b ↔
      ((floatOfInt a).toModel.unpack.compare (floatOfInt b).toModel.unpack == some .lt) = true :=
      decide_eq_true_iff
  rw [compared, compare_floatOfInt ha hb, beq_iff_eq, Option.some.injEq, Int.compare_eq_lt]

theorem floatOfInt_beq : (floatOfInt a == floatOfInt b) = decide (nearest a = nearest b) := by
  have compared : (floatOfInt a == floatOfInt b) =
      ((floatOfInt a).toModel.unpack.compare (floatOfInt b).toModel.unpack == some .eq) := rfl
  rw [compared, compare_floatOfInt ha hb, Bool.eq_iff_iff, beq_iff_eq, Option.some.injEq,
    Int.compare_eq_eq, decide_eq_true_iff]

end

theorem floatOfInt_ne_zero {n : Int} (range : n.natAbs < 2 ^ 64) (h : n ≠ 0) :
    (floatOfInt n == 0) = false := by
  have compared : (floatOfInt n == floatOfInt 0) = decide (nearest n = nearest 0) :=
    floatOfInt_beq range (by decide)
  rwa [show nearest 0 = 0 from rfl, decide_eq_false (nearest_ne_zero h)] at compared

end SourcePreview.Number
