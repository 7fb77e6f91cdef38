import SourcePreview.Expression.Literal

/-! Which texts are number literals: a row of digits is, with its value, and so is one behind a
minus sign; a text with a blank in it is none, and neither is one that goes on behind its first
digits with an operator. -/

namespace SourcePreview

namespace Number

theorem isDigit_digitChar {d : Nat} (h : d < 10) : isDigit (digitChar d) = true := by
  rw [isDigit, digitValue?_digitChar h]
  rfl

theorem isDigit_of_mem_digits (n : Nat) : ∀ c ∈ digits n, isDigit c = true := by
  induction n using Nat.strongRecOn with
  | _ n ih =>
    intro c hc
    rw [digits] at hc
    split at hc
    · next h =>
      rw [List.mem_singleton.1 hc]
      exact isDigit_digitChar h
    · rcases List.mem_append.1 hc with hc | hc
      · exact ih (n / 10) (by omega) c hc
      · rw [List.mem_singleton.1 hc]
        exact isDigit_digitChar (Nat.mod_lt n (by omega))

theorem valueFrom?_eq_none {s : Text} {c : Char} (h : c ∈ s) (hc : isDigit c = false) (acc : Nat) :
    valueFrom? acc s = none := by
  obtain ⟨a, b, rfl⟩ := List.append_of_mem h
  have hd : digitValue? c = none := by simpa [isDigit] using hc
  rw [valueFrom?_append]
  simp [valueFrom?, hd]

theorem value?_eq_none {s : Text} {c : Char} (h : c ∈ s) (hc : isDigit c = false) :
    value? s = none := by
  cases s with
  | nil => cases h
  | cons d r => exact valueFrom?_eq_none h hc 0

theorem isDigit_of_value? {s : Text} {n : Nat} (h : value? s = some n) :
    ∀ c ∈ s, isDigit c = true := by
  intro c hc
  cases hd : isDigit c with
  | true => rfl
  | false =>
    rw [value?_eq_none hc hd] at h
    cases h

/-- Characters that no number is written with. -/
def foreigns : List Char := [' ', '*', '/']

section

variable {s : Text} {c : Char} (foreign : c ∈ foreigns)
include foreign

theorem foreign_cases : c = ' ' ∨ c = '*' ∨ c = '/' := by
  simpa [foreigns] using foreign

theorem not_isDigit_of_foreign : isDigit c = false := by
  rcases foreign_cases foreign with rfl | rfl | rfl <;> rfl

theorem mem_cutSign (h : c ∈ s) : c ∈ (cutSign s).2 := by
  have other : c ≠ '-' ∧ c ≠ '+' := by rcases foreign_cases foreign with rfl | rfl | rfl <;> decide
  unfold cutSign
  split
  · exact (List.mem_cons.1 h).resolve_left other.1
  · exact (List.mem_cons.1 h).resolve_left other.2
  · exact h

theorem readInt?_of_mem (h : c ∈ s) : readInt? s = none := by
  simp [readInt?, value?_eq_none (mem_cutSign foreign h) (not_isDigit_of_foreign foreign)]

theorem mem_cutDigits (h : c ∈ s) : c ∈ (cutDigits s).2 := by
  have hs := Text.spanOf_append isDigit s
  rw [← hs] at h
  rcases List.mem_append.1 h with h | h
  · have digit := List.all_eq_true.1 List.all_takeWhile _ h
    rw [not_isDigit_of_foreign foreign] at digit
    cases digit
  · exact h

theorem readExponent?_of_mem (h : c ∈ s) : readExponent? s = none := by
  have other : (c == 'e' || c == 'E') = false := by
    rcases foreign_cases foreign with rfl | rfl | rfl <;> rfl
  cases s with
  | nil => cases h
  | cons d r =>
    rw [readExponent?]
    by_cases marker : (d == 'e' || d == 'E') = true
    · have hr : c ∈ r := by
        rcases List.mem_cons.1 h with rfl | h
        · rw [other] at marker
          cases marker
        · exact h
      rw [if_pos marker]
      dsimp only
      rw [value?_eq_none (mem_cutSign foreign hr) (not_isDigit_of_foreign foreign)]
      rfl
    · rw [if_neg marker]

theorem readDecimal?_of_mem (h : c ∈ s) : readDecimal? s = none := by
  have hw := mem_cutDigits foreign h
  have pointless : c ≠ '.' := by
    rintro rfl
    exact absurd foreign (by decide)
  unfold readDecimal?
  dsimp only
  split
  · next r hr =>
    rw [hr] at hw
    rw [readExponent?_of_mem foreign
      (mem_cutDigits foreign ((List.mem_cons.1 hw).resolve_left pointless))]
    simp
  · rw [readExponent?_of_mem foreign hw]
    simp

theorem readFloat?_of_mem (h : c ∈ s) : readFloat? s = none := by
  obtain ⟨same, infinite, nan⟩ : c.toLower = c ∧ c ∉ "infinity".toList ∧ c ∉ "nan".toList := by
    rcases foreign_cases foreign with rfl | rfl | rfl <;> decide
  have hr := mem_cutSign foreign h
  have hl : c ∈ lowerAscii (cutSign s).2 := List.mem_map.2 ⟨c, hr, same⟩
  have hne : ∀ word : Text, c ∉ word → (lowerAscii (cutSign s).2 == word) = false := by
    intro word hw
    rw [beq_eq_false_iff_ne]
    rintro rfl
    exact hw hl
  have inf : c ∉ "inf".toList := fun mem => infinite (List.mem_append_left "inity".toList mem)
  simp only [readFloat?, hne _ inf, hne _ infinite, hne _ nan, readDecimal?_of_mem foreign hr]
  rfl

end

end Number

theorem numberLiteral?_of_mem {s : Text} {c : Char} (foreign : c ∈ Number.foreigns) (h : c ∈ s) :
    numberLiteral? s = none := by
  obtain ⟨kept, other⟩ : (c != '_') = true ∧ isWidthSuffix c = false := by
    rcases Number.foreign_cases foreign with rfl | rfl | rfl <;> decide
  have hf : c ∈ s.filter (· != '_') := List.mem_filter.2 ⟨h, kept⟩
  have hd := Text.mem_getD_dropLastIf (p := isWidthSuffix) hf other
  simp [numberLiteral?, Number.readInt?_of_mem foreign hd, Number.readFloat?_of_mem foreign hd]

theorem numberLiteral?_of_startsNumber_eq_false {s : Text} (h : startsNumber s = false) :
    numberLiteral? s = none := by
  simp [numberLiteral?, h]

theorem cutSign_of_isDigit {c : Char} (h : Number.isDigit c = true) (r : Text) :
    Number.cutSign (c :: r) = (false, c :: r) := by
  unfold Number.cutSign
  split
  · next he => cases he; cases h
  · next he => cases he; cases h
  · rfl

theorem Number.fits_natCast {n : Nat} (h : n < 2 ^ 63) : Number.Fits n ∧ Number.Fits (-n) := by
  have h : (n : Int) < 2 ^ 63 := by exact_mod_cast h
  unfold Number.Fits
  omega

theorem toNat_of_isDigit {c : Char} (h : Number.isDigit c = true) :
    48 ≤ c.toNat ∧ c.toNat ≤ 57 := by
  unfold Number.isDigit Number.digitValue? at h
  split at h
  · assumption
  · cases h

theorem Number.wordless_of_isDigit {d : Char} (digit : isDigit d = true) (r : Text) :
    (lowerAscii (d :: r) == "inf".toList) = false ∧
      (lowerAscii (d :: r) == "infinity".toList) = false ∧
      (lowerAscii (d :: r) == "nan".toList) = false := by
  have key : ∀ n < 58, 48 ≤ n → (Char.ofNat n).toLower ≠ 'i' ∧ (Char.ofNat n).toLower ≠ 'n' := by
    decide
  have range := toNat_of_isDigit digit
  have other := key d.toNat (by omega) range.1
  rw [Char.ofNat_toNat] at other
  simp only [beq_eq_false_iff_ne]
  exact ⟨fun h => other.1 (List.cons.inj h).1, fun h => other.1 (List.cons.inj h).1,
    fun h => other.2 (List.cons.inj h).1⟩

/-- The characters that end a number: no digit, no point, no exponent marker, no separator and no
suffix. -/
def numberEnds : List Char := [' ', '+', '-', '*', '/']

section

variable {c : Char} (ends : c ∈ numberEnds)
include ends

theorem not_digit_of_numberEnds : Number.isDigit c = false := by
  have key : numberEnds.all (!Number.isDigit ·) = true := by decide
  exact Bool.not_eq_eq_eq_not.1 (List.all_eq_true.1 key c ends)

theorem not_suffix_of_numberEnds : isWidthSuffix c = false := by
  have key : numberEnds.all (!isWidthSuffix ·) = true := by decide
  exact Bool.not_eq_eq_eq_not.1 (List.all_eq_true.1 key c ends)

theorem Number.readDecimal?_of_end {ds : Text} (digits : ds.all isDigit = true) (r : Text) :
    readDecimal? (ds ++ c :: r) = none := by
  have cut : cutDigits (ds ++ c :: r) = (ds, c :: r) :=
    Text.spanOf_append_cons ds digits (not_digit_of_numberEnds ends) r
  have unpointed : c ≠ '.' := by
    rintro rfl
    exact absurd ends (by decide)
  have unmarked : ¬ (c == 'e' || c == 'E') = true := by
    rintro marked
    rw [Bool.or_eq_true, beq_iff_eq, beq_iff_eq] at marked
    rcases marked with rfl | rfl <;> exact absurd ends (by decide)
  rw [readDecimal?, cut]
  dsimp only
  split
  · next fraction h =>
    exact absurd (List.cons.inj h).1 unpointed
  · rw [readExponent?, if_neg unmarked]
    split <;> rfl

theorem getD_dropLastIf_of_end (a r : Text) : ∃ rest,
    (Text.dropLastIf isWidthSuffix (a ++ c :: r)).getD (a ++ c :: r) = a ++ c :: rest := by
  have kept := not_suffix_of_numberEnds ends
  unfold Text.dropLastIf
  rcases List.eq_nil_or_concat r with rfl | ⟨r, x, rfl⟩
  · exact ⟨[], by simp [kept]⟩
  · have whole : a ++ c :: r.concat x = (a ++ c :: r) ++ [x] := by simp
    rw [whole, List.getLast?_concat, List.dropLast_concat]
    dsimp only
    split
    · exact ⟨r, rfl⟩
    · exact ⟨r ++ [x], by simp⟩

theorem Number.read_of_end {ds : Text} (hd : ds ≠ []) (digits : ds.all isDigit = true) {sign : Text}
    (hsign : sign = [] ∨ sign = ['-']) (r : Text) :
    readInt? (sign ++ (ds ++ c :: r)) = none ∧ readFloat? (sign ++ (ds ++ c :: r)) = none := by
  obtain ⟨negative, cut⟩ : ∃ negative,
      cutSign (sign ++ (ds ++ c :: r)) = (negative, ds ++ c :: r) := by
    obtain ⟨d, ds, rfl⟩ := List.exists_cons_of_ne_nil hd
    rcases hsign with rfl | rfl
    · exact ⟨false, cutSign_of_isDigit (List.all_eq_true.1 digits d List.mem_cons_self) _⟩
    · exact ⟨true, rfl⟩
  have unread : value? (ds ++ c :: r) = none :=
    value?_eq_none (by simp) (not_digit_of_numberEnds ends)
  constructor
  · rw [readInt?, cut]
    dsimp only
    rw [unread]
    rfl
  · obtain ⟨d, ds, rfl⟩ := List.exists_cons_of_ne_nil hd
    have digit := List.all_eq_true.1 digits d List.mem_cons_self
    obtain ⟨inf, infinity, nan⟩ := wordless_of_isDigit digit (ds ++ c :: r)
    rw [readFloat?, cut]
    dsimp only
    rw [List.cons_append, inf, infinity, nan, ← List.cons_append, readDecimal?_of_end ends digits]
    rfl

theorem numberLiteral?_of_end {sign ds : Text} (hsign : sign = [] ∨ sign = ['-']) (hd : ds ≠ [])
    (digits : ds.all Number.isDigit = true) (r : Text) :
    numberLiteral? (sign ++ (ds ++ c :: r)) = none := by
  have row :
      (sign ++ (ds ++ c :: r)).filter (· != '_') = sign ++ (ds ++ c :: r.filter (· != '_')) := by
    have signed : sign.filter (· != '_') = sign := by rcases hsign with rfl | rfl <;> rfl
    have kept : ds.filter (· != '_') = ds := by
      refine List.filter_eq_self.2 fun e he => ?_
      have digit := List.all_eq_true.1 digits e he
      rw [bne_iff_ne]
      rintro rfl
      cases digit
    have other : (c != '_') = true := by
      rw [bne_iff_ne]
      rintro rfl
      exact absurd ends (by decide)
    rw [List.filter_append, List.filter_append, signed, kept, List.filter_cons, if_pos other]
  obtain ⟨rest, suffix⟩ := getD_dropLastIf_of_end ends (sign ++ ds) (r.filter (· != '_'))
  rw [List.append_assoc, List.append_assoc] at suffix
  obtain ⟨int, float⟩ := Number.read_of_end ends hd digits hsign rest
  rw [numberLiteral?, row]
  dsimp only
  rw [suffix, int, float]
  split <;> rfl

end

theorem not_isDigit_of_isWidthSuffix {c : Char} (h : isWidthSuffix c = true) :
    Number.isDigit c = false := by
  have key : ("LlfFdD".toList.all fun c => !Number.isDigit c) = true := by decide
  exact Bool.not_eq_eq_eq_not.1 (List.all_eq_true.1 key c (List.contains_iff_mem.1 h))

theorem Number.numeral_eq (n : Int) : numeral n = signText (decide (n < 0)) ++ digits n.natAbs := by
  cases n with
  | ofNat n => rfl
  | negSucc n => simp [numeral, signText]

theorem Number.readFloat?_of_value? {row : Text} {m : Nat} (read : value? row = some m) :
    readFloat? row = some (nearestFloat m 0) := by
  have digits : row.all isDigit = true := List.all_eq_true.2 (isDigit_of_value? read)
  obtain ⟨d, r, rfl⟩ : ∃ d r, row = d :: r := by
    cases row with
    | nil => cases read
    | cons d r => exact ⟨d, r, rfl⟩
  have digit := List.all_eq_true.1 digits d List.mem_cons_self
  obtain ⟨inf, infinity, nan⟩ := wordless_of_isDigit digit r
  have cut : cutDigits (d :: r) = (d :: r, []) :=
    Text.spanOf_eq_iff.2 ⟨(List.append_nil _).symm, digits, nofun⟩
  have decimal : readDecimal? (d :: r) = some (nearestFloat m 0) := by
    rw [readDecimal?, cut]
    show some (nearestFloat (rowValue (d :: r ++ [])) _) = _
    rw [List.append_nil, rowValue, read]
    rfl
  rw [readFloat?, cutSign_of_isDigit digit]
  dsimp only
  rw [inf, infinity, nan, decimal]
  rfl

section

variable {sign row suffix : Text} {m : Nat} (signed : sign ∈ [[], ['-'], ['+']])
include signed

theorem Number.readInt?_of_value? (read : value? row = some m) :
    readInt? (sign ++ row) = int64? (if sign = ['-'] then -(m : Int) else m) := by
  have cut : cutSign (sign ++ row) = (decide (sign = ['-']), row) := by
    simp only [List.mem_cons, List.not_mem_nil, or_false] at signed
    rcases signed with rfl | rfl | rfl
    · obtain ⟨c, r, rfl⟩ : ∃ c r, row = c :: r := by
        cases row with
        | nil => cases read
        | cons c r => exact ⟨c, r, rfl⟩
      exact cutSign_of_isDigit (isDigit_of_value? read c List.mem_cons_self) r
    · rfl
    · rfl
  rw [readInt?, cut]
  dsimp only
  rw [read, Option.bind_some]
  simp only [decide_eq_true_eq]

theorem startsNumber_signed (first : row.head?.any Number.isDigit = true) :
    startsNumber (sign ++ row ++ suffix) = true := by
  obtain ⟨c, head, digit⟩ := (Option.any_eq_true _ _).1 first
  obtain ⟨r, rfl⟩ := List.head?_eq_some_iff.1 head
  simp only [List.mem_cons, List.not_mem_nil, or_false] at signed
  rcases signed with rfl | rfl | rfl <;> simp [startsNumber, digit]

theorem filter_literal (suffixed : suffix = [] ∨ ∃ c, isWidthSuffix c = true ∧ suffix = [c]) :
    (sign ++ row ++ suffix).filter (· != '_') = sign ++ row.filter (· != '_') ++ suffix := by
  have whole : sign.filter (· != '_') = sign := by
    simp only [List.mem_cons, List.not_mem_nil, or_false] at signed
    rcases signed with rfl | rfl | rfl <;> rfl
  have last : suffix.filter (· != '_') = suffix := by
    rcases suffixed with rfl | ⟨c, hc, rfl⟩
    · rfl
    · refine List.filter_eq_self.2 (List.forall_mem_singleton.2 (bne_iff_ne.2 ?_))
      rintro rfl
      cases hc
  rw [List.filter_append, List.filter_append, whole, last]

omit signed in
theorem getD_dropLastIf_suffixed
    (suffixed : suffix = [] ∨ ∃ c, isWidthSuffix c = true ∧ suffix = [c])
    (read : Number.value? row = some m) :
    (Text.dropLastIf isWidthSuffix (sign ++ row ++ suffix)).getD (sign ++ row ++ suffix) =
      sign ++ row := by
  rcases suffixed with rfl | ⟨c, hc, rfl⟩
  · have filled : row ≠ [] := by
      rintro rfl
      cases read
    obtain ⟨r, c, rfl⟩ := (List.eq_nil_or_concat row).resolve_left filled
    have digit := Number.isDigit_of_value? read c (by simp)
    have other : isWidthSuffix c = false := by
      cases hc : isWidthSuffix c with
      | false => rfl
      | true =>
        exact absurd digit (Bool.eq_false_iff.1 (not_isDigit_of_isWidthSuffix hc))
    simp [Text.dropLastIf, other]
  · simp [Text.dropLastIf, hc]

theorem numberLiteral?_eq (first : row.head?.any Number.isDigit = true)
    (suffixed : suffix = [] ∨ ∃ c, isWidthSuffix c = true ∧ suffix = [c])
    (read : Number.value? (row.filter (· != '_')) = some m) :
    numberLiteral? (sign ++ row ++ suffix) =
      match Number.int64? (if sign = ['-'] then -(m : Int) else m) with
      | some n => some (.int n)
      | none => (Number.readFloat? (sign ++ row.filter (· != '_'))).map .float := by
  have integer := Number.readInt?_of_value? signed read
  rw [numberLiteral?, if_pos (startsNumber_signed signed first)]
  dsimp only
  cases range : Number.int64? (if sign = ['-'] then -(m : Int) else m) with
  | some n =>
    rw [filter_literal signed suffixed, getD_dropLastIf_suffixed suffixed read, integer, range]
  | none =>
    rw [filter_literal signed suffixed, getD_dropLastIf_suffixed suffixed read, integer, range]

theorem numberLiteral?_of_value? (first : row.head?.any Number.isDigit = true)
    (suffixed : suffix = [] ∨ ∃ c, isWidthSuffix c = true ∧ suffix = [c])
    (read : Number.value? (row.filter (· != '_')) = some m) {n : Int64}
    (exact : n.toInt = if sign = ['-'] then -(m : Int) else m) :
    numberLiteral? (sign ++ row ++ suffix) = some (.int n) := by
  rw [numberLiteral?_eq signed first suffixed read, ← exact, Number.int64?_toInt]

theorem numberLiteral?_of_overwide (first : row.head?.any Number.isDigit = true)
    (suffixed : suffix = [] ∨ ∃ c, isWidthSuffix c = true ∧ suffix = [c])
    (read : Number.value? (row.filter (· != '_')) = some m)
    (out : ¬ Number.Fits (if sign = ['-'] then -(m : Int) else m)) :
    numberLiteral? (sign ++ row ++ suffix) =
      (Number.readFloat? (sign ++ row.filter (· != '_'))).map .float := by
  rw [numberLiteral?_eq signed first suffixed read, Number.int64?, if_neg out]

theorem numberLiteral?_of_digits {m : Nat} {n : Int64}
    (exact : n.toInt = if sign = ['-'] then -(m : Int) else m) :
    numberLiteral? (sign ++ Number.digits m) = some (.int n) := by
  have digit := Number.isDigit_of_mem_digits m
  have first : (Number.digits m).head?.any Number.isDigit = true := by
    obtain ⟨c, r, row⟩ := List.exists_cons_of_ne_nil (Number.digits_ne_nil m)
    rw [row] at digit ⊢
    exact digit c List.mem_cons_self
  have kept : (Number.digits m).filter (· != '_') = Number.digits m := by
    refine List.filter_eq_self.2 fun c hc => bne_iff_ne.2 ?_
    rintro rfl
    cases digit '_' hc
  have read : numberLiteral? (sign ++ Number.digits m ++ []) = some (.int n) :=
    numberLiteral?_of_value? signed first (.inl rfl) (by rw [kept, Number.value?_digits]) exact
  rwa [List.append_nil] at read

end

namespace Number

theorem signText_mem (negative : Bool) : signText negative ∈ [[], ['-'], ['+']] := by
  cases negative <;> simp [signText]

theorem signed_natAbs (n : Int) :
    (if signText (decide (n < 0)) = ['-'] then -(n.natAbs : Int) else n.natAbs) = n := by
  by_cases negative : n < 0
  · rw [decide_eq_true negative, signText, if_pos rfl, if_pos rfl]
    omega
  · rw [decide_eq_false negative, signText, if_neg Bool.false_ne_true,
      if_neg (List.cons_ne_nil _ _).symm]
    omega

theorem readInt?_numeral (n : Int) : readInt? (numeral n) = int64? n := by
  rw [numeral_eq, readInt?_of_value? (signText_mem _) (value?_digits _), signed_natAbs]

end Number

theorem numberLiteral?_numeral (n : Int64) :
    numberLiteral? (Number.numeral n.toInt) = some (.int n) := by
  rw [Number.numeral_eq]
  exact numberLiteral?_of_digits (Number.signText_mem _) (Number.signed_natAbs _).symm

section

variable {n : Nat} (fits : n < 2 ^ 63)
include fits

theorem numberLiteral?_digits : numberLiteral? (Number.digits n) = some (.int (Int64.ofNat n)) :=
  numberLiteral?_of_digits (by decide : [] ∈ [[], ['-'], ['+']]) (Int64.toInt_ofNat_of_lt fits)

theorem numberLiteral?_neg_digits :
    numberLiteral? ('-' :: Number.digits n) = some (.int (-Int64.ofNat n)) := by
  have read : Number.int64? (-n) = some (-Int64.ofNat n) := by
    simp [Number.int64?, Number.fits_natCast fits, Int64.ofInt_eq_ofNat]
  have exact := Number.toInt_of_int64? read
  exact numberLiteral?_of_digits (by decide : ['-'] ∈ [[], ['-'], ['+']]) exact

end

end SourcePreview
