import SourcePreview.Proofs.Expression.Integer
import SourcePreview.Proofs.Number.FloatOfInt

/-! Number literals with a suffix, and their quotients. A suffix does not count: an unsigned literal
is an integer if it is in range and else a float, whatever letter stands behind it, and so is its
quotient by an integer where quotients of integers are integers (`evaluate_suffixed`). -/

namespace SourcePreview

/-- An unsigned literal: decimal digits with underscores behind the first one, and perhaps a letter
for the width. -/
structure DecimalLiteral where
  row : Text
  width : Text
  magnitude : Nat
  first : row.head?.any Number.isDigit = true
  widened : width = [] ∨ ∃ c, isWidthSuffix c = true ∧ width = [c]
  digits : Number.value? (row.filter (· != '_')) = some magnitude

namespace DecimalLiteral

variable (literal : DecimalLiteral)

def text : Text := literal.row ++ literal.width

def value : Value :=
  if literal.magnitude < 2 ^ 63 then .int (Int64.ofNat literal.magnitude)
  else .float (Number.nearestFloat literal.magnitude 0)

theorem read : numberLiteral? literal.text = some literal.value := by
  have signed : ([] : Text) ∈ [[], ['-'], ['+']] := by decide
  unfold text value
  by_cases short : literal.magnitude < 2 ^ 63
  · rw [if_pos short]
    exact numberLiteral?_of_value? signed literal.first literal.widened literal.digits
      (Int64.toInt_ofNat_of_lt short)
  · have out : ¬ Number.Fits literal.magnitude := by
      unfold Number.Fits
      omega
    have float := numberLiteral?_of_overwide signed literal.first literal.widened literal.digits out
    rw [List.nil_append, List.nil_append, Number.readFloat?_of_value? literal.digits] at float
    rw [if_neg short, float]
    rfl

theorem exists_digit : ∃ c r, literal.text = c :: r ∧ Number.isDigit c = true := by
  obtain ⟨c, head, digit⟩ := (Option.any_eq_true _ _).1 literal.first
  obtain ⟨r, row⟩ := List.head?_eq_some_iff.1 head
  exact ⟨c, r ++ literal.width, by rw [text, row, List.cons_append], digit⟩

theorem atom : Atom literal.text := by
  obtain ⟨c, r, text, -⟩ := literal.exists_digit
  refine ⟨text ▸ List.cons_ne_nil c r, fun c hc => ?_⟩
  rcases List.mem_append.1 hc with hc | hc
  · by_cases separator : c = '_'
    · exact separator ▸ by decide
    · have mem : c ∈ literal.row.filter (· != '_') := List.mem_filter.2 ⟨hc, bne_iff_ne.2 separator⟩
      exact isNamePart_of_isDigit (Number.isDigit_of_value? literal.digits c mem)
  · rcases literal.widened with none | ⟨w, suffix, width⟩
    · rw [none] at hc
      cases hc
    · rw [width, List.mem_singleton] at hc
      exact hc ▸ isNamePart_of_isWidthSuffix suffix

theorem value_intUnless :
    literal.value.IntUnless (2 ^ 63 ≤ literal.magnitude) literal.magnitude := by
  unfold value
  split
  · next short =>
      exact ⟨fun _ => ⟨_, rfl, Int64.toInt_ofNat_of_lt short⟩,
      fun long => absurd short (Nat.not_lt.2 long)⟩
  · next long => exact ⟨fun short => absurd (Nat.not_lt.1 long) short, fun _ => ⟨_, rfl⟩⟩

theorem evaluate_text (env : Environment) (d : Dialect) :
    evaluate env d literal.text = .ok (.value literal.value) :=
  evaluate_of_numberLiteral? env d (by rw [literal.atom.operand.tight.trim_eq, literal.read])

end DecimalLiteral

theorem Cut.ofText?_quotient {x gap y : Text} (hx : Operand x) (hidden : Nesting.Hidden x)
    (blank : gap.all Text.isBlank = true) (single : y.head? ≠ some '/')
    (passes : ∀ found, scan .start ('/' :: (gap.reverse ++ x.reverse)) found y = some found) :
    ofText? (x ++ gap ++ '/' :: y) = some ⟨x ++ gap, .div, y⟩ := by
  have additive : Operator.div.isAdditive = true →
    endsInExponent (gap.reverse ++ (x.reverse ++ [])) = false := nofun
  have passed :=
    Term.scan_blanks_operator .div hx blank (.of_blanks blank) ⟨none, none⟩ additive fun _ => single
  rw [List.append_nil] at passed
  rw [ofText?, List.append_assoc, scan_hidden hidden, List.append_nil]
  simp only [Operator.symbol] at passed
  rw [passed, passes]
  simp [Candidates.put, Operator.isAdditive]

namespace IntegerLiteral

variable (literal : IntegerLiteral)

def unsigned : DecimalLiteral :=
  ⟨literal.row, literal.width, literal.magnitude, literal.first, literal.widened, literal.digits⟩

theorem core_eq : literal.core = literal.sign ++ literal.unsigned.text := List.append_assoc _ _ _

theorem operand_core : Operand literal.core := by
  have hu := literal.unsigned.atom.operand
  have signed := literal.signed
  simp only [List.mem_cons, List.not_mem_nil, or_false] at signed
  rw [core_eq]
  rcases signed with none | minus | plus
  · rwa [none]
  · rw [minus]
    exact hu.negative
  · rw [plus]
    obtain ⟨r, c, text, filled, plain⟩ := hu.last
    exact ⟨⟨'+', _, rfl, rfl⟩, ⟨'+' :: r, c, congrArg (List.cons '+') text, filled, plain⟩⟩

theorem scan_core {before : Text} (sign : Cut.isSign before = true) (found : Cut.Candidates) :
    Cut.scan .start before found literal.core = some found := by
  have row : ∀ before, Cut.scan .start before found literal.unsigned.text = some found :=
    fun before => by
    have passed := Cut.scan_hidden literal.unsigned.atom.hidden before found []
    rwa [List.append_nil] at passed
  have behind : ∀ c, c = '-' ∨ c = '+' →
      Cut.scan .start before found (c :: literal.unsigned.text) = some found := by
    intro c symbol
    have top : Nesting.start.isTop c = true ∧ Nesting.start.step c = Nesting.start := by
      rcases symbol with rfl | rfl <;> decide
    rw [Cut.scan, if_pos top.1, Cut.add_of_isSign symbol sign, top.2]
    exact row _
  have signed := literal.signed
  simp only [List.mem_cons, List.not_mem_nil, or_false] at signed
  rw [core_eq]
  rcases signed with none | minus | plus
  · rw [none]
    exact row before
  · rw [minus]
    exact behind '-' (.inl rfl)
  · rw [plus]
    exact behind '+' (.inr rfl)

end IntegerLiteral

section

variable (env : Environment) (d : Dialect) (literal : DecimalLiteral) {gap : Text}
  (blank : gap.all Text.isBlank = true) (divisor : IntegerLiteral)
include blank

theorem form_quotient :
    Form.ofText (literal.text ++ gap ++ '/' :: (divisor.before ++ divisor.core)) =
    .binary ⟨literal.text ++ gap, .div, divisor.before ++ divisor.core⟩ := by
  have whole : literal.text ++ gap ++ '/' :: (divisor.before ++ divisor.core) =
      literal.text ++ (gap ++ '/' :: divisor.before) ++ divisor.core := by simp
  have operand : Operand (literal.text ++ gap ++ '/' :: (divisor.before ++ divisor.core)) :=
    whole ▸ literal.atom.operand.append _ divisor.operand_core
  have symbol : '/' ∈ literal.text ++ gap ++ '/' :: (divisor.before ++ divisor.core) := by simp
  have starts :
      startsNumber (literal.text ++ gap ++ '/' :: (divisor.before ++ divisor.core)) = true := by
    obtain ⟨c, r, text, digit⟩ := literal.exists_digit
    simp [text, startsNumber, digit]
  have unnamed :
      Text.isIdentifier (literal.text ++ gap ++ '/' :: (divisor.before ++ divisor.core)) =
        false := by
    rw [Bool.eq_false_iff]
    exact fun named => (atom_of_isIdentifier named).not_mem (by decide) symbol
  have single : (divisor.before ++ divisor.core).head? ≠ some '/' := by
    intro head
    rcases List.mem_append.1 (List.mem_of_head? head) with space | part
    · exact absurd (List.all_eq_true.1 divisor.blank.1 _ space) (by decide)
    · rcases mem_of_numberLiteral?_int divisor.read_core _ part with other | other | other
      · cases other
      · cases other
      · exact absurd other (by decide)
  have cut :=
    Cut.ofText?_quotient literal.atom.operand literal.atom.hidden blank single fun found => by
    rw [Cut.scan_hidden (.of_blanks divisor.blank.1)]
    refine divisor.scan_core (Cut.isSign_blanks_symbol ?_ .div _) found
    rw [List.all_reverse]
    exact divisor.blank.1
  rw [ofText_of_operand operand]
  exact (bare_of_startsNumber starts).form_of_cut (numberLiteral?_of_mem (by decide) symbol) unnamed
    cut

theorem evaluate_quotient : evaluate env d (literal.text ++ gap ++ '/' :: divisor.text) =
    .ok (.ofArithmetic (Value.binary d.trueDivision .div literal.value (.int divisor.value))) := by
  have operand := literal.atom.operand.append (gap ++ '/' :: divisor.before) divisor.operand_core
  have whole := evaluate_blanks env d (a := []) operand rfl divisor.blank.2
  have left := evaluate_blanks env d (a := []) literal.atom.operand rfl blank
  have right := evaluate_blanks env d (b := []) divisor.operand_core divisor.blank.1 rfl
  have read : evaluate env d divisor.core = .ok (.value (.int divisor.value)) :=
    evaluate_of_numberLiteral? env d (by rw [divisor.operand_core.tight.trim_eq, divisor.read_core])
  rw [List.nil_append, literal.evaluate_text] at left
  rw [List.append_nil, read] at right
  have text : literal.text ++ gap ++ '/' :: divisor.text =
      [] ++ (literal.text ++ (gap ++ '/' :: divisor.before) ++ divisor.core) ++ divisor.behind := by
        simp [IntegerLiteral.text]
  have apart : literal.text ++ (gap ++ '/' :: divisor.before) ++ divisor.core =
      literal.text ++ gap ++ '/' :: (divisor.before ++ divisor.core) := by simp
  rw [text, whole, apart, evaluate_eq, form_quotient literal blank, Form.evaluate, left, right]
  rfl

end

section

variable {divisor : Int64} (nonzero : divisor ≠ 0)
include nonzero

theorem Value.binary_float_quotient (rule : Bool) (x : Float) :
    Value.binary rule .div (.float x) (.int divisor) =
      .ok (.float (x / Number.floatOfInt divisor.toInt)) := by
  have filled : divisor.toInt ≠ 0 := fun zero => nonzero (Int64.toInt_inj.1 zero)
  have range : divisor.toInt.natAbs < 2 ^ 64 := by
    have fits := Number.fits_toInt divisor
    unfold Number.Fits at fits
    omega
  simp [binary, floatBinary, Number.floatOfInt_ne_zero range filled]

namespace DecimalLiteral

variable (literal : DecimalLiteral)

theorem quotient : ∃ v, Value.binary false .div literal.value (.int divisor) = .ok v ∧
    v.IntUnless (2 ^ 63 ≤ literal.magnitude) ((literal.magnitude : Int).tdiv divisor.toInt) := by
  unfold value
  split
  · next short =>
    have numerator := Int64.toInt_ofNat_of_lt short
    obtain ⟨v, divided, whole⟩ := Value.binary_int_quotient (Int64.ofNat literal.magnitude) nonzero
    rw [numerator] at whole
    refine ⟨v, divided,
      whole.congr ⟨fun least => absurd least.1 (ofNat_ne_minValue short), fun long => ?_⟩⟩
    exact absurd short (Nat.not_lt.2 long)
  · next long =>
    have float :=
      Value.binary_float_quotient nonzero false (Number.nearestFloat literal.magnitude 0)
    exact ⟨_, float, fun short => absurd (Nat.not_lt.1 long) short, fun _ => ⟨_, rfl⟩⟩

theorem trueQuotient :
    ∃ x, Value.binary true .div literal.value (.int divisor) = .ok (.float x) := by
  unfold value
  split
  · exact Value.binary_int_trueQuotient _ nonzero
  · exact ⟨_, Value.binary_float_quotient nonzero true _⟩

end DecimalLiteral

end

/-- Whatever letter stands behind it, an unsigned literal comes to an integer if it is in range, and
to a float if not. Divided by an integer it is the quotient without its fraction, or a float, where
quotients of integers are integers, and a float elsewhere. -/
theorem evaluate_suffixed (literal : DecimalLiteral) :
    (∃ v, (∀ env d, evaluate env d literal.text = .ok (.value v)) ∧
      v.IntUnless (2 ^ 63 ≤ literal.magnitude) literal.magnitude) ∧
    ∀ gap (divisor : IntegerLiteral), gap.all Text.isBlank = true → divisor.value ≠ 0 →
      (∃ v,
        (∀ env, evaluate env .java (literal.text ++ gap ++ '/' :: divisor.text) = .ok (.value v)) ∧
        v.IntUnless (2 ^ 63 ≤ literal.magnitude)
          ((literal.magnitude : Int).tdiv divisor.value.toInt)) ∧
      ∃ x, ∀ env, evaluate env .python (literal.text ++ gap ++ '/' :: divisor.text) =
        .ok (.value (.float x)) := by
  refine ⟨⟨literal.value, literal.evaluate_text, literal.value_intUnless⟩,
    fun gap divisor blank nonzero => ⟨?_, ?_⟩⟩
  · obtain ⟨v, divided, exact⟩ := literal.quotient nonzero
    refine ⟨v, fun env => ?_, exact⟩
    rw [evaluate_quotient env .java literal blank divisor, Dialect.trueDivision, divided]
    rfl
  · obtain ⟨x, divided⟩ := literal.trueQuotient nonzero
    refine ⟨x, fun env => ?_⟩
    rw [evaluate_quotient env .python literal blank divisor, Dialect.trueDivision, divided]
    rfl

def elevenWide : DecimalLiteral := ⟨"1_1".toList, ['L'], 11, rfl, .inr ⟨'L', rfl, rfl⟩, rfl⟩

def sevenFloat : DecimalLiteral := ⟨['7'], ['f'], 7, rfl, .inr ⟨'f', rfl, rfl⟩, rfl⟩

def blankTwo : IntegerLiteral :=
  ⟨[' '], [], ['2'], [], [], 2, 2, by decide, by decide, rfl, .inl rfl, rfl, rfl⟩

theorem evaluate_suffixed_of_eleven : [' '].all Text.isBlank = true ∧ blankTwo.value ≠ 0 ∧
    (∀ env, evaluate env .java "1_1L / 2".toList = .ok (.value (.int 5))) ∧
    ∃ x, ∀ env, evaluate env .python "1_1L / 2".toList = .ok (.value (.float x)) := by
  have blank : [' '].all Text.isBlank = true := by decide
  have nonzero : blankTwo.value ≠ 0 := by decide
  obtain ⟨⟨v, cut, whole⟩, float⟩ := (evaluate_suffixed elevenWide).2 [' '] blankTwo blank nonzero
  obtain ⟨n, rfl, exact⟩ := whole.exact (by decide)
  obtain rfl : n = 5 := Int64.toInt_inj.1 exact
  exact ⟨blank, nonzero, cut, float⟩

/-- The letter of a float does not make a literal one, and the fraction of its quotient is lost. -/
theorem evaluate_seven_float : (∀ env d, evaluate env d "7f".toList = .ok (.value (.int 7))) ∧
    ∀ env, evaluate env .java "7f / 2".toList = .ok (.value (.int 3)) := by
  have blank : [' '].all Text.isBlank = true := by decide
  obtain ⟨v, cut, whole⟩ := sevenFloat.quotient (show blankTwo.value ≠ 0 by decide)
  obtain ⟨n, rfl, exact⟩ := whole.exact (by decide)
  obtain rfl : n = 3 := Int64.toInt_inj.1 exact
  refine ⟨sevenFloat.evaluate_text, fun env => ?_⟩
  have read := evaluate_quotient env .java sevenFloat blank blankTwo
  rw [Dialect.trueDivision, cut] at read
  exact read

end SourcePreview
