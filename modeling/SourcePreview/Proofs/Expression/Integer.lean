import SourcePreview.Proofs.Expression.Application
import SourcePreview.Proofs.Expression.Spacing

/-! Integers in expressions. A literal of an integer comes to it, with blanks around it too, and is
one argument of a call (`IntegerLiteral`). Signs, magnitudes and sums are exact or leave the
integers (`integers_exact`). -/

namespace SourcePreview

theorem Number.mem_of_readInt? {s : Text} {n : Int64} (h : readInt? s = some n) :
    ∀ c ∈ s, c = '-' ∨ c = '+' ∨ isDigit c = true := by
  obtain ⟨m, row, -⟩ := Option.bind_eq_some_iff.1 h
  have digit := isDigit_of_value? row
  intro c hc
  split at digit
  · exact (List.mem_cons.1 hc).imp_right fun hc => .inr (digit c hc)
  · exact .inr ((List.mem_cons.1 hc).imp_right (digit c))
  · exact .inr (.inr (digit c hc))

theorem isNamePart_of_isWidthSuffix {c : Char} (h : isWidthSuffix c = true) :
    Text.isNamePart c = true :=
  have key : "LlfFdD".toList.all Text.isNamePart = true := by decide +kernel
  List.all_eq_true.1 key c (List.contains_iff_mem.1 h)

theorem mem_of_numberLiteral?_int {s : Text} {n : Int64} (h : numberLiteral? s = some (.int n)) :
    ∀ c ∈ s, c = '-' ∨ c = '+' ∨ Text.isNamePart c = true := by
  intro c hc
  by_cases separator : c = '_'
  · exact .inr (.inr (separator ▸ by decide))
  · have mem : c ∈ s.filter (· != '_') := List.mem_filter.2 ⟨hc, bne_iff_ne.2 separator⟩
    rw [numberLiteral?] at h
    split at h
    · dsimp only at h
      split at h
      · next m read =>
        cases suffix : isWidthSuffix c with
        | true => exact .inr (.inr (isNamePart_of_isWidthSuffix suffix))
        | false =>
          have kept := Text.mem_getD_dropLastIf mem suffix
          exact (Number.mem_of_readInt? read c kept).imp_right (.imp_right isNamePart_of_isDigit)
      · obtain ⟨x, -, hx⟩ := Option.map_eq_some_iff.1 h
        cases hx
    · cases h

section

variable {s : Text} {n : Int64} (h : numberLiteral? s = some (.int n))
include h

theorem plain_of_numberLiteral?_int :
    ∀ c ∈ s, Nesting.isPlain c = true ∧ Text.isBlank c = false ∧ c ≠ ',' := by
  intro c hc
  rcases mem_of_numberLiteral?_int h c hc with rfl | rfl | part
  · decide
  · decide
  · refine ⟨isPlain_of_not_mem_marks (not_mem_marks part), Text.isBlank_of_isNamePart part, ?_⟩
    rintro rfl
    exact absurd part (by decide)

theorem solid_of_numberLiteral?_int : Text.Solid s := by
  refine ⟨?_, fun c hc => (plain_of_numberLiteral?_int h c hc).2.1⟩
  rintro rfl
  cases h

end

/-- The literal of an integer, perhaps between blanks: a sign or none, decimal digits with
underscores behind the first one, and perhaps a letter for the width. -/
structure IntegerLiteral where
  before : Text
  sign : Text
  row : Text
  width : Text
  behind : Text
  magnitude : Nat
  value : Int64
  blank : before.all Text.isBlank = true ∧ behind.all Text.isBlank = true
  signed : sign ∈ [[], ['-'], ['+']]
  first : row.head?.any Number.isDigit = true
  widened : width = [] ∨ ∃ c, isWidthSuffix c = true ∧ width = [c]
  digits : Number.value? (row.filter (· != '_')) = some magnitude
  exact : value.toInt = if sign = ['-'] then -(magnitude : Int) else magnitude

namespace IntegerLiteral

variable (literal : IntegerLiteral)

def core : Text := literal.sign ++ literal.row ++ literal.width

def text : Text := literal.before ++ literal.core ++ literal.behind

theorem read_core : numberLiteral? literal.core = some (.int literal.value) :=
  numberLiteral?_of_value? literal.signed literal.first literal.widened literal.digits literal.exact

theorem read : numberLiteral? (Text.trim literal.text) = some (.int literal.value) := by
  rw [text, Text.trim_blanks (solid_of_numberLiteral?_int literal.read_core).tight literal.blank.1
    literal.blank.2, read_core]

theorem argument : Call.Argument literal.text :=
  Call.argument_padded (solid_of_numberLiteral?_int literal.read_core).ne_nil
    (plain_of_numberLiteral?_int literal.read_core)
    literal.blank.1 literal.blank.2

theorem evaluate_text (env : Environment) (d : Dialect) :
    evaluate env d literal.text = .ok (.value (.int literal.value)) :=
  evaluate_of_numberLiteral? env d literal.read

end IntegerLiteral

section

variable (env : Environment) (d : Dialect) {x : Text} {n : Int64}

/-- A list of literals is added up exactly as long as no sum on the way is out of range. -/
theorem evaluate_sum {items : List IntegerLiteral} {trailing : List Text}
    (ends : Call.Trailing (items.map IntegerLiteral.text) trailing)
    (prefixes : ∀ row, row <+: items.map IntegerLiteral.value →
      Number.Fits (row.map Int64.toInt).sum) :
    ∃ total, evaluate env d
        (⟨"sum".toList, Call.listing (items.map IntegerLiteral.text ++ trailing)⟩ : Call).written =
        .ok (.value (.int total)) ∧
        total.toInt = ((items.map IntegerLiteral.value).map Int64.toInt).sum := by
  have each : ∀ x ∈ items.map IntegerLiteral.text, Call.Argument x :=
    List.forall_mem_map.2 fun item _ => item.argument
  have numbers : evaluateNumbers (evaluate env d) (items.map IntegerLiteral.text) =
      .ok (.ok ((items.map IntegerLiteral.value).map Value.int)) := by
    rw [List.map_map]
    exact evaluateNumbers_map fun item _ => ⟨item.evaluate_text env d, rfl⟩
  obtain ⟨total, reduced, exact⟩ := Aggregate.reduce?_sum d.trueDivision prefixes
  refine ⟨total, ?_, exact⟩
  rw [Call.evaluate_aggregate env d rfl each ends numbers, reduced]
  rfl

variable (identifier : Text.isIdentifier x = true)
include identifier

theorem evaluate_of_isIdentifier : evaluate env d x = .ok (.ofOption (env.get? x)) :=
  Term.evaluate_name env d ⟨true, true⟩ identifier

theorem evaluate_variable {v : Value} (bound : env.get? x = some v) :
    evaluate env d x = .ok (.value v) := by
  rw [evaluate_of_isIdentifier env d identifier, bound]
  rfl

theorem evaluate_minus {v : Value} (bound : env.get? x = some v) :
    evaluate env d ('-' :: x) = .ok (.ofOption v.negate?) := by
  have read :=
    Term.evaluate_print_negative env d (w := ⟨true, true⟩) (t := .name x identifier) (.inl rfl)
      nofun
  have operand : evaluate env d ((Term.name x identifier).print ⟨true, true⟩) = .ok (.value v) :=
    evaluate_variable env d identifier bound
  rw [Form.evaluate, operand] at read
  exact read

theorem evaluate_converted {function : Text} {conversion : Conversion}
    (known : Call.conversion? function = some conversion) {v : Value}
    (bound : env.get? x = some v) :
    evaluate env d (⟨function, x⟩ : Call).written = .ok (.ofOption (conversion.convert? v)) :=
  Call.evaluate_conversion env d known (Call.argument_of_isIdentifier identifier)
    (evaluate_variable env d identifier bound)

end

/-- Arithmetic on integers is exact or leaves the integers, in operations, behind a sign, as a
magnitude and in sums of literals: what is out of range is a float, and nothing wraps. -/
theorem integers_exact (a b : Int64) :
    (∀ rule op, op ≠ .div → ∃ v, Value.binary rule op (.int a) (.int b) = .ok v ∧
      v.IntUnless (¬ Number.Fits (op.whole a.toInt b.toInt)) (op.whole a.toInt b.toInt)) ∧
    (∀ rule, Value.binary rule .div (.int a) (.int b) = .error .divisionByZero ↔ b = 0) ∧
    (b ≠ 0 → (∃ x, Value.binary true .div (.int a) (.int b) = .ok (.float x)) ∧
      ∃ v, Value.binary false .div (.int a) (.int b) = .ok v ∧
        v.IntUnless (a = Int64.minValue ∧ b = -1) (a.toInt.tdiv b.toInt)) ∧
    (∀ env d x, Text.isIdentifier x = true → Environment.get? env x = some (.int a) →
      (∃ v, evaluate env d ('-' :: x) = .ok (.value v) ∧
        v.IntUnless (a = Int64.minValue) (-a.toInt)) ∧
      ∀ function ∈ ["abs".toList, "Math.abs".toList], ∃ v,
        evaluate env d (⟨function, x⟩ : Call).written = .ok (.value v) ∧
        v.IntUnless (a = Int64.minValue) a.toInt.natAbs) ∧
    ∀ env d (items : List IntegerLiteral) trailing,
      Call.Trailing (items.map IntegerLiteral.text) trailing →
      (∀ row, row <+: items.map IntegerLiteral.value → Number.Fits (row.map Int64.toInt).sum) →
      ∃ total,
        evaluate env d (⟨"sum".toList,
          Call.listing (items.map IntegerLiteral.text ++ trailing)⟩ : Call).written =
          .ok (.value (.int total)) ∧
        total.toInt = ((items.map IntegerLiteral.value).map Int64.toInt).sum := by
  refine ⟨fun rule op h => Value.binary_int_whole a b h rule, Value.binary_int_divisionByZero a b,
    fun nonzero => ?_, ?_, fun env d items trailing ends prefixes =>
    evaluate_sum env d ends prefixes⟩
  · exact ⟨Value.binary_int_trueQuotient a nonzero, Value.binary_int_quotient a nonzero⟩
  · intro env d x identifier bound
    constructor
    · obtain ⟨v, negated, exact⟩ := Value.negate?_whole a
      refine ⟨v, ?_, exact⟩
      rw [evaluate_minus env d identifier bound, negated]
      rfl
    · intro function known
      obtain ⟨v, measured, exact⟩ := Value.magnitude?_whole a
      have conversions : ∀ function ∈ ["abs".toList, "Math.abs".toList],
          Call.conversion? function = some .magnitude := by
        decide +kernel
      refine ⟨v, ?_, exact⟩
      rw [evaluate_converted env d identifier (conversions function known) bound,
        Conversion.convert?, measured]
      rfl

/-- The least integer has no negative, no magnitude and no quotient by minus one among the integers,
and a sum may come up to the greatest. -/
theorem integers_exact_of_least :
    let n := Int64.minValue
    let env := Environment.empty.assign ['n'] (.int n)
    let items : List IntegerLiteral := [
      ⟨[], [], "9_223_372_036_854_775_807".toList, ['L'], [], 2 ^ 63 - 1, Int64.maxValue, by decide,
        by decide, rfl, .inr ⟨'L', rfl, rfl⟩, rfl, rfl⟩,
      ⟨[' '], ['-'], ['1'], [], [], 1, -1, by decide, by decide, rfl, .inl rfl, rfl, rfl⟩,
      ⟨[], ['+'], ['1'], [], [], 1, 1, by decide, by decide, rfl, .inl rfl, rfl, rfl⟩]
    (Text.isIdentifier ['n'] = true ∧ env.get? ['n'] = some (.int n) ∧
      (∃ x, evaluate env .java "-n".toList = .ok (.value (.float x))) ∧
      (∃ x, evaluate env .java "Math.abs(n)".toList = .ok (.value (.float x))) ∧
      ∃ x, Value.binary false .div (.int n) (.int (-1)) = .ok (.float x)) ∧
    (∀ row, row <+: items.map IntegerLiteral.value → Number.Fits (row.map Int64.toInt).sum) ∧
      ∃ total, evaluate env .java "sum([9_223_372_036_854_775_807L, -1,+1, ])".toList =
        .ok (.value (.int total)) ∧
        total.toInt = 2 ^ 63 - 1 := by
  intro n env items
  have identifier : Text.isIdentifier ['n'] = true := by decide
  have prefixes :
      ∀ row, row <+: items.map IntegerLiteral.value → Number.Fits (row.map Int64.toInt).sum := by
    have key : ∀ k ≤ 3,
        Number.Fits (((items.map IntegerLiteral.value).take k).map Int64.toInt).sum := by decide
    intro row hr
    rw [List.prefix_iff_eq_take.1 hr]
    exact key row.length hr.length_le
  obtain ⟨-, -, quotient, signed, sum⟩ := integers_exact n (-1)
  obtain ⟨⟨v, negated, hv⟩, magnitude⟩ := signed env .java ['n'] identifier rfl
  obtain ⟨w, measured, hw⟩ := magnitude "Math.abs".toList (by simp)
  obtain ⟨u, divided, hu⟩ := (quotient (by decide)).2
  obtain ⟨x, rfl⟩ := hv.float rfl
  obtain ⟨y, rfl⟩ := hw.float rfl
  obtain ⟨z, rfl⟩ := hu.float ⟨rfl, rfl⟩
  refine ⟨⟨identifier, rfl, ⟨x, negated⟩, ⟨y, measured⟩, ⟨z, divided⟩⟩, prefixes, ?_⟩
  exact sum env .java items [" ".toList] (.inr ⟨by simp [items], _, by decide, rfl⟩) prefixes

/-- The literal of an integer out of range is a float, and so is a sum with it that would be in
range. -/
theorem float_of_sum_overwide :
    let ns : List Int := [-1, 2 ^ 63]
    let text := "sum([-1,9223372036854775808])".toList
    (⟨"sum".toList, Call.listing (ns.map Number.numeral)⟩ : Call).written = text ∧
      (∀ row, row <+: ns → Number.Fits row.sum) ∧
      ∀ env d, ∃ x, evaluate env d text = .ok (.value (.float x)) := by
  intro ns text
  refine ⟨by decide +kernel, fun row hr => ?_, fun env d => ?_⟩
  · have key : ∀ k ≤ 2, Number.Fits (ns.take k).sum := by decide
    rw [List.prefix_iff_eq_take.1 hr]
    exact key row.length hr.length_le
  · obtain ⟨y, wide⟩ :
      ∃ y, numberLiteral? (Text.trim "9223372036854775808".toList) = some (.float y) := ⟨_, rfl⟩
    let items := [("-1".toList, Value.int (-1)), ("9223372036854775808".toList, .float y)]
    have numbers :
        evaluateNumbers (evaluate env d) (items.map Prod.fst) = .ok (.ok (items.map Prod.snd)) := by
      apply evaluateNumbers_map
      rw [List.forall_mem_cons, List.forall_mem_singleton]
      exact ⟨⟨evaluate_of_numberLiteral? env d rfl, rfl⟩,
        ⟨evaluate_of_numberLiteral? env d wide, rfl⟩⟩
    have each : ∀ x ∈ ["-1".toList, "9223372036854775808".toList], Call.Argument x := by
      rw [List.forall_mem_cons, List.forall_mem_singleton]
      exact ⟨.of_plain (by decide) (by decide) (by decide),
        .of_plain (by decide) (by decide) (by decide)⟩
    have known : Call.aggregate? "sum".toList = some .sum := rfl
    exact ⟨_, Call.evaluate_aggregate env d known each (.inl rfl) numbers⟩

end SourcePreview
