import SourcePreview.Proofs.Expression.Delimiter
import SourcePreview.Proofs.Expression.Template

/-! Texts written as literals. In a literal that is not raw a backslash stands before each backslash
and each quote; in one with placeholders each brace is doubled on top of that. Whatever its letters
and its delimiter are, such a literal comes to its text (`evaluate_written`). -/

namespace SourcePreview

namespace Segment

theorem ofTemplate_doubled (s : Text) : ofTemplate (s.flatMap (Piece.spell true)) = [.plain s] := by
  induction s with
  | nil => rw [List.flatMap_nil, ofTemplate]
  | cons c s ih => rw [List.flatMap_cons, ofTemplate_spell (.inl rfl), ih, cons]

end Segment

namespace Quoted

open Nesting (isQuote)

def encode (interpolated raw : Bool) (s : Text) : Text :=
  let row := if raw then s else escape true s
  if interpolated then row.flatMap (Piece.spell true) else row

variable {q : Char} {s : Text}

theorem escape_eq_self (plain : ∀ c ∈ s, isEscaped true c = false) : escape true s = s := by
  induction s with
  | nil => rfl
  | cons c s ih =>
    rw [List.forall_mem_cons] at plain
    have step : escape true (c :: s) = c :: escape true s := by simp [escape, plain.1]
    rw [step, ih plain.2]

theorem isQuote_of_not_isEscaped {c : Char} (h : isEscaped true c = false) :
    c ≠ '\\' ∧ isQuote c = false := by
  simp only [isEscaped, Bool.true_and, Bool.or_eq_false_iff, beq_eq_false_iff_ne] at h
  simp [isQuote, h]

theorem closes_escape (quote : isQuote q = true) (s : Text) : closes q (escape true s) = true := by
  induction s with
  | nil => rfl
  | cons c s ih =>
    cases escaped : isEscaped true c with
    | true =>
      have step : escape true (c :: s) = '\\' :: c :: escape true s := by simp [escape, escaped]
      rw [step, closes, ih]
    | false =>
      have step : escape true (c :: s) = c :: escape true s := by simp [escape, escaped]
      obtain ⟨backslash, other⟩ := isQuote_of_not_isEscaped escaped
      have distinct : c ≠ q := by
        rintro rfl
        rw [quote] at other
        cases other
      rw [step, closes_cons backslash, ih, Bool.and_true]
      exact bne_iff_ne.2 distinct

theorem closes_spell (quote : isQuote q = true) (c : Char) :
    ∃ twice, Piece.spell true c = c :: twice ∧ ∀ r, closes q (twice ++ r) = closes q r := by
  cases brace : c == '{' || c == '}' with
  | false => exact ⟨[], by simp [Piece.spell, brace], fun r => rfl⟩
  | true =>
    refine ⟨[c], by simp [Piece.spell, brace], fun r => ?_⟩
    simp only [Bool.or_eq_true, beq_iff_eq] at brace
    have distinct : (c != q) = true := by
      rw [bne_iff_ne]
      rintro rfl
      rcases brace with rfl | rfl <;> cases quote
    have backslash : c ≠ '\\' := by
      rintro rfl
      revert brace
      decide
    rw [List.singleton_append, closes_cons backslash, distinct, Bool.true_and]

theorem closes_doubled (quote : isQuote q = true) (s : Text) :
    closes q (s.flatMap (Piece.spell true)) = closes q s := by
  induction s using Text.induction_on_pairs with
  | nil => rfl
  | last => rfl
  | pair c s ih =>
    obtain ⟨twice, spelled, behind⟩ := closes_spell quote c
    have whole : ('\\' :: c :: s).flatMap (Piece.spell true) =
        '\\' :: c :: (twice ++ s.flatMap (Piece.spell true)) := by
      rw [List.flatMap_cons, List.flatMap_cons, spelled]
      rfl
    rw [whole, closes, closes, behind, ih]
  | cons c s backslash ih =>
    obtain ⟨twice, spelled, behind⟩ := closes_spell quote c
    rw [List.flatMap_cons, spelled, List.cons_append, closes_cons backslash, closes_cons backslash,
      behind, ih]

theorem closes_encode (quote : isQuote q = true) {raw : Bool}
    (plain : raw = true → ∀ c ∈ s, isEscaped true c = false) (interpolated : Bool) :
    closes q (encode interpolated raw s) = true := by
  have row : (if raw then s else escape true s) = escape true s := by
    cases raw with
    | false => rfl
    | true => exact (escape_eq_self (plain rfl)).symm
  unfold encode
  rw [row]
  cases interpolated with
  | false => exact closes_escape quote s
  | true => exact (closes_doubled quote _).trans (closes_escape quote s)

section

variable {letters : Text} (allowed : letters.all isPrefixLetter = true) (quote : isQuote q = true)
  (triple : Bool) (body : Text)
include allowed quote

theorem exists_written_eq_cons :
    ∃ c r, written letters triple q body = c :: r ∧ Text.isBlank c = false ∧ c ≠ '(' := by
  have visible :
      (['"', '\''] ++ "fFrRbBuU".toList).all (fun c => !Text.isBlank c && c != '(') = true := by
    decide
  cases letters with
  | nil =>
    obtain ⟨m, opens, -⟩ := mark_eq triple q
    have mem : q ∈ ['"', '\''] := by simpa [isQuote] using quote
    have first := List.all_eq_true.1 visible q (List.mem_append_left _ mem)
    exact ⟨q, m ++ body ++ mark triple q, by simp [written, opens], by simpa using first⟩
  | cons c letters =>
    rw [List.all_cons, Bool.and_eq_true] at allowed
    have first :=
      List.all_eq_true.1 visible c (List.mem_append_right _ (List.contains_iff_mem.1 allowed.1))
    exact ⟨c, _, rfl, by simpa using first⟩

theorem operand_written : Operand (written letters triple q body) := by
  obtain ⟨c, r, whole, filled, -⟩ := exists_written_eq_cons allowed quote triple body
  obtain ⟨m, -, ends⟩ := mark_eq triple q
  refine ⟨⟨c, r, whole, filled⟩, letters ++ (mark triple q ++ body ++ m), q, ?_, ?_⟩
  · simp only [written, ends, List.append_assoc]
  · simp only [isQuote, Bool.or_eq_true, beq_iff_eq] at quote
    rcases quote with rfl | rfl <;> decide

theorem enclosed?_written : Nesting.enclosed? (written letters triple q body) = none := by
  obtain ⟨c, r, whole, -, other⟩ := exists_written_eq_cons allowed quote triple body
  apply Nesting.enclosed?_of_head?_ne
  rw [whole]
  exact fun h => other (Option.some.inj h)

end

end Quoted

/-- The body of a literal is read back, with placeholders and without, raw and not. -/
theorem evaluate_quoted_encode (e : Evaluator) (env : Environment)
    (trueDivision interpolated raw : Bool) (s : Text) :
    Form.evaluate e env trueDivision (.quoted ⟨Quoted.encode interpolated raw s, interpolated,
        raw⟩) =
      .ok (.value (.str s)) := by
  have row : (if raw then (if raw then s else escape true s) else unescape
      (if raw then s else escape true s)) = s := by
    cases raw with
    | true => rfl
    | false => exact unescape_escape s
  cases interpolated with
  | false => exact congrArg (fun t => Except.ok (Evaluation.value (.str t))) row
  | true =>
    have whole : resolveSegments e raw (Segment.ofTemplate (Quoted.encode true raw s)) = .ok s := by
      simp only [Quoted.encode, if_true, Segment.ofTemplate_doubled, resolveSegments, row]
      exact congrArg Except.ok (List.append_nil s)
    simp only [Form.evaluate, if_true, whole]
    rfl

/-- A text that is written as a literal is what the literal comes to, whatever the letters and the
delimiter are. In a raw literal nothing stands for a backslash or a quote, so there the text has
none. -/
theorem evaluate_written (env : Environment) (d : Dialect) {letters : Text}
    (short : letters.length ≤ 2) (allowed : letters.all Quoted.isPrefixLetter = true) {q : Char}
    (quote : Nesting.isQuote q = true) (triple : Bool) {s : Text}
    (plain : letters.any (·.toLower == 'r') = true → ∀ c ∈ s, isEscaped true c = false) :
    evaluate env d (Quoted.written letters triple q
        (Quoted.encode (letters.any (·.toLower == 'f')) (letters.any (·.toLower == 'r')) s)) =
      .ok (.value (.str s)) := by
  have ends := Quoted.closes_encode quote plain (letters.any (·.toLower == 'f'))
  obtain ⟨paired, first⟩ := (Quoted.closes_iff (Quoted.isQuote_ne_backslash quote) _).1 ends
  have read := Quoted.ofText?_written short allowed quote triple paired fun _ => first
  have operand := Quoted.operand_written allowed quote triple
    (Quoted.encode (letters.any (·.toLower == 'f')) (letters.any (·.toLower == 'r')) s)
  have form :=
    ofTrimmed_of_quoted? operand.tight.ne_nil (Quoted.enclosed?_written allowed quote triple _) read
  rw [evaluate_eq, ofText_of_operand operand, form, evaluate_quoted_encode]

/-- Two literals: one between three quotes in which quotes, backslashes and braces are text, and a
raw one. -/
theorem evaluate_written_of_two :
    let s := "\x7bit's\x7d \"\\".toList
    let literal := Quoted.written "Bf".toList true '\'' (Quoted.encode true false s)
    let plain := Quoted.written "R".toList false '"' (Quoted.encode false true "n \x7b".toList)
    literal = "Bf'''\x7b\x7bit\\'s\x7d\x7d \\\"\\\\'''".toList ∧ plain = "R\"n \x7b\"".toList ∧
      evaluate ⟨[]⟩ .python literal = .ok (.value (.str s)) ∧
      evaluate ⟨[]⟩ .java plain = .ok (.value (.str "n \x7b".toList)) := by
  intro s literal plain
  have cooked : ("Bf".toList.any (·.toLower == 'r')) = false := by decide
  have unescaped : "n \x7b".toList.all (fun c => !isEscaped true c) = true := by decide
  refine ⟨by decide, by decide, ?_, ?_⟩
  · refine evaluate_written ⟨[]⟩ .python (by decide) (by decide) (by decide) true fun raw => ?_
    rw [cooked] at raw
    cases raw
  · refine evaluate_written ⟨[]⟩ .java (by decide) (by decide) (by decide) false fun _ c hc => ?_
    simpa using List.all_eq_true.1 unescaped c hc

end SourcePreview
