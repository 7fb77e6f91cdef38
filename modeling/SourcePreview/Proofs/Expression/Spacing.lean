import SourcePreview.Proofs.Expression.Operation

/-! Blanks around operators. A term comes to the same whether it is printed with blanks around its
binary operators or without (`evaluate_unspaced`): its operators are found at the same places, and
its operands are read without the blanks at their ends. Only a sign behind a name that ends in a
digit and an exponent marker is taken for that of an exponent when no blank stands between them. -/

namespace SourcePreview

variable (env : Environment) (d : Dialect)

namespace Term

variable (w : Spelling) (t : Term) (needed : Bool)

theorem evaluate_left :
    evaluate env d (grouped needed (t.print w) ++ w.gap) = evaluate env d (t.print w) := by
  have trimmed :=
    evaluate_blanks env d (a := []) ((t.operand_print w).grouped needed) rfl (all_isBlank_gap w)
  rw [List.nil_append] at trimmed
  rw [trimmed, evaluate_grouped env d (t.balanced_print w)]

theorem evaluate_right :
    evaluate env d (w.gap ++ grouped needed (t.print w)) = evaluate env d (t.print w) := by
  have trimmed :=
    evaluate_blanks env d (b := []) ((t.operand_print w).grouped needed) (all_isBlank_gap w) rfl
  rw [List.append_nil] at trimmed
  rw [trimmed, evaluate_grouped env d (t.balanced_print w)]

theorem evaluate_print_binary {w : Spelling} {op : Operator} {l r : Term}
    (legible : (binary op l r).Legible w) :
    evaluate env d ((binary op l r).print w) =
      Evaluation.operation d op (evaluate env d (l.print w)) (evaluate env d (r.print w)) := by
  rw [evaluate_eq, form_print_binary legible, Form.evaluate, evaluate_left, evaluate_right]
  rfl

theorem evaluate_print_negative {w : Spelling} {t : Term} (legible : (negative t).Legible w)
    (h : ∀ s digits, t ≠ literal s digits) :
    evaluate env d ((negative t).print w) =
      (Form.negation (t.print w)).evaluate (evaluate env d) env d.trueDivision := by
  rw [evaluate_eq, form_print_negative legible h, Form.evaluate, Form.evaluate,
    evaluate_grouped env d (t.balanced_print w)]

end Term

/-- Without blanks around its binary operators the text of a printed term comes to what it comes to
with one blank on each side, as long as no sum and no difference has right before its sign a name
that ends in a digit and an exponent marker. -/
theorem evaluate_unspaced (singles : Bool) {t : Term} (legible : t.isLegible = true) :
    evaluate env d (t.print ⟨false, singles⟩) = evaluate env d (t.print ⟨true, singles⟩) := by
  have unspaced : ∀ {t : Term}, t.isLegible = true → t.Legible ⟨false, singles⟩ := fun h => Or.inr h
  have spaced : ∀ t : Term, t.Legible ⟨true, singles⟩ := fun _ => Or.inl rfl
  induction t with
  | literal s digits => rfl
  | name s identifier => rfl
  | quoted s => rfl
  | negative t ih =>
    by_cases hn : ∃ s digits, t = .literal s digits
    · obtain ⟨s, digits, rfl⟩ := hn
      rfl
    · have hn : ∀ s digits, t ≠ .literal s digits := fun s digits h => hn ⟨s, digits, h⟩
      rw [Term.evaluate_print_negative env d (unspaced legible) hn,
        Term.evaluate_print_negative env d (spaced _) hn, Form.evaluate, Form.evaluate, ih legible]
  | binary op l r ihl ihr =>
    have both : l.isLegible = true ∧ r.isLegible = true := by
      simp only [Term.isLegible, Bool.and_eq_true] at legible
      exact legible.1
    rw [Term.evaluate_print_binary env d (unspaced legible),
      Term.evaluate_print_binary env d (spaced _), ihl both.1, ihr both.2]

/-- Signs in rows, a literal out of range, and such a name before the sign of a product. -/
theorem evaluate_unspaced_of_signs :
    let env : Environment := ⟨[("a".toList, .int 1), ("x1e".toList, .int 7)]⟩
    let wide : Term :=
      .binary .mul (.name "x1e".toList (by decide))
        (.literal "99999999999999999999".toList (by decide))
    let t : Term := .binary .sub (.name "a".toList (by decide)) (.binary .div
      (.negative (.binary .sub wide (.negative (.negative (.literal "3".toList (by decide))))))
      (.binary .add (.name "b2".toList (by decide)) (.literal "2".toList (by decide))))
    t.isLegible = true ∧
      t.print ⟨false, false⟩ = "a--(x1e*99999999999999999999---3)/(b2+2)".toList ∧
      t.print ⟨true, false⟩ = "a - -(x1e * 99999999999999999999 - --3) / (b2 + 2)".toList ∧
      evaluate env .java (t.print ⟨false, false⟩) = evaluate env .java (t.print ⟨true, false⟩) := by
  intro env wide t
  have legible : t.isLegible = true := by decide
  exact ⟨legible, by decide +kernel, by decide +kernel, evaluate_unspaced env .java false legible⟩

/-- A difference whose left operand is such a name is not found without blanks. -/
theorem evaluate_unspaced_of_marker :
    let env : Environment := ⟨[("x1e".toList, .int 7)]⟩
    let t : Term := .binary .sub (.name "x1e".toList (by decide)) (.literal "5".toList (by decide))
    t.print ⟨false, false⟩ = "x1e-5".toList ∧ t.print ⟨true, false⟩ = "x1e - 5".toList ∧
      evaluate env .python (t.print ⟨false, false⟩) = .ok .unresolved ∧
      evaluate env .python (t.print ⟨true, false⟩) = .ok (.value (.int 2)) := by
  intro env t
  have text : t.print ⟨false, false⟩ = "x1e-5".toList := by decide +kernel
  have same : t.print ⟨true, false⟩ =
      (Tree.binary .sub (.name "x1e".toList (by decide)) (.number 5 (by decide))).print ⟨true,
          false⟩ := by decide +kernel
  refine ⟨text, by decide +kernel, ?_, ?_⟩
  · rw [text, evaluate_eq]
    rfl
  · rw [same, evaluate_print]
    rfl

end SourcePreview
