import SourcePreview.Proofs.Expression.Meaning

/-! An operation with a name to the left of it and a closed text in parentheses to the right. The
operator between blanks is where the text is cut, whatever stands in the parentheses, so the
operation comes to what its operands alone come to (`evaluate_operation`). -/

namespace SourcePreview

/-- What an operation on what its operands come to comes to: the first of them without a value, or
what their values give. -/
def Evaluation.operation (d : Dialect) (op : Operator) (left right : Except Overwide Evaluation) :
    Except Overwide Evaluation := do
  match ← left with
  | .value a =>
    match ← right with
    | .value b => .ok (.ofArithmetic (Value.binary d.trueDivision op a b))
    | e => .ok e
  | e => .ok e

def operationText (name : Text) (op : Operator) (e : Text) : Text :=
  name ++ [' ', op.symbol, ' ', '('] ++ e ++ [')']

section

variable {name e : Text} (atom : Atom name) (op : Operator)

theorem operationText_eq (name : Text) (op : Operator) (e : Text) :
    operationText name op e = name ++ ' ' :: op.symbol :: ' ' :: '(' :: (e ++ [')']) := by
  simp [operationText]

include atom

theorem operand_operationText (e : Text) : Operand (operationText name op e) := by
  have := atom.operand.append [' ', op.symbol, ' '] (.parens e)
  rw [operationText_eq]
  simpa using this

/-- No quotation begins before the first blank, and no prefix of one goes past it. -/
theorem quoted?_operationText (e : Text) : Quoted.ofText? (operationText name op e) = none := by
  rw [operationText_eq]
  apply Quoted.ofText?_eq_none
  · intro c hc
    rcases List.mem_append.1 hc with hc | hc
    · exact Nesting.isQuote_of_isPlain (isPlain_of_not_mem_marks (not_mem_marks (atom.parts c hc)))
    · rw [List.mem_singleton.1 hc]
      rfl
  · decide

theorem bare_operationText (e : Text) : Bare (operationText name op e) := by
  refine ⟨(operand_operationText atom op e).tight.ne_nil, Nesting.enclosed?_of_head?_ne ?_,
    quoted?_operationText atom op e⟩
  obtain ⟨c, r, rfl⟩ := List.exists_cons_of_ne_nil atom.ne_nil
  exact atom.head?_ne (by decide)

theorem cut?_operationText (closed : Nesting.Closed e) :
    Cut.ofText? (operationText name op e) = some ⟨name ++ [' '], op,
      ' ' :: '(' :: (e ++ [')'])⟩ := by
  have last := Cut.scan_hidden (.group closed) (' ' :: op.symbol :: ' ' :: name.reverse)
    (Cut.Candidates.put ⟨none, none⟩ ⟨' ' :: name.reverse, op, ' ' :: '(' :: (e ++ [')'])⟩) []
  have symbol := Term.scan_symbol op atom.operand [] ('(' :: (e ++ [')'])) ⟨none, none⟩
  rw [List.append_nil] at last symbol
  rw [Cut.ofText?, operationText_eq, Cut.scan_hidden atom.hidden, List.append_nil, symbol, last,
    Cut.scan, Option.bind_some, Cut.Candidates.put]
  cases op <;> simp [Operator.isAdditive]

theorem form_operationText (closed : Nesting.Closed e) :
    Form.ofText (operationText name op e) = .binary ⟨name ++ [' '], op,
      ' ' :: '(' :: (e ++ [')'])⟩ := by
  have blank : ' ' ∈ operationText name op e := by simp [operationText]
  have unnamed : Text.isIdentifier (operationText name op e) = false := by
    cases hi : Text.isIdentifier (operationText name op e) with
    | false => rfl
    | true => exact absurd blank ((atom_of_isIdentifier hi).not_mem (by decide))
  rw [ofText_of_operand (operand_operationText atom op e)]
  exact (bare_operationText atom op e).form_of_cut (numberLiteral?_of_mem (by decide) blank) unnamed
    (cut?_operationText atom op closed)

/-- The operands are read as if each stood alone. -/
theorem evaluate_operation (env : Environment) (d : Dialect) (closed : Nesting.Closed e) :
    evaluate env d (operationText name op e) =
      Evaluation.operation d op (evaluate env d name) (evaluate env d e) := by
  have left := evaluate_blanks env d (a := []) (b := [' ']) atom.operand rfl rfl
  have right := evaluate_blanks env d (a := [' ']) (b := []) (.parens e) rfl rfl
  rw [List.nil_append] at left
  rw [List.append_nil, List.singleton_append, evaluate_parens env d closed] at right
  rw [evaluate_eq, form_operationText atom op closed, Form.evaluate, left, right]
  rfl

end

end SourcePreview
