import SourcePreview.Proofs.Statement.Update

/-! The names that a Python line assigns to. A structural word is looked at before an assignment is,
and what is looked for behind it is an equals sign alone (`startsAssignment_sign`). So an assignment
may have every name for its target, and an update every name that is no structural word; with one
that is, it is a header (`Line.scan_assignable`). -/

namespace SourcePreview

open AssignmentParts (joined sign written)

def Statement.keyword? : Statement → Option Text
  | .header keyword => some keyword
  | .headed keyword _ => some keyword
  | _ => none

theorem NamedLine.scan_eq {line : Text} (h : NamedLine line) (d : Dialect) :
    Line.scan d line = [⟨1, d.statement line⟩] := by
  have trimmed := h.tight.trim_eq
  rw [Line.scan_line d h.single (by rw [trimmed]; exact h.codeLine), trimmed]

namespace Python

variable {line word rest target right : Text}

/-- Behind a name the sign of an update is not taken for the beginning of an assignment. -/
theorem startsAssignment_sign (op : Operator) (right : Text) :
    startsAssignment (' ' :: (sign (some op) ++ right)) = false := by
  cases op <;> rfl

theorem keyword?_of_header (h : shape line = header word rest) :
    (statement line).keyword? = some word := by
  have shapes : header word rest = .complete (.header word) ∨
      ∃ body, header word rest = .header word body := by
    unfold header
    split
    · dsimp only
      split
      · exact Or.inl rfl
      · exact Or.inr ⟨_, rfl⟩
    · exact Or.inl rfl
  rw [statement_eq, h]
  rcases shapes with bare | ⟨body, inline⟩
  · rw [bare]
    rfl
  · rw [inline]
    rfl

theorem keyword?_joined (identifier : Text.isIdentifier target = true)
    (structural : Dialect.python.isStructural target = true) (op : Operator)
    (h : Dialect.python.RightSide right) :
    (statement (joined target (some op) right)).keyword? = some target := by
  have clear : Dialect.python.Clear (joined target (some op) right) :=
    AssignmentParts.clear_joined (fun c hc => Or.inl ((atom_of_isIdentifier identifier).parts c hc))
      (some op) h.clear
  apply keyword?_of_header
  rw [shape_of_named clear (line_joined identifier (some op) h)
    (leadingWord_joined identifier (some op) right), structural, startsAssignment_sign]
  rfl

end Python

/-- An assignment may have every name for its target; an update of the same name by the same
expression is one if the name is no structural word, and is a header if it is. -/
theorem Line.scan_assignable {x e : Text} (identifier : Text.isIdentifier x = true)
    (formed : Dialect.python.WellFormed e) (op : Operator) :
    (¬ Python.InputForm e → Line.scan .python (written x none e) = [⟨1, .action (.assign x e)⟩]) ∧
      ∃ statement, Line.scan .python (written x (some op) e) = [⟨1, statement⟩] ∧
        (statement = .action (.assign x (operationText x op e)) ↔
          Dialect.python.isStructural x = false) ∧
        (statement.keyword? = some x ↔ Dialect.python.isStructural x = true) := by
  have line : ∀ op, NamedLine (written x op e) :=
    fun op => Python.line_joined identifier op formed.rightSide
  constructor
  · intro calculated
    have assigned : Dialect.python.statement (written x none e) = .action (.assign x e) :=
      (Python.Printed.assign x e identifier formed calculated).statement_write
    rw [(line none).scan_eq, assigned]
  · refine ⟨_, (line (some op)).scan_eq .python, ?_⟩
    cases structural : Dialect.python.isStructural x with
    | false =>
      have assigned :
        Dialect.python.statement (written x (some op) e) =
          .action (.assign x (operationText x op e)) :=
        (Python.Printed.update x op e identifier structural formed).statement_write
      rw [assigned]
      exact ⟨by simp, by simp [Statement.keyword?]⟩
    | true =>
      have headed : (Dialect.python.statement (written x (some op) e)).keyword? = some x :=
        Python.keyword?_joined identifier structural op formed.rightSide
      refine ⟨⟨fun assigned => ?_, nofun⟩, ⟨fun _ => rfl, fun _ => headed⟩⟩
      rw [assigned] at headed
      cases headed

/-- The names at both sides of it: one that is a structural word, and one that only begins with
it. -/
theorem Line.scan_assignable_of_match :
    let e : Text := "f(a, \"=:\") % 3".toList
    Dialect.python.WellFormed e ∧ Text.isIdentifier "match".toList = true ∧
      Text.isIdentifier "matched".toList = true ∧
      (¬ Python.InputForm e →
        Line.scan .python ("match = ".toList ++ e) = [⟨1, .action (.assign "match".toList e)⟩]) ∧
      (∃ statement, Line.scan .python ("match *= ".toList ++ e) = [⟨1, statement⟩] ∧
        statement.keyword? = some "match".toList) ∧
      ∃ statement, Line.scan .python ("matched *= ".toList ++ e) = [⟨1, statement⟩] ∧
        statement = .action (.assign "matched".toList (operationText "matched".toList .mul e)) := by
  intro e
  have formed : Dialect.python.WellFormed e := by decide
  have soft : Text.isIdentifier "match".toList = true := by decide
  have plain : Text.isIdentifier "matched".toList = true := by decide
  obtain ⟨assigned, header, read, -, headed⟩ := Line.scan_assignable soft formed .mul
  obtain ⟨-, update, read', updated, -⟩ := Line.scan_assignable plain formed .mul
  exact ⟨formed, soft, plain, assigned, ⟨header, read, headed.2 (by decide)⟩,
    ⟨update, read', updated.2 (by decide)⟩⟩

/-- A variable that an assignment gives a value is not updated. -/
theorem Line.scan_update_of_match :
    Line.scan .python "match = 3\nmatch += 1".toList =
      [⟨1, .action (.assign "match".toList "3".toList)⟩, ⟨2, .header "match".toList⟩] := by
  decide +kernel

end SourcePreview
