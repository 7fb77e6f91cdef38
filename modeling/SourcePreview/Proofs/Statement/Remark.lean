import SourcePreview.Proofs.Statement.Trailing
import SourcePreview.Proofs.Text.Lines
import SourcePreview.Statement.Line

/-! Comments behind the code of a line. A line is known by its code without the blanks around it,
and by whether it is blank (`statement_congr`); a comment added behind a line whose quotes are
closed, whatever is in it, adds a blank to the code at most. -/

namespace SourcePreview

variable {line line' : Text}

theorem Python.shape_congr
    (code : Text.trim (Dialect.python.code line) = Text.trim (Dialect.python.code line'))
    (blank : Text.isBlankText line = Text.isBlankText line') :
    Python.shape line = Python.shape line' := by
  simp only [Python.shape, Statement.withoutCode, code, blank]

theorem Java.shape_congr
    (code : Text.trim (Dialect.java.code line) = Text.trim (Dialect.java.code line'))
    (blank : Text.isBlankText line = Text.isBlankText line') :
    Java.shape line = Java.shape line' := by
  simp only [Java.shape, Statement.withoutCode, code, blank]

namespace Dialect

variable {d : Dialect} {n : Nesting}

theorem statement_congr (code : Text.trim (d.code line) = Text.trim (d.code line'))
    (blank : Text.isBlankText line = Text.isBlankText line') :
    d.statement line = d.statement line' := by
  cases d with
  | python =>
    rw [statement, Python.statement_eq, Python.statement_eq, Python.shape_congr code blank]
  | java => rw [statement, Java.statement_eq, Java.statement_eq, Java.shape_congr code blank]

theorem startsComment_blank (d : Dialect) (r : Text) : d.startsComment ' ' r = false := by
  cases d <;> rfl

theorem startsComment_append (d : Dialect) (c : Char) (s r : Text) :
    d.startsComment c (s ++ ' ' :: r) = d.startsComment c s := by
  cases d with
  | python => rfl
  | java =>
    cases s with
    | nil => simp [startsComment]
    | cons e s => rfl

theorem cutComment_marked (d : Dialect) (closed : n.quote = none) (c : Text) :
    d.cutComment n (d.lineMarker ++ c) = ([], some (d.lineMarker ++ c)) := by
  obtain ⟨m, marker, hm⟩ : ∃ m marker, d.lineMarker = m :: marker := by
    cases d <;> exact ⟨_, _, rfl⟩
  have starts : d.startsComment m (marker ++ c) = true :=
    Token.startsComment_iff.2 (by rw [hm]; exact List.prefix_append _ _)
  rw [hm, List.cons_append, cutComment, closed, starts]
  rfl

theorem fst_cutComment_append (d : Dialect) (closed : (n.after line).quote = none) (c : Text) :
    (d.cutComment n (line ++ ' ' :: (d.lineMarker ++ c))).1 = (d.cutComment n line).1 ∨
      (d.cutComment n (line ++ ' ' :: (d.lineMarker ++ c))).1 = (d.cutComment n line).1 ++
        [' '] := by
  induction line generalizing n with
  | nil =>
    have closed' : (n.step ' ').quote = none := (Nesting.step_unquoted closed (by decide)).1
    have cut : d.cutComment n (' ' :: (d.lineMarker ++ c)) = ([' '], some (d.lineMarker ++ c)) := by
      rw [cutComment, startsComment_blank, Bool.and_false, if_neg Bool.false_ne_true,
        d.cutComment_marked closed']
    rw [List.nil_append, cut]
    exact Or.inr rfl
  | cons a line ih =>
    rw [List.cons_append, cutComment, cutComment, startsComment_append]
    split
    · exact Or.inl rfl
    · exact (ih closed).imp (congrArg (a :: ·)) (congrArg (a :: ·))

/-- A comment behind a line whose quotes are closed does not change its statement. -/
theorem statement_append_comment (d : Dialect) (filled : Text.isBlankText line = false)
    (closed : (Nesting.start.after line).quote = none) (c : Text) :
    d.statement (line ++ ' ' :: (d.lineMarker ++ c)) = d.statement line := by
  refine statement_congr ?_ ?_
  · rcases d.fst_cutComment_append closed c with h | h
    · rw [code, h, code]
    · rw [code, h, Text.trim_append_blanks (by decide), code]
  · rw [filled, Text.isBlankText, List.all_append, ← Text.isBlankText, filled, Bool.false_and]

/-- An open bracket, a header with a body, quotes and a comment that is there already. -/
theorem statement_append_comment_of_header :
    let line : Text := "\x7d if (\"\\\"//\".isEmpty( \x7b x = 1; // [".toList
    let c : Text := " it's = \"done\"; ) \x7d".toList
    Text.isBlankText line = false ∧ (Nesting.start.after line).quote = none ∧
      Dialect.java.statement (line ++ ' ' :: (Dialect.java.lineMarker ++ c)) =
        Dialect.java.statement line := by
  intro line c
  have filled : Text.isBlankText line = false := by decide
  have closed : (Nesting.start.after line).quote = none := by decide
  exact ⟨filled, closed, statement_append_comment .java filled closed c⟩

end Dialect

end SourcePreview
