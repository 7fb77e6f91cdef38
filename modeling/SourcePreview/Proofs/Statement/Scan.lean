import SourcePreview.Proofs.Text.Lines
import SourcePreview.Statement.Line

/-! The scan of the statements of a text, one line after the other. A line is what the step at it
makes of it, and the step is at the delimiter that the lines before it leave awaited
(`getElem?_scan`). -/

namespace SourcePreview

open Text (Breaks)

namespace Line

theorem getElem?_numberFrom (number : Nat) (statements : List Statement) (i : Nat) :
    (numberFrom number statements)[i]? = statements[i]?.map fun s => ⟨number + i, s⟩ := by
  induction statements generalizing number i with
  | nil => rfl
  | cons s ss ih =>
    cases i with
    | zero => rfl
    | succ i =>
      rw [numberFrom, List.getElem?_cons_succ, List.getElem?_cons_succ, ih, Nat.add_right_comm,
        Nat.add_assoc]

end Line

namespace Dialect

/-- The delimiter that must close the comment open behind some lines, when `closing` must close the
one open before them. -/
def awaited (d : Dialect) (closing : Option Text) (lines : List Text) : Option Text :=
  lines.foldl (fun closing line => (d.step closing (Text.trim line)).2) closing

theorem awaited_concat (d : Dialect) (closing : Option Text) (lines : List Text) (line : Text) :
    d.awaited closing (lines ++ [line]) = (d.step (d.awaited closing lines) (Text.trim line)).2 :=
  List.foldl_append

theorem awaited_dropReturn (d : Dialect) (closing : Option Text) (lines : List Text) :
    d.awaited closing (lines.map Text.dropReturn) = d.awaited closing lines := by
  simp only [awaited, List.foldl_map, Text.trim_dropReturn]

theorem statements_cons (d : Dialect) (closing : Option Text) (line : Text) (lines : List Text) :
    d.statements closing (line :: lines) =
      (d.step closing (Text.trim line)).1 :: d.statements (d.step closing (Text.trim line)).2
      lines := rfl

theorem statements_append (d : Dialect) (closing : Option Text) (xs ys : List Text) :
    d.statements closing (xs ++ ys) = d.statements closing xs ++
      d.statements (d.awaited closing xs) ys := by
  induction xs generalizing closing with
  | nil => rfl
  | cons x xs ih =>
    rw [List.cons_append, statements_cons, statements_cons, ih]
    rfl

theorem length_statements (d : Dialect) (closing : Option Text) (lines : List Text) :
    (d.statements closing lines).length = lines.length := by
  induction lines generalizing closing with
  | nil => rfl
  | cons line lines ih => rw [statements_cons, List.length_cons, List.length_cons, ih]

/-- A line is what the step that comes to it makes of it. -/
theorem getElem?_scan {before line after : Text} {full : List Text} (d : Dialect)
    (h : Breaks before full []) (single : '\n' ∉ line) (hn : line ≠ [])
    (hs : after = [] ∨ ∃ rest, after = '\n' :: rest) :
    (Line.scan d (before ++ (line ++ after)))[full.length]? =
      some ⟨full.length + 1, (d.step (d.awaited none full) (Text.trim line)).1⟩ := by
  obtain ⟨line', later, hl, ht⟩ := Text.exists_lines h single hn hs
  have place : (d.statements none (full.map Text.dropReturn)).length = full.length := by
    rw [length_statements, List.length_map]
  rw [Line.scan, Line.getElem?_numberFrom, hl, statements_append, awaited_dropReturn,
    statements_cons, ht, List.getElem?_append_right (Nat.le_of_eq place), place, Nat.sub_self,
    Nat.add_comm]
  rfl

end Dialect

end SourcePreview
