import SourcePreview.Text.Basic

/-! The lines of a text. A line ends at a line feed, which a carriage return may precede; a text
that does not end in a line feed has one more, unterminated line. -/

namespace SourcePreview.Text

/-- A line's text without the carriage return that stood before its line feed. -/
def dropReturn (line : Text) : Text := (dropLastIf (· == '\r') line).getD line

/-- The pieces between line feeds, and the rest after the last one. -/
def cutLines : Text → List Text × Text
  | [] => ([], [])
  | c :: r =>
    match cutLines r with
    | (full, rest) =>
      if c == '\n' then ([] :: full, rest)
      else match full with
        | [] => ([], c :: rest)
        | l :: ls => ((c :: l) :: ls, rest)

def lines (s : Text) : List Text :=
  let (full, rest) := cutLines s
  full.map dropReturn ++ (if rest.isEmpty then [] else [rest])

theorem join_cutLines (s : Text) :
    ((cutLines s).1.map (· ++ ['\n'])).flatten ++ (cutLines s).2 = s := by
  induction s with
  | nil => rfl
  | cons c r ih =>
    rw [cutLines]
    rcases hr : cutLines r with ⟨full, rest⟩
    rw [hr] at ih
    by_cases hc : c = '\n'
    · subst hc; simpa using ih
    · cases full with
      | nil => simpa [hc] using ih
      | cons l ls => simpa [hc] using ih

example : lines "a\r\nb\n\nc\r".toList = ["a".toList, "b".toList, [], "c\r".toList] := by decide

end SourcePreview.Text
