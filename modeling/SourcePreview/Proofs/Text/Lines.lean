import Mathlib.Data.List.Basic
import Mathlib.Data.List.TakeWhile
import SourcePreview.Proofs.Text.Breaks
import SourcePreview.Proofs.Text.Search

/-! One line of a text among the others. What is read of a line is what stands between two line
feeds, up to the blanks at its ends, to which a carriage return belongs (`exists_lines`). -/

namespace SourcePreview.Text

variable {s b : Text}

theorem trim_append_blanks (hb : b.all isBlank = true) (s : Text) : trim (s ++ b) = trim s := by
  have back : ∀ s, trimEnd (s ++ b) = trimEnd s := by
    intro s
    rw [trimEnd, trimEnd, List.reverse_append,
      List.dropWhile_append_of_pos (List.all_eq_true.1 (by rwa [List.all_reverse]))]
  rw [trim, trim, trimStart, trimStart, List.dropWhile_append]
  split
  · next empty =>
    have blank : b.dropWhile isBlank = [] := List.dropWhile_eq_nil_iff.2 (List.all_eq_true.1 hb)
    rw [List.isEmpty_iff.1 empty, blank]
  · exact back _

theorem trim_trim (s : Text) : trim (trim s) = trim s := by
  obtain ⟨a, b, ha, hb, whole⟩ := exists_trim s
  have outer : trim s = trim (a ++ trim s ++ b) := congrArg trim whole
  rw [List.append_assoc, trim_blanks_append ha, trim_append_blanks hb] at outer
  exact outer.symm

theorem trim_trimEnd (s : Text) : trim (trimEnd s) = trim s := by
  obtain ⟨b, hb, whole⟩ := exists_trimEnd s
  have back := trim_append_blanks hb (trimEnd s)
  rwa [← whole, eq_comm] at back

theorem trim_dropReturn (line : Text) : trim (dropReturn line) = trim line := by
  unfold dropReturn dropLastIf
  split
  · next c hc =>
    split
    · next hr =>
      obtain rfl := eq_of_beq hr
      obtain ⟨line, rfl⟩ := List.getLast?_eq_some_iff.1 hc
      rw [List.dropLast_concat, Option.getD_some, trim_append_blanks (by decide)]
    · rfl
  · rfl

theorem Breaks.eq_nil_or_newline {full : List Text} (h : Breaks (s ++ b) full []) :
    b = [] ∨ ∃ a, b = a ++ ['\n'] := by
  rcases List.eq_nil_or_concat' b with rfl | ⟨a, c, rfl⟩
  · exact Or.inl rfl
  · right
    have ends := h.whole
    rcases List.eq_nil_or_concat' full with rfl | ⟨full, line, rfl⟩
    · simp at ends
    · rw [List.append_nil, List.map_append, List.flatten_append, ← List.append_assoc] at ends
      obtain rfl : c = '\n' := by simpa using congrArg List.getLast? ends
      exact ⟨a, rfl⟩

/-- A line of a text, up to blanks at its ends, among the others. -/
theorem exists_lines {before line after : Text} {full : List Text} (h : Breaks before full [])
    (single : '\n' ∉ line) (hn : line ≠ []) (hs : after = [] ∨ ∃ rest, after = '\n' :: rest) :
    ∃ line' later, lines (before ++ (line ++ after)) = full.map dropReturn ++ line' :: later ∧
      trim line' = trim line := by
  rcases hs with rfl | ⟨rest, rfl⟩
  · have hb := h.append (Breaks.of_not_mem single)
    refine ⟨line, [], ?_, rfl⟩
    rw [lines, List.append_nil, hb.cutLines_eq]
    simp [hn]
  · have hl := breaks_cutLines (line ++ '\n' :: rest)
    rw [cutLines_line single] at hl
    have joined :
      cutLines (before ++ (line ++ '\n' :: rest)) = (full ++ line :: (cutLines rest).1,
      (cutLines rest).2) :=
      (h.append hl).cutLines_eq
    refine ⟨dropReturn line,
      (cutLines rest).1.map dropReturn ++ if (cutLines rest).2.isEmpty then [] else
      [(cutLines rest).2], ?_, trim_dropReturn line⟩
    rw [lines, joined]
    simp

theorem exists_filled (h : ∃ c ∈ s, isBlank c = false) :
    ∃ a c b, s = a ++ c :: b ∧ a.all isBlank = true ∧ isBlank c = false := by
  cases hd : s.dropWhile isBlank with
  | nil =>
    obtain ⟨c, hc, hf⟩ := h
    rw [List.dropWhile_eq_nil_iff.1 hd c hc] at hf
    cases hf
  | cons c b =>
    refine ⟨s.takeWhile isBlank, c, b, ?_, List.all_takeWhile, ?_⟩
    · rw [← hd, List.takeWhile_append_dropWhile]
    · have := List.head?_dropWhile_not isBlank s
      rw [hd] at this
      simpa using this

end SourcePreview.Text
