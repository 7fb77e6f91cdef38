import Mathlib.Data.List.Basic
import SourcePreview.Text.Lines

/-! The lines a text breaks into: those that a line feed ends, and the rest behind them. A text
breaks in one way only, which is how it is cut, and a text in two parts breaks like the first part
and then like its rest with the second part behind it. -/

namespace SourcePreview.Text

/-- The lines of a text that a line feed ends, and the rest of the text. -/
structure Breaks (text : Text) (full : List Text) (rest : Text) : Prop where
  whole : text = (full.map (· ++ ['\n'])).flatten ++ rest
  full_closed : ∀ line ∈ full, '\n' ∉ line
  rest_open : '\n' ∉ rest

theorem breaks_cutLines (s : Text) : Breaks s (cutLines s).1 (cutLines s).2 := by
  refine ⟨(join_cutLines s).symm, ?_, ?_⟩
  all_goals
    induction s with
    | nil => simp [cutLines]
    | cons c r ih =>
      rw [cutLines]
      rcases hr : cutLines r with ⟨full, rest⟩
      rw [hr] at ih
      dsimp only at ih ⊢
      split
      · simpa using ih
      · next hc =>
        have hc : '\n' ≠ c := by
          rintro rfl
          exact hc rfl
        cases full <;> simp_all

theorem cutLines_of_not_mem {s : Text} (h : '\n' ∉ s) : cutLines s = ([], s) := by
  induction s with
  | nil => rfl
  | cons c r ih =>
    rw [List.mem_cons, not_or] at h
    simp [cutLines, ih h.2, Ne.symm h.1]

theorem cutLines_line {line : Text} (h : '\n' ∉ line) (s : Text) :
    cutLines (line ++ '\n' :: s) = (line :: (cutLines s).1, (cutLines s).2) := by
  induction line with
  | nil => rfl
  | cons c r ih =>
    rw [List.mem_cons, not_or] at h
    simp [cutLines, ih h.2, Ne.symm h.1]

theorem Breaks.cutLines_eq {s : Text} {full : List Text} {rest : Text} (h : Breaks s full rest) :
    cutLines s = (full, rest) := by
  obtain ⟨rfl, hf, hr⟩ := h
  induction full with
  | nil => exact cutLines_of_not_mem hr
  | cons line full ih =>
    rw [List.forall_mem_cons] at hf
    rw [List.map_cons, List.flatten_cons, List.append_assoc, List.append_assoc,
      List.singleton_append, cutLines_line hf.1, ih hf.2]

theorem Breaks.unique {s : Text} {full full' : List Text} {rest rest' : Text}
    (h : Breaks s full rest) (h' : Breaks s full' rest') : full = full' ∧ rest = rest' :=
  Prod.mk.inj (h.cutLines_eq.symm.trans h'.cutLines_eq)

theorem Breaks.of_not_mem {rest : Text} (h : '\n' ∉ rest) : Breaks rest [] rest :=
  ⟨rfl, by simp, h⟩

/-- A text in two parts breaks like the first, and then like its rest and the second. -/
theorem Breaks.append {s t : Text} {full full' : List Text} {rest rest' : Text}
    (h : Breaks s full rest) (h' : Breaks (rest ++ t) full' rest') :
    Breaks (s ++ t) (full ++ full') rest' := by
  refine ⟨?_, ?_, h'.rest_open⟩
  · rw [h.whole, List.map_append, List.flatten_append, List.append_assoc, List.append_assoc,
      h'.whole]
  · intro line hl
    rcases List.mem_append.1 hl with hl | hl
    · exact h.full_closed line hl
    · exact h'.full_closed line hl

theorem exists_breaks_newline (s : Text) : ∃ full, Breaks (s ++ ['\n']) full [] := by
  have front := breaks_cutLines s
  have last : Breaks ((cutLines s).2 ++ ['\n']) [(cutLines s).2] [] :=
    ⟨by simp, by simpa using front.rest_open, List.not_mem_nil⟩
  exact ⟨_, front.append last⟩

theorem lines_of_not_mem {line : Text} (h : '\n' ∉ line) (filled : line ≠ []) :
    lines line = [line] := by
  unfold lines
  rw [cutLines_of_not_mem h]
  simp [filled]

theorem lines_line {line : Text} (h : '\n' ∉ line) (s : Text) :
    lines (line ++ '\n' :: s) = dropReturn line :: lines s := by
  unfold lines
  rw [cutLines_line h]
  rfl

@[elab_as_elim]
theorem induction_lines {motive : Text → Prop} (nil : motive [])
    (last : ∀ line, '\n' ∉ line → line ≠ [] → motive line)
    (line : ∀ line s, '\n' ∉ line → motive s → motive (line ++ '\n' :: s)) (s : Text) :
    motive s := by
  induction hn : s.length using Nat.strongRecOn generalizing s with
  | ind n ih =>
    by_cases h : '\n' ∈ s
    · obtain ⟨first, s, rfl, single⟩ := List.eq_append_cons_of_mem h
      refine line first s single (ih s.length ?_ s rfl)
      rw [← hn, List.length_append, List.length_cons]
      omega
    · by_cases filled : s = []
      · rw [filled]
        exact nil
      · exact last s h filled

theorem lines_append {s : Text} (ends : s = [] ∨ s.getLast? = some '\n') (t : Text) :
    lines (s ++ t) = lines s ++ lines t := by
  induction s using induction_lines with
  | nil => rfl
  | last line single filled =>
    rcases ends with rfl | h
    · exact absurd rfl filled
    · exact absurd (List.mem_of_getLast? h) single
  | line line s single ih =>
    have behind : s = [] ∨ s.getLast? = some '\n' := by
      cases s with
      | nil => exact Or.inl rfl
      | cons c r =>
        rw [List.getLast?_append_cons, List.getLast?_cons_cons] at ends
        exact Or.inr (ends.resolve_left (by simp))
    rw [List.append_assoc, List.cons_append, lines_line single, lines_line single, ih behind,
      List.cons_append]

theorem not_mem_of_mem_splitAll {sep : Char} {s part : Text} (h : part ∈ splitAll sep s) :
    sep ∉ part := by
  induction s generalizing part with
  | nil =>
    rw [List.mem_singleton.1 h]
    exact List.not_mem_nil
  | cons c r ih =>
    rw [splitAll] at h
    split at h
    · rcases List.mem_cons.1 h with rfl | h
      · exact List.not_mem_nil
      · exact ih h
    · next hc =>
      have hc : sep ≠ c := by
        rintro rfl
        exact hc (beq_self_eq_true _)
      split at h
      · rw [List.mem_singleton.1 h]
        simpa using hc
      · next first parts hr =>
        rw [hr] at ih
        rcases List.mem_cons.1 h with rfl | h
        · exact List.not_mem_cons_of_ne_of_not_mem hc (ih List.mem_cons_self)
        · exact ih (List.mem_cons_of_mem first h)

end SourcePreview.Text
