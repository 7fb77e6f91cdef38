import SourcePreview.Proofs.Expression.Closed

/-! Texts and their parts at the top level. Where a separator stands at the top level the scan is
back where it began, also behind brackets that were never opened, so that a text is scanned as its
parts are, one after the other (`Parted`). From that follows what the parts are to the text
(`divided_splitTop`): joined they make it up, none of them falls into parts again, and a character
is at the top level of the text just when it is at that of its part. -/

namespace SourcePreview.Nesting

variable {sep c : Char} {s t r part : Text} {before parts later : List Text} {i : Nat}

theorem isPlain_of_isTop {n : Nesting} (top : n.isTop c = true) : isPlain c = true := by
  simp only [isTop, Bool.and_eq_true] at top
  simp only [isPlain, Bool.and_eq_true]
  exact ⟨⟨top.1.1.2, top.1.2⟩, top.2⟩

theorem after_eq_start_of_isTop (top : (start.after s).isTop c = true) : start.after s = start := by
  simp only [isTop, Bool.and_eq_true, Option.isNone_iff_eq_none, beq_iff_eq] at top
  have unquoted := top.1.1.1.1
  have unescaped := escaped_after (n := start) (fun _ => rfl) s unquoted
  have shallow := top.1.1.1.2
  cases hn : start.after s with
  | mk d q e =>
    rw [hn] at unquoted unescaped shallow
    rw [start, Nesting.mk.injEq]
    exact ⟨shallow, unquoted, unescaped⟩

theorem step_of_isTop (top : start.isTop c = true) : start.step c = start :=
  step_of_isPlain (isPlain_of_isTop top) 0

/-- A separator at the top level leaves the scan where it began. -/
theorem after_append_sep (back : start.after s = start) (top : start.isTop sep = true) :
    start.after (s ++ [sep]) = start := by
  rw [after_append, back]
  exact step_of_isTop top

theorem mem_path (n : Nesting) (s r : Text) (c : Char) : (n.after s, c) ∈ n.path (s ++ c :: r) := by
  rw [path_append, path]
  exact List.mem_append_right _ List.mem_cons_self

/-- A text as the parts between the separators at its top level. -/
inductive Parted (sep : Char) : Text → List Text → Prop
  | last {s : Text} (undivided : Undivided sep s) : Parted sep s [s]
  | cut {s r : Text} {parts : List Text} (undivided : Undivided sep s)
      (back : start.after s = start) (top : start.isTop sep = true) (rest : Parted sep r parts) :
    Parted sep (s ++ sep :: r) (s :: parts)

theorem parted_splitTop (sep : Char) (s : Text) : Parted sep s (splitTop sep s) := by
  -- what was scanned since the last separator is the beginning of a part, which the next one closes
  have parted : ∀ begun : Text, Undivided sep begun → Parted sep (begun ++ s)
      ((begun ++ (cutTop sep (start.after begun) s).1) ::
        (cutTop sep (start.after begun) s).2) := by
    induction s with
    | nil =>
      intro begun undivided
      rw [List.append_nil, cutTop, List.append_nil]
      exact .last undivided
    | cons c r ih =>
      intro begun undivided
      rw [cutTop]
      dsimp only
      split
      · next separates =>
        rw [Bool.and_eq_true, beq_iff_eq] at separates
        obtain ⟨top, rfl⟩ := separates
        have back := after_eq_start_of_isTop top
        rw [back] at top ⊢
        have rest := ih [] (.of_not_mem List.not_mem_nil)
        rw [step_of_isTop top, List.append_nil]
        exact .cut undivided back top rest
      · next other =>
        have longer : Undivided sep (begun ++ [c]) := by
          intro p hp top
          rw [path_append] at hp
          rcases List.mem_append.1 hp with hp | hp
          · exact undivided p hp top
          · obtain rfl := List.mem_singleton.1 hp
            rintro rfl
            exact other (by rw [top, beq_self_eq_true]; rfl)
        have rest := ih (begun ++ [c]) longer
        rw [after_append, List.append_assoc, List.append_assoc] at rest
        exact rest
  exact parted [] (.of_not_mem List.not_mem_nil)

namespace Parted

theorem splitTop_eq (h : Parted sep s parts) : splitTop sep s = parts := by
  induction h with
  | @last s undivided =>
    have whole := cutTop_passed undivided []
    rw [List.append_nil, cutTop, List.append_nil] at whole
    rw [splitTop, whole]
  | cut undivided back top rest ih =>
    rw [splitTop_append_cons (isPlain_of_isTop top) back undivided, ih]

theorem ne_nil (h : Parted sep s parts) : parts ≠ [] := by
  cases h <;> exact List.cons_ne_nil _ _

theorem join_eq (h : Parted sep s parts) : Text.join [sep] parts = s := by
  unfold Text.join
  induction h with
  | last => exact List.intercalate_singleton
  | cut undivided back top rest ih =>
    rw [List.intercalate_cons_of_ne_nil rest.ne_nil, ih, List.append_assoc, List.singleton_append]

theorem undivided_of_mem (h : Parted sep s parts) (mem : part ∈ parts) : Undivided sep part := by
  induction h with
  | last undivided => rwa [List.mem_singleton.1 mem]
  | cut undivided back top rest ih =>
    rcases List.mem_cons.1 mem with rfl | mem
    · exact undivided
    · exact ih mem

theorem back_of_mem_dropLast (h : Parted sep s parts) (mem : part ∈ parts.dropLast) :
    start.after part = start := by
  induction h with
  | last => cases mem
  | cut undivided back top rest ih =>
    rw [List.dropLast_cons_of_ne_nil rest.ne_nil] at mem
    rcases List.mem_cons.1 mem with rfl | mem
    · exact back
    · exact ih mem

end Parted

/-- Whether the character at a position of a text is at the top level. -/
def topAt (s : Text) (i : Nat) : Bool := s[i]?.any (start.after (s.take i)).isTop

theorem topAt_append_left (r : Text) (h : i < s.length) : topAt (s ++ r) i = topAt s i := by
  rw [topAt, topAt, List.getElem?_append_left h, List.take_append_of_le_length (Nat.le_of_lt h)]

theorem topAt_append_right (back : start.after s = start) (r : Text) (i : Nat) :
    topAt (s ++ r) (s.length + i) = topAt r i := by
  rw [topAt, topAt, List.getElem?_append_right (Nat.le_add_right _ _), Nat.add_sub_cancel_left,
    List.take_length_add_append, after_append, back]

theorem Undivided.topAt_eq_false (h : Undivided sep s) (hi : s[i]? = some sep) :
    topAt s i = false := by
  obtain ⟨inside, here⟩ := List.getElem?_eq_some_iff.1 hi
  have cut : s = s.take i ++ sep :: s.drop (i + 1) := by
    rw [← here, ← List.drop_eq_getElem_cons inside, List.take_append_drop]
  have visited := mem_path start (s.take i) (s.drop (i + 1)) sep
  rw [← cut] at visited
  rw [topAt, hi, Option.any_some, Bool.eq_false_iff]
  exact fun top => h _ visited top rfl

/-- Where a part begins that comes behind other parts. -/
def offset (sep : Char) (before : List Text) : Nat := (before.flatMap (· ++ [sep])).length

theorem offset_cons (sep : Char) (s : Text) (before : List Text) :
    offset sep (s :: before) = (s ++ [sep]).length + offset sep before := by
  rw [offset, List.flatMap_cons, List.length_append, offset]

structure Divided (sep : Char) (s : Text) (parts : List Text) : Prop where
  joined : Text.join [sep] parts = s
  /-- Behind each part but the last no quote and no bracket is open. -/
  back : ∀ part ∈ parts.dropLast, start.after part = start
  whole : ∀ part ∈ parts, splitTop sep part = [part]
  places : ∀ before part later, parts = before ++ part :: later → ∀ i, i < part.length →
    s[offset sep before + i]? = part[i]? ∧ topAt s (offset sep before + i) = topAt part i
  /-- The separators at the top level of the text are those between its parts. -/
  cut_iff : ∀ i, s[i]? = some sep ∧ topAt s i = true ↔
    ∃ before part later, parts = before ++ part :: later ∧ later ≠ [] ∧
      i = offset sep before + part.length

namespace Parted

theorem exists_append (h : Parted sep s (before ++ part :: later)) :
    ∃ front rest, s = front ++ (part ++ rest) ∧
    front.length = offset sep before ∧ start.after front = start ∧
    (later ≠ [] → start.after part = start ∧ start.isTop sep = true ∧ ∃ r, rest = sep :: r) := by
  induction before generalizing s with
  | nil =>
    cases h with
    | last => exact ⟨[], [], by simp, rfl, rfl, fun more => absurd rfl more⟩
    | @cut _ r _ undivided back top rest =>
      exact ⟨[], sep :: r, rfl, rfl, rfl, fun _ => ⟨back, top, r, rfl⟩⟩
  | cons first before ih =>
    rw [List.cons_append] at h
    generalize hp : before ++ part :: later = parts at h
    cases h with
    | last => simp at hp
    | cut undivided back top rest =>
      subst hp
      obtain ⟨front, behind, rfl, length, after, more⟩ := ih rest
      refine ⟨first ++ [sep] ++ front, behind, by simp, ?_, ?_, more⟩
      · rw [offset_cons, List.length_append, length]
      · rw [after_append, after_append_sep back top, after]

theorem places (h : Parted sep s (before ++ part :: later)) (hi : i < part.length) :
    s[offset sep before + i]? = part[i]? ∧ topAt s (offset sep before + i) = topAt part i := by
  obtain ⟨front, rest, rfl, length, after, -⟩ := h.exists_append
  rw [← length]
  constructor
  · rw [List.getElem?_append_right (Nat.le_add_right _ _), Nat.add_sub_cancel_left,
      List.getElem?_append_left hi]
  · rw [topAt_append_right after, topAt_append_left rest hi]

theorem separates (h : Parted sep s (before ++ part :: later)) (more : later ≠ []) :
    s[offset sep before + part.length]? = some sep ∧
    topAt s (offset sep before + part.length) = true := by
  obtain ⟨front, rest, rfl, length, after, next⟩ := h.exists_append
  obtain ⟨back, top, r, rfl⟩ := next more
  rw [← length]
  constructor
  · rw [List.getElem?_append_right (Nat.le_add_right _ _), Nat.add_sub_cancel_left,
      List.getElem?_append_right (Nat.le_refl _), Nat.sub_self, List.getElem?_cons_zero]
  · have here := topAt_append_right back (sep :: r) 0
    rw [topAt_append_right after, ← Nat.add_zero part.length, here]
    exact top

theorem exists_of_topAt (h : Parted sep s parts) (hi : s[i]? = some sep) (top : topAt s i = true) :
    ∃ before part later, parts = before ++ part :: later ∧ later ≠ [] ∧
      i = offset sep before + part.length := by
  induction h generalizing i with
  | last undivided =>
    rw [undivided.topAt_eq_false hi] at top
    cases top
  | @cut s r parts undivided back separator rest ih =>
    rcases Nat.lt_trichotomy i s.length with inside | rfl | behind
    · rw [List.getElem?_append_left inside] at hi
      rw [topAt_append_left _ inside, undivided.topAt_eq_false hi] at top
      cases top
    · exact ⟨[], s, parts, rfl, rest.ne_nil, (Nat.zero_add _).symm⟩
    · -- behind the separator the text is that of the other parts
      have past : (s ++ [sep]).length ≤ i := by
        rw [List.length_append]
        exact behind
      obtain ⟨k, rfl⟩ := Nat.exists_eq_add_of_le past
      rw [← List.singleton_append, ← List.append_assoc] at hi top
      rw [List.getElem?_append_right (Nat.le_add_right _ _), Nat.add_sub_cancel_left] at hi
      rw [topAt_append_right (after_append_sep back separator)] at top
      obtain ⟨before, part, later, rfl, more, rfl⟩ := ih hi top
      exact ⟨s :: before, part, later, rfl, more, by rw [offset_cons, Nat.add_assoc]⟩

end Parted

/-- A text is the parts that it falls into at its top level, whatever the separator is. -/
theorem divided_splitTop (sep : Char) (s : Text) : Divided sep s (splitTop sep s) where
  joined := (parted_splitTop sep s).join_eq
  back _ mem := (parted_splitTop sep s).back_of_mem_dropLast mem
  whole _ mem := (Parted.last ((parted_splitTop sep s).undivided_of_mem mem)).splitTop_eq
  places before part later he i hi := by
    have parted := parted_splitTop sep s
    rw [he] at parted
    exact parted.places hi
  cut_iff i := by
    have parted := parted_splitTop sep s
    constructor
    · rintro ⟨hi, top⟩
      exact parted.exists_of_topAt hi top
    · rintro ⟨before, part, later, he, more, rfl⟩
      rw [he] at parted
      exact parted.separates more

/-- Brackets that close nothing and a quote that is never closed. -/
example :
    splitTop ',' "]),f(a, b),'c, d".toList = ["])".toList, "f(a, b)".toList, "'c, d".toList] := by
  decide +kernel

end SourcePreview.Nesting
