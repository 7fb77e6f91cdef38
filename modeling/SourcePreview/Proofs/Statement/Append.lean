import SourcePreview.Proofs.Statement.Comment
import SourcePreview.Proofs.Statement.Scan

/-! The scan of a text that stands behind whole lines. What the scan knows of the lines before is
the delimiter that must close a comment left open there (`Dialect.awaited`); without one the text is
scanned as if it stood alone, and with one so is what stands behind the line that has it. -/

namespace SourcePreview

open Text (Solid)

namespace Text

variable {closing s front rest : Text}

theorem Solid.infix_dropReturn {needle line : Text} (h : Solid needle) :
    needle <:+: dropReturn line ↔ needle <:+: line := by
  rw [← h.infix_trim, trim_dropReturn, h.infix_trim]

/-- A text in two parts: its lines up to the first one that has a delimiter in it, or all if none
has, and what is behind. -/
structure ClosedBy (closing s front rest : Text) : Prop where
  whole : s = front ++ rest
  ends : rest = [] ∨ front.getLast? = some '\n'
  unclosed : ∀ line ∈ (lines front).dropLast, ¬ closing <:+: line
  closed : (∃ line, (lines front).getLast? = some line ∧ closing <:+: line) ∨
    (rest = [] ∧ ∀ line ∈ lines front, ¬ closing <:+: line)

theorem closedBy_nil (closing : Text) : ClosedBy closing [] [] [] :=
  ⟨rfl, Or.inl rfl, nofun, Or.inr ⟨rfl, nofun⟩⟩

theorem closedBy_last {line : Text} (closing : Text) (single : '\n' ∉ line) (filled : line ≠ []) :
    ClosedBy closing line line [] := by
  have one := lines_of_not_mem single filled
  refine ⟨(List.append_nil line).symm, Or.inl rfl, by rw [one]; nofun, ?_⟩
  rw [one]
  by_cases h : closing <:+: line
  · exact Or.inl ⟨line, rfl, h⟩
  · exact Or.inr ⟨rfl, fun _ hl => by rwa [List.mem_singleton.1 hl]⟩

theorem closedBy_line {line : Text} (solid : Solid closing) (single : '\n' ∉ line)
    (h : closing <:+: line) (s : Text) :
    ClosedBy closing (line ++ '\n' :: s) (line ++ ['\n']) s := by
  have one := lines_line single []
  refine ⟨by simp, Or.inr List.getLast?_concat, by rw [one]; nofun,
    Or.inl ⟨dropReturn line, by rw [one]; rfl, ?_⟩⟩
  exact solid.infix_dropReturn.2 h

theorem ClosedBy.line {line : Text} (solid : Solid closing) (single : '\n' ∉ line)
    (h : ¬ closing <:+: line) (closedBy : ClosedBy closing s front rest) :
    ClosedBy closing (line ++ '\n' :: s) (line ++ '\n' :: front) rest := by
  have h : ¬ closing <:+: dropReturn line := mt solid.infix_dropReturn.1 h
  have first := lines_line single front
  refine ⟨?_, ?_, ?_, ?_⟩
  · rw [closedBy.whole, List.append_assoc, List.cons_append]
  · cases front with
    | nil => exact Or.inr List.getLast?_concat
    | cons c r => rw [List.getLast?_append_cons, List.getLast?_cons_cons]; exact closedBy.ends
  · rw [first]
    intro l hl
    cases hf : lines front with
    | nil => rw [hf] at hl; cases hl
    | cons next others =>
      rw [hf, List.dropLast_cons_cons, List.mem_cons] at hl
      rcases hl with rfl | hl
      · exact h
      · exact closedBy.unclosed l (hf ▸ hl)
  · rw [first]
    rcases closedBy.closed with ⟨l, last, hl⟩ | ⟨nothing, absent⟩
    · refine Or.inl ⟨l, ?_, hl⟩
      rw [List.getLast?_cons, last]
      rfl
    · exact Or.inr ⟨nothing, List.forall_mem_cons.2 ⟨h, absent⟩⟩

end Text

namespace Dialect

variable {d : Dialect} {closing : Text}

theorem mem_blockDelimiters_of_opensBlock? {line : Text} (h : d.opensBlock? line = some closing) :
    ∃ opening, (opening, closing) ∈ d.blockDelimiters := by
  obtain ⟨⟨opening, closing'⟩, mem, h⟩ := List.exists_of_findSome?_eq_some h
  obtain ⟨rest, -, h⟩ := Option.bind_eq_some_iff.1 h
  split at h
  · cases h
  · cases h
    exact ⟨opening, mem⟩

theorem step_some (d : Dialect) (closing line : Text) :
    d.step (some closing) line =
    (.comment, if Text.containsText closing line then none else some closing) := rfl

theorem containsText_trim_iff (solid : Solid closing) {line : Text} :
    Text.containsText closing (Text.trim line) = true ↔ closing <:+: line :=
  Text.containsText_iff.trans solid.infix_trim

theorem awaited_of_absent (solid : Solid closing) {lines : List Text}
    (absent : ∀ line ∈ lines, ¬ closing <:+: line) :
    d.awaited (some closing) lines = some closing := by
  induction lines with
  | nil => rfl
  | cons line lines ih =>
    rw [List.forall_mem_cons] at absent
    change d.awaited (d.step (some closing) (Text.trim line)).2 lines = _
    rw [step_some, if_neg (mt (containsText_trim_iff solid).1 absent.1), ih absent.2]

theorem awaited_eq_some_iff {lines : List Text} : d.awaited none lines = some closing ↔
    ∃ front line body, lines = front ++ line :: body ∧ d.awaited none front = none ∧
      d.opensBlock? (Text.trim line) = some closing ∧ ∀ l ∈ body, ¬ closing <:+: l := by
  constructor
  · intro h
    induction lines using List.reverseRecOn with
    | nil => cases h
    | append_singleton lines line ih =>
      rw [awaited_concat] at h
      cases before : d.awaited none lines with
      | some closing' =>
        rw [before, step_some] at h
        dsimp only at h
        split at h
        · cases h
        · next absent =>
          obtain rfl := Option.some.inj h
          obtain ⟨front, first, body, rfl, none_before, opens, others⟩ := ih before
          obtain ⟨opening, mem⟩ := mem_blockDelimiters_of_opensBlock? opens
          have solid := (solid_blockDelimiters mem).2
          refine ⟨front, first, body ++ [line], by simp, none_before, opens, ?_⟩
          rw [List.forall_mem_append, List.forall_mem_singleton]
          exact ⟨others, mt (containsText_trim_iff solid).2 absent⟩
      | none =>
        rw [before, step] at h
        split at h
        · next opens =>
          obtain rfl := Option.some.inj h
          exact ⟨lines, line, [], rfl, before, opens, List.forall_mem_nil _⟩
        · cases h
  · rintro ⟨front, line, body, rfl, before, opens, absent⟩
    obtain ⟨opening, mem⟩ := mem_blockDelimiters_of_opensBlock? opens
    rw [← awaited_of_absent (solid_blockDelimiters mem).2 absent, awaited, List.foldl_append,
      List.foldl_cons]
    change d.awaited (d.step (d.awaited none front) (Text.trim line)).2 body = _
    rw [before, step, opens]

/-- Behind a comment left open, the lines up to the one that closes it are comments, and the text
behind that line is scanned as if it stood alone. -/
theorem exists_closedBy (d : Dialect) (solid : Solid closing) (s : Text) :
    ∃ front rest, Text.ClosedBy closing s front rest ∧
    d.statements (some closing) (Text.lines s) =
      List.replicate (Text.lines front).length .comment ++ d.statements none (Text.lines rest) := by
  induction s using Text.induction_lines with
  | nil => exact ⟨[], [], Text.closedBy_nil closing, rfl⟩
  | last line single filled =>
    refine ⟨line, [], Text.closedBy_last closing single filled, ?_⟩
    rw [Text.lines_of_not_mem single filled]
    rfl
  | line line s single ih =>
    rw [Text.lines_line single, statements_cons, step_some, Text.trim_dropReturn]
    by_cases h : closing <:+: line
    · refine ⟨line ++ ['\n'], s, Text.closedBy_line solid single h s, ?_⟩
      rw [if_pos ((containsText_trim_iff solid).2 h), Text.lines_line single []]
      rfl
    · obtain ⟨front, rest, closedBy, same⟩ := ih
      refine ⟨line ++ '\n' :: front, rest, closedBy.line solid single h, ?_⟩
      rw [if_neg (mt (containsText_trim_iff solid).1 h), same, Text.lines_line single front]
      rfl

end Dialect

namespace Line

theorem numberFrom_append (number : Nat) (xs ys : List Statement) :
    numberFrom number (xs ++ ys) = numberFrom number xs ++ numberFrom (number + xs.length) ys := by
  induction xs generalizing number with
  | nil => rfl
  | cons x xs ih =>
    rw [List.cons_append, numberFrom, numberFrom, ih, List.cons_append, List.length_cons,
      Nat.add_right_comm]; rfl

theorem map_number_numberFrom (start : Nat) (ss : List Statement) :
    (numberFrom start ss).map number = List.range' start ss.length := by
  induction ss generalizing start with
  | nil => rfl
  | cons s ss ih => rw [numberFrom, List.map_cons, ih, List.length_cons, List.range'_succ]

theorem map_statement_numberFrom (start : Nat) (ss : List Statement) :
    (numberFrom start ss).map statement = ss := by
  induction ss generalizing start with
  | nil => rfl
  | cons s ss ih => rw [numberFrom, List.map_cons, ih]

theorem map_statement_scan (d : Dialect) (s : Text) :
    (scan d s).map statement = d.statements none (Text.lines s) :=
  map_statement_numberFrom 1 _

/-- The lines of a text are numbered from 1; behind whole lines a text is scanned on from the number
of these and from the comment they leave open, and from nothing else. -/
theorem scan_behind (d : Dialect) :
    (∀ s, (scan d s).map number = List.range' 1 (Text.lines s).length) ∧
    ∀ s t, s = [] ∨ s.getLast? = some '\n' →
      ∃ behind, scan d (s ++ t) = scan d s ++ numberFrom ((scan d s).length + 1) behind ∧
        match d.awaited none (Text.lines s) with
        | none => behind = (scan d t).map statement
        | some closing => ∃ front rest, Text.ClosedBy closing t front rest ∧
            behind = List.replicate (Text.lines front).length .comment ++
              (scan d rest).map statement := by
  constructor
  · intro s
    rw [scan, map_number_numberFrom, Dialect.length_statements]
  · intro s t ends
    have count : (scan d s).length = (d.statements none (Text.lines s)).length := by
      rw [← map_statement_scan, List.length_map]
    refine ⟨d.statements (d.awaited none (Text.lines s)) (Text.lines t), ?_, ?_⟩
    · rw [count, scan, Text.lines_append ends, Dialect.statements_append, numberFrom_append,
        Nat.add_comm]
      rfl
    · split
      · next closed => rw [closed, map_statement_scan]
      · next closing opened =>
        obtain ⟨_, _, _, _, _, opens, _⟩ := Dialect.awaited_eq_some_iff.1 opened
        obtain ⟨opening, mem⟩ := Dialect.mem_blockDelimiters_of_opensBlock? opens
        obtain ⟨front, rest, closedBy, same⟩ :=
          d.exists_closedBy (Dialect.solid_blockDelimiters mem).2 t
        refine ⟨front, rest, closedBy, ?_⟩
        rw [opened, same, map_statement_scan]

/-- The text goes on with the comment and ends behind it. -/
theorem scan_behind_of_docstring :
    let s : Text := "x = 1\n\"\"\"doc\n".toList
    let t : Text := "more\r\nend\"\"\"\ny = 2".toList
    let closing : Text := "\"\"\"".toList
    (s = [] ∨ s.getLast? = some '\n') ∧ Dialect.python.awaited none (Text.lines s) = some closing ∧
      ∃ behind, scan .python (s ++ t) = scan .python s ++ numberFrom 3 behind ∧
        ∃ front rest, Text.ClosedBy closing t front rest ∧
          behind = List.replicate (Text.lines front).length .comment ++
            (scan .python rest).map statement := by
  intro s t closing
  have ends : s = [] ∨ s.getLast? = some '\n' := by decide
  have opened : Dialect.python.awaited none (Text.lines s) = some closing := by decide
  have count : (scan .python s).length = 2 := by decide
  obtain ⟨behind, whole, parts⟩ := (scan_behind .python).2 s t ends
  rw [opened] at parts
  rw [count] at whole
  exact ⟨ends, opened, behind, whole, parts⟩

end Line

end SourcePreview
