import SourcePreview.Proofs.Bridge.Conservation

/-! Answers as the process reads them. It reads a line at a time, and a carriage return ends a line
for it as a line feed does (`readBack`), so an answer is read back as it was accepted only if it is
on one line: one that is not fills the lines of the answers behind it as well
(`readBack_written`). -/

namespace SourcePreview

namespace Text

/-- A text whose carriage returns, with a line feed behind them or not, are read as line feeds. -/
def universal : Text → Text
  | [] => []
  | '\r' :: '\n' :: r => '\n' :: universal r
  | c :: r => (if c = '\r' then '\n' else c) :: universal r

def Unbroken (s : Text) : Prop := '\n' ∉ s ∧ '\r' ∉ s

theorem not_mem_universal (s : Text) : '\r' ∉ universal s := by
  induction s using universal.induct with
  | case1 => exact List.not_mem_nil
  | case2 r ih =>
    rw [universal, List.mem_cons, not_or]
    exact ⟨by decide, ih⟩
  | case3 c r _ ih =>
    rw [universal, List.mem_cons, not_or]
    · refine ⟨?_, ih⟩
      split
      · decide
      · next hc => exact Ne.symm hc
    · assumption

theorem universal_of_not_mem {s : Text} (h : '\r' ∉ s) : universal s = s := by
  induction s with
  | nil => rfl
  | cons c r ih =>
    rw [List.mem_cons, not_or] at h
    rw [universal, if_neg (Ne.symm h.1), ih h.2]
    rintro tail rfl
    exact absurd rfl h.1

theorem exists_universal_newline (s : Text) :
    ∃ u, ∀ t, universal (s ++ '\n' :: t) = u ++ '\n' :: universal t := by
  induction s using universal.induct with
  | case1 => exact ⟨[], fun t => by simp [universal]⟩
  | case2 r ih =>
    obtain ⟨u, hu⟩ := ih
    refine ⟨'\n' :: u, fun t => ?_⟩
    rw [List.cons_append, List.cons_append, universal, hu]
    rfl
  | case3 c r alone ih =>
    obtain ⟨u, hu⟩ := ih
    -- a carriage return at the end of the text goes with the line feed
    by_cases last : c = '\r' ∧ r = []
    · obtain ⟨rfl, rfl⟩ := last
      exact ⟨[], fun t => by simp [universal]⟩
    · refine ⟨(if c = '\r' then '\n' else c) :: u, fun t => ?_⟩
      rw [List.cons_append, universal, hu]
      · rfl
      · rintro tail rfl he
        cases r with
        | nil => exact last ⟨rfl, rfl⟩
        | cons d r =>
          obtain ⟨rfl, -⟩ := List.cons.inj he
          exact alone r rfl rfl

def readBack (s : Text) : List Text :=
  let (full, rest) := cutLines (universal s)
  full ++ (if rest.isEmpty then [] else [rest])

theorem readBack_of_breaks {s : Text} {full : List Text} (h : Breaks (universal s) full []) :
    readBack s = full := by
  rw [readBack, h.cutLines_eq]
  exact List.append_nil full

theorem readBack_append (s t : Text) :
    readBack (s ++ '\n' :: t) = readBack (s ++ ['\n']) ++ readBack t := by
  obtain ⟨u, hu⟩ := exists_universal_newline s
  obtain ⟨full, first⟩ := exists_breaks_newline u
  have alone : readBack (s ++ ['\n']) = full := by
    apply readBack_of_breaks
    rw [hu []]
    exact first
  have both := first.append (breaks_cutLines (universal t))
  rw [List.append_assoc, List.singleton_append, ← hu t] at both
  rw [alone, readBack, both.cutLines_eq, readBack]
  exact List.append_assoc full _ _

theorem unbroken_of_mem_readBack {s line : Text} (h : line ∈ readBack s) : line.Unbroken := by
  have breaks := breaks_cutLines (universal s)
  have returns := not_mem_universal s
  rw [breaks.whole, List.mem_append, not_or] at returns
  rw [readBack, List.mem_append] at h
  rcases h with h | h
  · refine ⟨breaks.full_closed line h, fun hr => returns.1 ?_⟩
    exact List.mem_flatten.2 ⟨line ++ ['\n'], List.mem_map_of_mem h, List.mem_append_left _ hr⟩
  · split at h
    · cases h
    · rw [List.mem_singleton.1 h]
      exact ⟨breaks.rest_open, returns.2⟩

theorem Unbroken.readBack_line {s : Text} (h : s.Unbroken) : readBack (s ++ ['\n']) = [s] := by
  apply readBack_of_breaks
  have plain : universal (s ++ ['\n']) = s ++ ['\n'] := by
    apply universal_of_not_mem
    rw [List.mem_append, not_or]
    exact ⟨h.2, by decide⟩
  rw [plain]
  exact ⟨by simp, by simpa using h.1, List.not_mem_nil⟩

end Text

namespace Bridge

theorem readBack_wire (answers : List Text) :
    Text.readBack (wire answers) = answers.flatMap fun answer =>
    Text.readBack (answer ++ ['\n']) := by
  induction answers with
  | nil => rfl
  | cons answer answers ih =>
    have first : wire (answer :: answers) = answer ++ '\n' :: wire answers := by simp [wire]
    rw [first, Text.readBack_append, ih, List.flatMap_cons]

theorem readBack_wire_eq_iff (answers : List Text) :
    Text.readBack (wire answers) = answers ↔ ∀ answer ∈ answers, Text.Unbroken answer := by
  constructor
  · intro h answer ha
    rw [← h] at ha
    exact Text.unbroken_of_mem_readBack ha
  · intro h
    rw [readBack_wire]
    induction answers with
    | nil => rfl
    | cons answer answers ih =>
      rw [List.forall_mem_cons] at h
      rw [List.flatMap_cons, h.1.readBack_line, ih h.2]
      rfl

namespace Observed

/-- What the process reads of what a bridge wrote to it, for all streams and all histories: the
answers that were accepted, one line for each frame that was echoed, as long as each is on one line,
and else the lines of each of them. -/
theorem readBack_written (output errors : List UInt8) (events : List RunEvent) :
    let o := (ofStreams output errors).behind events
    ∃ given, Given o given ∧
      Text.readBack o.written = given.flatMap (fun answer => Text.readBack (answer ++ ['\n'])) ∧
      (Text.readBack o.written = given ↔ ∀ answer ∈ given, Text.Unbroken answer) := by
  intro o
  obtain ⟨given, taken⟩ := ((pumping_ofStreams output errors).behind events).given
  refine ⟨given, taken, ?_, ?_⟩
  · rw [taken.written, readBack_wire]
  · rw [taken.written, readBack_wire_eq_iff]

/-- The second line of the first answer is read as the answer to the second frame. -/
theorem readBack_shifts :
    let output : Text := "\x1e\"x\"\n\x1e\"y\"\n".toList
    let o := (ofStreams output.utf8 []).behind
      [.poll, .submit "a\nb".toList, .poll, .submit "c".toList, .poll]
    o.settled = some (.bridge (.result (.ok ())) o.written) ∧
      o.answered = ["a\nb".toList, "c".toList] ∧
      Text.readBack o.written = ["a".toList, "b".toList, "c".toList] ∧
      Text.readBack o.written ≠ o.answered := by
  intro output o
  have start : o = (⟨(Workbench.empty.start (.bridge (.ready (forward []
      [some "\x1e\"x\"".toList, some "\x1e\"y\"".toList])) [])).2, [], [], none⟩ : Observed).behind
        [.poll, .submit "a\nb".toList, .poll, .submit "c".toList, .poll] := by
    have lines : linesOf output.utf8 = [some "\x1e\"x\"".toList, some "\x1e\"y\"".toList] := by
      rw [linesOf_utf8]
      decide
    change (ofStreams output.utf8 []).behind _ = _
    rw [ofStreams, Workbench.ofStreams, Task.ofStreams, lines]
    rfl
  have answered : o.answered = ["a\nb".toList, "c".toList] := by
    rw [start]
    decide +kernel
  have read : Text.readBack o.written = ["a".toList, "b".toList, "c".toList] := by
    rw [start]
    decide +kernel
  refine ⟨?_, answered, read, ?_⟩
  · rw [start]
    rfl
  · rw [answered, read]
    decide

end Observed

end Bridge

end SourcePreview
