import SourcePreview.Bridge
import SourcePreview.Proofs.Console.Replay

/-! What a bridge makes of the lines it reads. `Frame.Asks` says of a line what its prompt is, and
`Relayed` what becomes of lines of output whose frames are answered: one entry for each line, in the
place of the line. Between two questions the bridge passes plain lines on, up to the next frame, to
the end of both streams, or to a line that it cannot read (`forward_advance`). -/

namespace SourcePreview

namespace Frame

variable {line text prompt : Text}

/-- A line that asks: behind its first marker stands a JSON string, and the prompt is the text in
front of the marker followed by that string. -/
def Asks (line prompt : Text) : Prop :=
  ∃ front encoded decoded, line = front ++ marker :: encoded ∧ marker ∉ front ∧
    Json.string? encoded = some decoded ∧
    prompt = front ++ decoded

theorem ofText_of_not_mem (h : marker ∉ line) : Line.ofText line = .plain line := by
  unfold Line.ofText
  cases hs : Text.splitOnce marker line with
  | none => rfl
  | some split =>
    obtain ⟨front, encoded⟩ := split
    have whole := Text.eq_of_splitOnce hs
    exact absurd (whole ▸ List.mem_append_right _ List.mem_cons_self) h

theorem ofText_of_asks (h : Asks line prompt) : Line.ofText line = .request (some prompt) := by
  obtain ⟨front, encoded, decoded, rfl, first, hd, rfl⟩ := h
  rw [Line.ofText, Text.splitOnce_append first]
  simp only [hd, Option.map_some]

theorem asks_or_malformed (h : marker ∈ line) :
    (∃ prompt, Asks line prompt) ∨ Line.ofText line = .request none := by
  obtain ⟨front, encoded, rfl, first⟩ := List.eq_append_cons_of_mem h
  cases hd : Json.string? encoded with
  | none =>
    right
    rw [Line.ofText, Text.splitOnce_append first]
    simp only [hd, Option.map_none]
  | some decoded => exact Or.inl ⟨front ++ decoded, front, encoded, decoded, rfl, first, hd, rfl⟩

theorem Asks.marked (h : Asks line prompt) : marker ∈ line := by
  obtain ⟨front, encoded, decoded, rfl, -⟩ := h
  exact List.mem_append_right _ List.mem_cons_self

end Frame

namespace Console

variable (c : Console) (entries : List Entry)

@[simp] theorem input_foldl_push : (entries.foldl Console.push c).input = c.input := by
  induction entries generalizing c with
  | nil => rfl
  | cons e entries ih => exact ih (c.push e)

theorem Free.foldl_push {c : Console} (h : c.Free) (entries : List Entry) :
    (entries.foldl Console.push c).Free := by
  induction entries generalizing c with
  | nil => exact h
  | cons e entries ih => exact ih (h.push e)

theorem Free.entries_foldl_push {c : Console} (h : c.Free) (entries : List Entry) :
    (entries.foldl Console.push c).transcript.entries = c.transcript.entries ++ entries := by
  induction entries generalizing c with
  | nil => exact (List.append_nil _).symm
  | cons e entries ih =>
    have first : (c.push e).transcript.entries = c.transcript.entries ++ [e] :=
      Transcript.entries_push_of_not_stopped h.writable e
    rw [List.foldl_cons, ih (h.push e), first, List.append_assoc]
    rfl

end Console

namespace Bridge

/-- Lines of output, the prompts and answers of the frames among them, and what is written of
them. -/
inductive Relayed : List Text → List (Text × Text) → List Entry → Prop where
  | nil : Relayed [] [] []
  | plain {line : Text} {lines : List Text} {exchanges : List (Text × Text)} {entries : List Entry}
      (unmarked : Frame.marker ∉ line) (rest : Relayed lines exchanges entries) :
    Relayed (line :: lines) exchanges (.output line :: entries)
  | frame {line prompt : Text} {lines : List Text} {exchanges : List (Text × Text)}
      {entries : List Entry} (asks : Frame.Asks line prompt) (answer : Text)
      (rest : Relayed lines exchanges entries) :
    Relayed (line :: lines) ((prompt, answer) :: exchanges) (.echo prompt answer :: entries)

/-- What is sent for answers: each of them, and a line feed behind it. -/
def wire (answers : List Text) : Text := answers.flatMap (· ++ ['\n'])

theorem wire_concat (answers : List Text) (answer : Text) :
    wire (answers ++ [answer]) = wire answers ++ (answer ++ ['\n']) := by
  simp [wire]

namespace Relayed

variable {lines lines' : List Text} {exchanges exchanges' : List (Text × Text)}
  {entries entries' : List Entry}

theorem append (h : Relayed lines exchanges entries) (h' : Relayed lines' exchanges' entries') :
    Relayed (lines ++ lines') (exchanges ++ exchanges') (entries ++ entries') := by
  induction h with
  | nil => exact h'
  | plain unmarked _ ih => exact .plain unmarked ih
  | frame asks answer _ ih => exact .frame asks answer ih

theorem of_plain (h : ∀ line ∈ lines, Frame.marker ∉ line) :
    Relayed lines [] (lines.map .output) := by
  induction lines with
  | nil => exact .nil
  | cons line lines ih =>
    rw [List.forall_mem_cons] at h
    exact .plain h.1 (ih h.2)

theorem count_echoes (h : Relayed lines exchanges entries) :
    entries.countP (·.kind = .inputEcho) = exchanges.length := by
  induction h with
  | nil => rfl
  | plain _ _ ih => rw [List.countP_cons_of_neg (by simp [Entry.output]), ih]
  | frame _ _ _ ih => rw [List.countP_cons_of_pos (by simp [Entry.echo]), ih, List.length_cons]

end Relayed

/-- A line that cannot be passed on, and why. -/
inductive Faulty : Option Text → StreamError → Prop where
  | undecodable : Faulty none .undecodable
  | malformed {line : Text} (request : Frame.Line.ofText line = .request none) :
    Faulty (some line) .malformedFrame

def followUp (errors rest : List (Option Text)) (prompt answer : Text) : BridgeDialogue :=
  .say (.echo prompt answer) (.send (answer ++ ['\n']) (forward errors rest))

/-- Where the bridge comes to with lines of output: to its next question, to the end of both
streams, or to a line that it cannot pass on. -/
inductive Forwarded (errors : List (Option Text)) (c : Console) (sent : Text)
    (lines : List (Option Text)) :
    Stand (Except StreamError Unit) → Prop where
  | asks (passed : List Text) {line prompt : Text} {rest : List (Option Text)}
      (split : lines = passed.map some ++ some line :: rest)
      (plain : ∀ l ∈ passed, Frame.marker ∉ l) (asks : Frame.Asks line prompt) :
    Forwarded errors c sent lines
      ⟨{ (passed.map Entry.output).foldl Console.push c with input := c.input.awaiting prompt },
      sent, .moved (.asked c.input.fresh (followUp errors rest prompt))⟩
  | drains (passed : List Text) {passedErrors : List Text} (split : lines = passed.map some)
      (plain : ∀ l ∈ passed, Frame.marker ∉ l) (splitErrors : errors = passedErrors.map some) :
    Forwarded errors c sent lines
      ⟨(passed.map Entry.output ++ passedErrors.map Entry.error).foldl Console.push c, sent,
      .settled (.result (.ok ()))⟩
  | fails (passed : List Text) {line : Option Text} {rest : List (Option Text)} {e : StreamError}
      (split : lines = passed.map some ++ line :: rest) (plain : ∀ l ∈ passed, Frame.marker ∉ l)
      (faulty : Faulty line e) :
    Forwarded errors c sent lines ⟨(passed.map Entry.output).foldl Console.push c, sent,
      .settled (.result (.error e))⟩
  | garbled (passed : List Text) {passedErrors : List Text} {rest : List (Option Text)}
      (split : lines = passed.map some) (plain : ∀ l ∈ passed, Frame.marker ∉ l)
      (splitErrors : errors = passedErrors.map some ++ none :: rest) :
    Forwarded errors c sent lines
      ⟨(passed.map Entry.output ++ passedErrors.map Entry.error).foldl Console.push c, sent,
      .settled (.result (.error .undecodable))⟩

variable {errors lines : List (Option Text)} {c : Console} {sent : Text}

theorem forwardErrors_advance (errors : List (Option Text)) (c : Console) (sent : Text) :
    (∃ passed : List Text, errors = passed.map some ∧ (forwardErrors errors).advance false c sent =
        ⟨(passed.map Entry.error).foldl Console.push c, sent, .settled (.result (.ok ()))⟩) ∨
      ∃ (passed : List Text) (rest : List (Option Text)), errors = passed.map some ++ none :: rest ∧
        (forwardErrors errors).advance false c sent =
          ⟨(passed.map Entry.error).foldl Console.push c, sent,
            .settled (.result (.error .undecodable))⟩ := by
  induction errors generalizing c with
  | nil => exact Or.inl ⟨[], rfl, rfl⟩
  | cons line errors ih =>
    cases line with
    | none => exact Or.inr ⟨[], errors, rfl, rfl⟩
    | some line =>
      rcases ih (c.push (.error line)) with ⟨passed, rfl, he⟩ | ⟨passed, rest, rfl, he⟩
      · exact Or.inl ⟨line :: passed, rfl, he⟩
      · exact Or.inr ⟨line :: passed, rest, rfl, he⟩

theorem Forwarded.cons {line : Text} {stand : Stand (Except StreamError Unit)}
    (unmarked : Frame.marker ∉ line)
    (h : Forwarded errors (c.push (.output line)) sent lines stand) :
    Forwarded errors c sent (some line :: lines) stand := by
  have plain : ∀ {passed : List Text}, (∀ l ∈ passed, Frame.marker ∉ l) →
      ∀ l ∈ line :: passed, Frame.marker ∉ l := by
    intro passed h
    exact List.forall_mem_cons.2 ⟨unmarked, h⟩
  cases h with
  | asks passed split hp asks =>
    subst split
    exact .asks (line :: passed) rfl (plain hp) asks
  | drains passed split hp splitErrors =>
    subst split
    exact .drains (line :: passed) rfl (plain hp) splitErrors
  | fails passed split hp faulty =>
    subst split
    exact .fails (line :: passed) rfl (plain hp) faulty
  | garbled passed split hp splitErrors =>
    subst split
    exact .garbled (line :: passed) rfl (plain hp) splitErrors

/-- From a console where nothing is pending the bridge comes to its next question or to its end. -/
theorem forward_advance (errors lines : List (Option Text)) (c : Console)
    (idle : c.input.pending = none) (sent : Text) :
    Forwarded errors c sent lines ((forward errors lines).advance false c sent) := by
  induction lines generalizing c with
  | nil =>
    have start :
      (forward errors []).advance false c sent = (forwardErrors errors).advance false c sent := rfl
    rw [start]
    rcases forwardErrors_advance errors c sent with ⟨passed, split, he⟩ | ⟨passed, rest, split, he⟩
    · rw [he]
      exact .drains [] rfl (List.forall_mem_nil _) split
    · rw [he]
      exact .garbled [] rfl (List.forall_mem_nil _) split
  | cons line lines ih =>
    cases line with
    | none => exact .fails [] rfl (List.forall_mem_nil _) .undecodable
    | some line =>
      by_cases hm : Frame.marker ∈ line
      · rcases Frame.asks_or_malformed hm with ⟨prompt, asks⟩ | malformed
        · have question : (forward errors (some line :: lines)).advance false c sent =
              ⟨{ c with input := c.input.awaiting prompt }, sent,
                .moved (.asked c.input.fresh (followUp errors lines prompt))⟩ := by
            simp [forward, Frame.ofText_of_asks asks, Dialogue.advance,
              Coordinator.request_of_idle idle prompt]
            rfl
          rw [question]
          exact .asks [] rfl (List.forall_mem_nil _) asks
        · have failure : (forward errors (some line :: lines)).advance false c sent =
              ⟨c, sent, .settled (.result (.error .malformedFrame))⟩ := by
            simp [forward, malformed, Dialogue.advance]
          rw [failure]
          exact .fails [] rfl (List.forall_mem_nil _) (.malformed malformed)
      · have next : (forward errors (some line :: lines)).advance false c sent =
            (forward errors lines).advance false (c.push (.output line)) sent := by
          simp [forward, Frame.ofText_of_not_mem hm, Dialogue.advance]
        rw [next]
        exact (ih (c.push (.output line)) idle).cons hm

end Bridge
end SourcePreview
