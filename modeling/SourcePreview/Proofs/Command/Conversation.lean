import SourcePreview.Command.Conversation
import SourcePreview.Proofs.Session.Alone

/-! A conversation taken up at any point: what is still to be shown when the run is polled next, and
the lines of input that are left are taken (`resume`). Lines that are shown now are not shown then,
and a prompt that is pending comes next. -/

namespace SourcePreview

def Shown.entry? : Shown → Option Entry
  | .line e => some e
  | .prompt _ => none

namespace Shown

/-- The lines of the transcript among what is shown. -/
def entries (shown : List Shown) : List Entry := shown.filterMap entry?

theorem entries_append (xs ys : List Shown) : entries (xs ++ ys) = entries xs ++ entries ys :=
  List.filterMap_append

@[simp] theorem entries_map_line (lines : List Entry) : entries (lines.map .line) = lines := by
  induction lines with
  | nil => rfl
  | cons e lines ih => exact congrArg (e :: ·) ih

end Shown

namespace Conversation

/-- Goes on from a state of a conversation to its end. -/
def resume (c : Conversation) (input : List Text) : List Shown × Reply :=
  match c.advance.next with
  | .inl next => (c.advance.shown ++ (next.takeAll input).1, (next.takeAll input).2)
  | .inr reply => (c.advance.shown, reply)

variable {s s' : Session} {call call' : SessionCall} {ticket : Ticket} {prompt : Text}
  {next : Text → Dialogue (Except Overwide Unit)} {reply : Reply}

theorem resume_of_settled (polled : s.poll call = (s', .settled reply)) (n : Nat)
    (input : List Text) :
    resume ⟨s, call, n⟩ input = ((s'.console.transcript.sent.drop n).map .line, reply) := by
  simp only [resume, advance, polled]

theorem resume_of_moved (polled : s.poll call = (s', .moved call'))
    (waits : s'.poll call' = (s', .waiting)) (n : Nat) (input : List Text) :
    resume ⟨s, call, n⟩ input = resume ⟨s', call', n⟩ input := by
  simp only [resume, advance, polled, waits]

theorem prompt_of_asks (asks : s.Asks ticket prompt) (call : SessionCall) (n : Nat) :
    Conversation.prompt ⟨s, call, n⟩ = [.prompt prompt] := by
  rw [Conversation.prompt, Coordinator.prompt?, asks.pending]
  rfl

/-- At a pending request the lines that were not shown yet come next, then the prompt, and then what
the input brings. -/
theorem resume_of_asks (asks : s.Asks ticket prompt) (n : Nat) (input : List Text) :
    resume ⟨s, .run (.talking (.asked ticket next)), n⟩ input =
      let c : Conversation :=
        ⟨s, .run (.talking (.asked ticket next)), s.console.transcript.sent.length⟩
      ((s.console.transcript.sent.drop n).map .line ++ .prompt prompt :: (c.takeAll input).1,
        (c.takeAll input).2) := by
  simp only [resume, advance, asks.poll, prompt_of_asks asks, List.append_assoc,
    List.singleton_append]

theorem takeAll_nil (asks : s.Asks ticket prompt) (n : Nat) :
    takeAll ⟨s, .run (.talking (.asked ticket next)), n⟩ [] =
      resume ⟨s.stop, .run (.talking (.asked ticket next)), n⟩ [] := by
  obtain ⟨active, free, -⟩ := asks.stop next
  have polled := Session.poll_of_stopped ticket next active free
  rw [resume_of_settled polled]
  simp only [takeAll, close, advance, polled]

theorem takeAll_blank (asks : s.Asks ticket prompt) (n : Nat) {line : Text}
    (blank : Text.trim line = []) (rest : List Text) :
    takeAll ⟨s, call, n⟩ (line :: rest) =
      (.prompt prompt :: (takeAll ⟨s, call, n⟩ rest).1, (takeAll ⟨s, call, n⟩ rest).2) := by
  have answered : answer ⟨s, call, n⟩ line = ⟨[.prompt prompt], .inl ⟨s, call, n⟩⟩ := by
    rw [answer, asks.submit_blank blank, prompt_of_asks asks]
  simp only [takeAll, answered, List.singleton_append]

theorem takeAll_filled (n : Nat) {line : Text} (submitted : s.submit line = (.ok (), s'))
    (rest : List Text) :
    takeAll ⟨s, call, n⟩ (line :: rest) = resume ⟨s', call, n⟩ rest := by
  have answered : answer ⟨s, call, n⟩ line = advance ⟨s', call, n⟩ := by rw [answer, submitted]
  cases advanced : advance ⟨s', call, n⟩ with | mk shown next
  rw [advanced] at answered
  cases next with
  | inl c => simp only [takeAll, answered, resume, advanced]
  | inr reply => simp only [takeAll, answered, resume, advanced]

end Conversation

end SourcePreview
