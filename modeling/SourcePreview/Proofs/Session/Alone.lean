import SourcePreview.Proofs.Console.Onward
import SourcePreview.Proofs.Session.Isolation

/-! A run that is the only call on a new session. It stands before its first poll, or at a question,
whose request is pending, answered, or resolved by a stop; a poll at a pending request does nothing,
and any other poll writes lines and comes to the next question or to the end (`Asks.poll`,
`Alone.poll`). -/

namespace SourcePreview

namespace Coordinator

/-- How often the prompt that is watched was set: once by each request, and once by what resolved
it. -/
def changes (c : Coordinator) : Nat := 2 * c.fresh - c.pending.toList.length

variable {c : Coordinator} {r : Request}

theorem changes_awaiting (idle : c.pending = none) (prompt : Text) :
    (c.awaiting prompt).changes = c.changes + 1 := by
  have once : ∀ fresh : Nat, 2 * (fresh + 1) - 1 = 2 * fresh - 0 + 1 := by
    intro fresh
    omega
  rw [changes, changes, idle]
  exact once c.fresh

theorem changes_resolve (sound : c.Sound) (hr : c.pending = some r) (answer : Text) :
    (c.resolve r answer).changes = c.changes + 1 := by
  have once : ∀ ticket fresh : Nat, ticket < fresh → 2 * fresh - 0 = 2 * fresh - 1 + 1 := by
    intro ticket fresh given
    omega
  rw [changes, changes, hr]
  exact once r.ticket c.fresh (sound.pending r hr)

theorem changes_abandon (idle : c.pending = none) (ticket : Ticket) :
    (c.abandon ticket).changes = c.changes := by
  rw [changes, changes, abandon, idle]
  rfl

end Coordinator

theorem Console.Free.abandon {c : Console} (h : c.Free) (ticket : Ticket) :
    (c.abandon ticket).Free := by
  refine ⟨?_, h.sound.abandon ticket, h.writable⟩
  rw [Console.abandon, Coordinator.abandon, h.idle]
  rfl

namespace Session

variable {s : Session} {call : SessionCall}

/-- A session whose run waits for the answer to a request. -/
structure Asks (s : Session) (ticket : Ticket) (prompt : Text) : Prop where
  active : s.active = some false
  sound : s.console.input.Sound
  writable : s.console.transcript.stopped = false
  pending : s.console.input.pending = some ⟨ticket, prompt, true⟩

/-- How far the only run of a session came. -/
inductive Alone (s : Session) : SessionCall → Prop where
  | created {d : Dialect} {l : Language} {source : Text} (vacant : s.active = none)
      (free : s.console.Free) (blank : s.console.transcript.entries = [])
      (pseudo : s.settings.pythonBackend = .pseudo) (known : Dialect.ofLanguage? l = some d) :
    Alone s (.run (.created l source))
  | asking {ticket : Ticket} {prompt : Text} {next : Text → Dialogue (Except Overwide Unit)}
      (asks : s.Asks ticket prompt) :
    Alone s (.run (.talking (.asked ticket next)))
  | answered {ticket : Ticket} {answer : Text} {next : Text → Dialogue (Except Overwide Unit)}
      (active : s.active = some false) (free : s.console.Free)
      (answered : s.console.input.answer? ticket = some answer) :
    Alone s (.run (.talking (.asked ticket next)))
  | stopped {ticket : Ticket} {next : Text → Dialogue (Except Overwide Unit)}
      (active : s.active = some true) (free : s.console.Free) :
    Alone s (.run (.talking (.asked ticket next)))

/-- What a poll over a console comes to that is not idle: a question, or the end. -/
inductive Passed (c : Console) : Session × Progress SessionCall Reply → Prop where
  | asks {s' : Session} {ticket : Ticket} {next : Text → Dialogue (Except Overwide Unit)}
      {prompt : Text} {lines : List Entry} (asks : s'.Asks ticket prompt)
      (changes : s'.console.input.changes = c.input.changes + 1)
      (wrote : c.transcript.Wrote lines s'.console.transcript) :
    Passed c (s', .moved (.run (.talking (.asked ticket next))))
  | ends {s' : Session} {reply : Reply} {lines : List Entry}
      (idle : s'.console.input.pending = none)
      (proper : (∃ o, reply = .outcome o) ∨ ∃ e, reply = .overwide e)
      (wrote : c.transcript.Wrote lines s'.console.transcript) :
    Passed c (s', .settled reply)

/-- A session behind an event that resolved the pending request. -/
structure Resolved (s s' : Session) (call : SessionCall) : Prop where
  alone : s'.Alone call
  idle : s'.console.input.pending = none
  changes : s'.console.input.changes = s.console.input.changes + 1
  transcript : s'.console.transcript = s.console.transcript

namespace Asks

variable {ticket : Ticket} {prompt : Text}

theorem poll (h : s.Asks ticket prompt) {next : Text → Dialogue (Except Overwide Unit)} :
    s.poll (.run (.talking (.asked ticket next))) = (s, .waiting) := by
  have unstopped : s.isStopped = false := by rw [isStopped, h.active]; rfl
  have unanswered : s.console.input.answer? ticket = none := by
    cases ha : s.console.input.answer? ticket with
    | none => rfl
    | some answer => exact absurd rfl (h.sound.ticket_ne ha h.pending)
  rw [Session.poll, talk, converse, unstopped, Talk.advance, if_neg Bool.false_ne_true, unanswered]

theorem submit_blank (h : s.Asks ticket prompt) {text : Text} (blank : Text.trim text = []) :
    s.submit text = (.error .emptySubmission, s) := by
  have pending : s.console.input.pending ≠ none := by simp [h.pending]
  rw [Session.submit, Coordinator.submit_of_blank pending blank]

theorem submit_filled (h : s.Asks ticket prompt) (next : Text → Dialogue (Except Overwide Unit))
    {text : Text} (filled : Text.trim text ≠ []) :
    ∃ s', s.submit text = (.ok (), s') ∧ Resolved s s' (.run (.talking (.asked ticket next))) := by
  have submitted := Coordinator.submit_of_filled h.pending filled
  have answered :
    (s.console.input.resolve ⟨ticket, prompt, true⟩ (Text.trim text)).answer? ticket =
      some (Text.trim text) :=
    Coordinator.answer?_resolve_self rfl
  refine ⟨{ s with console :=
    { s.console with input := s.console.input.resolve ⟨ticket, prompt, true⟩ (Text.trim text) } },
    ?_, ?_, rfl, Coordinator.changes_resolve h.sound h.pending _, rfl⟩
  · rw [Session.submit, submitted]
    rfl
  · exact .answered h.active ⟨rfl, h.sound.resolve h.pending _, h.writable⟩ answered

theorem stop (h : s.Asks ticket prompt) (next : Text → Dialogue (Except Overwide Unit)) :
    s.stop.active = some true ∧ s.stop.console.Free ∧
      Resolved s s.stop (.run (.talking (.asked ticket next))) := by
  have cancelled : s.console.input.cancel = s.console.input.resolve ⟨ticket, prompt, true⟩ [] := by
    rw [Coordinator.cancel, h.pending]
  have free : s.console.cancelInput.Free :=
    ⟨Coordinator.pending_cancel _, h.sound.cancel, h.writable⟩
  rw [Session.stop, h.active]
  refine ⟨rfl, free, .stopped rfl free, free.idle, ?_, rfl⟩
  rw [Console.cancelInput, cancelled]
  exact Coordinator.changes_resolve h.sound h.pending []

end Asks

theorem passed_finish {c : Console} {lines : List Entry} (unstopped : s.isStopped = false)
    (idle : s.console.input.pending = none) (o : Outcome)
    (wrote : c.transcript.Wrote lines s.console.transcript) :
    Passed c (s.finish o) := by
  rw [finish_of_not_stopped unstopped]
  exact .ends idle (Or.inl ⟨o, rfl⟩) wrote

theorem passed_talk {c : Console} (active : s.active = some false) (free : c.Free)
    (same : c.transcript = s.console.transcript)
    (changes : c.input.changes = s.console.input.changes) {t : Talk (Except Overwide Unit)}
    (onward : Stand.Onward c (t.advance false s.console [])) : Passed s.console (s.talk t) := by
  have unstopped : s.isStopped = false := by rw [isStopped, active]; rfl
  rw [talk, converse, unstopped]
  generalize t.advance false s.console [] = stand at onward
  cases onward with
  | @result t lines sent a wrote writable =>
    rw [same] at wrote
    cases a with
    | error e => exact .ends free.idle (Or.inr ⟨e, rfl⟩) wrote
    | ok u =>
      exact passed_finish (s := { s with console := ⟨t, c.input⟩ }) unstopped free.idle .completed
        wrote
  | question prompt next wrote writable =>
    rw [same] at wrote
    refine .asks ⟨active, free.sound.awaiting prompt, writable, rfl⟩ ?_ wrote
    exact (Coordinator.changes_awaiting free.idle prompt).trans (congrArg (· + 1) changes)

theorem poll_of_stopped (ticket : Ticket) (next : Text → Dialogue (Except Overwide Unit))
    (active : s.active = some true) (free : s.console.Free) :
    s.poll (.run (.talking (.asked ticket next))) =
      ({ s with active := none, console := s.console.abandon ticket }.markStopped,
        .settled (.outcome .stopped)) := by
  have stopped : s.isStopped = true := by rw [isStopped, active]; rfl
  have cancelled : s.console.cancelInput = s.console := by
    rw [Console.cancelInput, Coordinator.cancel_of_idle free.idle]
  rw [Session.poll, talk, converse, stopped, Talk.advance, if_pos rfl, cancelled]
  exact finish_of_stopped (s := { s with console := s.console.abandon ticket }) stopped .stopped

/-- A poll of the only run of a session, unless its request is pending. -/
theorem Alone.poll (h : s.Alone call) (idle : s.console.input.pending = none) :
    Passed s.console (s.poll call) := by
  cases h with
  | @created d l source vacant free blank pseudo known =>
    have vacant : s.isRunning = false := isRunning_eq_false_iff.2 vacant
    have clear : s.console.transcript.clear = s.console.transcript := by
      rw [Transcript.clear, ← blank, ← free.writable]
    have taken : s.taken = { s with active := some false } := by
      rw [Session.taken, clear, Coordinator.cancel_of_idle free.idle]
    have onward := (preview d s.settings.inputMode source).advance_onward free []
    rw [Session.poll, begin_of_free vacant pseudo, known, taken]
    exact passed_talk (s := { s with active := some false }) (t := .ready _) rfl free rfl rfl onward
  | asking asks =>
    have pending := asks.pending
    rw [idle] at pending
    cases pending
  | @answered ticket answer next active free answered =>
    have free' := free.abandon ticket
    refine passed_talk active free' rfl (Coordinator.changes_abandon free.idle ticket) ?_
    rw [Talk.advance, if_neg Bool.false_ne_true, answered]
    exact (next answer).advance_onward free' []
  | @stopped ticket next active free =>
    rw [poll_of_stopped ticket next active free]
    exact .ends (free.abandon ticket).idle (Or.inl ⟨.stopped, rfl⟩) (.markStopped free.writable)

theorem Alone.cases (h : s.Alone call) :
    (∃ ticket prompt next, call = .run (.talking (.asked ticket next)) ∧ s.Asks ticket prompt) ∨
      s.console.input.pending = none ∧ Passed s.console (s.poll call) := by
  cases hp : s.console.input.pending with
  | none => exact Or.inr ⟨rfl, h.poll hp⟩
  | some r =>
    left
    cases h with
    | asking asks => exact ⟨_, _, _, rfl, asks⟩
    | created vacant free | answered active free | stopped active free =>
      rw [free.idle] at hp
      cases hp

end Session

end SourcePreview
