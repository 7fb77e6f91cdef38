import Mathlib.Data.List.Induction
import SourcePreview.Proofs.Console.Onward
import SourcePreview.Proofs.Console.Request
import SourcePreview.Proofs.Console.Silence

/-! The transcript of a console as a log into which any number of tasks and callers write, in any
order, tasks also with others between two of their lines (`Task.tick`). What happens to a console, a
clear apart, only extends its transcript (`Workbench.react_extends`), and from that follows what
holds of all histories (`chronicle_through`): the transcript is what was sent since it was cleared,
and behind the stop marker nothing is written until it is cleared again. -/

namespace SourcePreview

variable {α : Type}

/-- A transcript behind another one, not cleared since: each line was sent as it was written, a stop
marker that was written is the last line, and behind one that was there before nothing was
written. -/
structure Transcript.Extends (t t' : Transcript) : Prop where
  wrote : ∃ lines, t.Wrote lines t'
  frozen : t.stopped = true → t' = t
  marked : t.stopped = false → t'.stopped = true → t'.entries.getLast? = some .stopMarker

namespace Transcript

variable {t t' t'' : Transcript}

theorem Extends.refl (t : Transcript) : t.Extends t :=
  ⟨⟨[], .refl t⟩, fun _ => rfl, fun writable stopped =>
    absurd stopped (Bool.eq_false_iff.1 writable)⟩

theorem Extends.trans (h : t.Extends t') (h' : t'.Extends t'') : t.Extends t'' := by
  obtain ⟨lines, wrote⟩ := h.wrote
  obtain ⟨lines', wrote'⟩ := h'.wrote
  refine ⟨⟨lines ++ lines', wrote.trans wrote'⟩, fun stopped => ?_, fun writable stopped => ?_⟩
  · obtain rfl := h.frozen stopped
    exact h'.frozen stopped
  · cases between : t'.stopped with
    | false => exact h'.marked between stopped
    | true =>
      rw [h'.frozen between]
      exact h.marked writable between

theorem extends_push (t : Transcript) (e : Entry) : t.Extends (t.push e) := by
  cases ht : t.stopped with
  | true =>
    rw [push_of_stopped ht]
    exact .refl t
  | false =>
    refine ⟨⟨[e], .push ht e⟩, fun stopped => absurd stopped (Bool.eq_false_iff.1 ht),
      fun _ stopped => ?_⟩
    rw [stopped_push] at stopped
    exact absurd stopped (Bool.eq_false_iff.1 ht)

theorem extends_markStopped (t : Transcript) : t.Extends t.markStopped := by
  cases ht : t.stopped with
  | true =>
    rw [markStopped_of_stopped ht]
    exact .refl t
  | false =>
    have wrote : t.Wrote [.stopMarker] t.markStopped := .markStopped ht
    refine ⟨⟨_, wrote⟩, fun stopped => absurd stopped (Bool.eq_false_iff.1 ht), fun _ _ => ?_⟩
    rw [wrote.entries, List.getLast?_concat]

theorem not_wrote_self {e : Entry} : ¬ t.Wrote [e] t := by
  intro h
  have := congrArg List.length h.entries
  simp at this

theorem wrote_push_iff (t : Transcript) (e : Entry) :
    t.Wrote [e] (t.push e) ↔ t.stopped = false := by
  refine ⟨fun h => ?_, fun writable => .push writable e⟩
  rw [Bool.eq_false_iff]
  intro stopped
  rw [push_of_stopped stopped] at h
  exact not_wrote_self h

theorem wrote_markStopped_iff (t : Transcript) :
    t.Wrote [.stopMarker] t.markStopped ↔ t.stopped = false := by
  refine ⟨fun h => ?_, .markStopped⟩
  rw [Bool.eq_false_iff]
  intro stopped
  rw [markStopped_of_stopped stopped] at h
  exact not_wrote_self h

end Transcript

/-! ### Polls that others come between -/

/-- The first thing that a dialogue does. -/
def Dialogue.tick (cancelled : Bool) (console : Console) (sent : Text) : Dialogue α → Stand α
  | .done a => ⟨console, sent, .settled (.result a)⟩
  | .say e next => ⟨console.push e, sent, .moved (.ready next)⟩
  | .send text next => ⟨console, sent ++ text, .moved (.ready next)⟩
  | .check next => ⟨console, sent, if cancelled then .settled .cancelled else .moved (.ready next)⟩
  | .ask prompt next => (ask prompt next).advance cancelled console sent

/-- The first thing that a talk does. -/
def Talk.tick (cancelled : Bool) (console : Console) (sent : Text) : Talk α → Stand α
  | .ready d => d.tick cancelled console sent
  | .asked ticket next =>
    if cancelled then ⟨console.cancelInput.abandon ticket, sent, .settled .cancelled⟩
    else match console.input.answer? ticket with
      | none => ⟨console, sent, .waiting⟩
      | some answer => ⟨console.abandon ticket, sent, .moved (.ready (next answer))⟩

/-- Goes on from where a dialogue may stop before its next question. -/
def Stand.resume (cancelled : Bool) (stand : Stand α) : Stand α :=
  match stand.progress with
  | .moved (.ready d) => d.advance cancelled stand.console stand.sent
  | _ => stand

/-- The first thing that a task does when it is polled. -/
def Task.tick (cancelled : Bool) (console : Console) : Task → Console × Progress Task Settlement
  | .run talk =>
    let stand := talk.tick cancelled console []
    (stand.console, stand.progress.map .run .run)
  | .request talk =>
    let stand := talk.tick false console []
    (stand.console, stand.progress.map .request .request)
  | .nextPrompt => Task.nextPrompt.poll cancelled console
  | .bridge talk sent =>
    let stand := talk.tick cancelled console sent
    (stand.console, stand.progress.map (.bridge · stand.sent) (.bridge · stand.sent))

section Poll

variable (cancelled : Bool) (c : Console) (sent : Text)

theorem Dialogue.resume_tick (d : Dialogue α) :
    (d.tick cancelled c sent).resume cancelled = d.advance cancelled c sent := by
  cases d with
  | done a => rfl
  | say e next => rfl
  | send text next => rfl
  | check next =>
    rw [tick, advance]
    cases cancelled <;> rfl
  | ask prompt next =>
    rw [tick, advance]
    split
    · rfl
    · split <;> rfl

theorem Talk.resume_tick (t : Talk α) :
    (t.tick cancelled c sent).resume cancelled = t.advance cancelled c sent := by
  cases t with
  | ready d => exact d.resume_tick cancelled c sent
  | asked ticket next =>
    rw [tick, advance]
    split
    · rfl
    · cases c.input.answer? ticket <;> rfl

theorem Dialogue.tick_extends (d : Dialogue α) :
    c.transcript.Extends (d.tick cancelled c sent).console.transcript := by
  cases d with
  | done a => exact .refl _
  | say e next => exact c.transcript.extends_push e
  | send text next => exact .refl _
  | check next => exact .refl _
  | ask prompt next =>
    rw [tick, advance]
    split
    · exact .refl _
    · split <;> exact .refl _

theorem Talk.tick_extends (t : Talk α) :
    c.transcript.Extends (t.tick cancelled c sent).console.transcript := by
  cases t with
  | ready d => exact d.tick_extends cancelled c sent
  | asked ticket next =>
    rw [tick]
    split
    · exact .refl _
    · split <;> exact .refl _

theorem Dialogue.advance_extends (d : Dialogue α) :
    c.transcript.Extends (d.advance cancelled c sent).console.transcript := by
  induction d generalizing c sent with
  | done a => exact .refl _
  | say e next ih => exact (c.transcript.extends_push e).trans (ih (c.push e) sent)
  | send text next ih => exact ih c (sent ++ text)
  | check next ih =>
    rw [advance]
    split
    · exact .refl _
    · exact ih c sent
  | ask prompt next => exact (ask prompt next).tick_extends cancelled c sent

theorem Talk.advance_extends (t : Talk α) :
    c.transcript.Extends (t.advance cancelled c sent).console.transcript := by
  have first := t.tick_extends cancelled c sent
  rw [← t.resume_tick cancelled c sent, Stand.resume]
  split
  · exact first.trans (Dialogue.advance_extends cancelled _ _ _)
  · exact first

theorem Talk.transcript_drop (t : Talk α) : (t.drop c).transcript = c.transcript := by
  cases t <;> rfl

namespace Task

theorem poll_extends (task : Task) : c.transcript.Extends (task.poll cancelled c).1.transcript := by
  cases task with
  | run talk => exact talk.advance_extends cancelled c []
  | request talk => exact talk.advance_extends false c []
  | nextPrompt => exact .refl _
  | bridge talk sent => exact talk.advance_extends cancelled c sent

theorem tick_extends (task : Task) : c.transcript.Extends (task.tick cancelled c).1.transcript := by
  cases task with
  | run talk => exact talk.tick_extends cancelled c []
  | request talk => exact talk.tick_extends false c []
  | nextPrompt => exact .refl _
  | bridge talk sent => exact talk.tick_extends cancelled c sent

theorem transcript_drop (task : Task) : (task.drop c).transcript = c.transcript := by
  cases task with
  | run talk => exact talk.transcript_drop c
  | request talk => exact talk.transcript_drop c
  | nextPrompt => rfl
  | bridge talk sent => exact talk.transcript_drop c

end Task

end Poll

/-- What can happen to a console: what tasks do, and what callers do at once. -/
inductive ConsoleEvent where
  | start (task : Task)
  | poll (i : Nat)
  /-- A poll that stops behind the first thing the task does. -/
  | tick (i : Nat)
  | drop (i : Nat)
  | submit (text : Text)
  | cancelInput
  | cancel
  | push (e : Entry)
  | markStopped
  | clear

namespace Workbench

def tick (w : Workbench) (i : Nat) : Workbench :=
  match w.tasks.task? i with
  | none => w
  | some task =>
    w.put (task.tick w.cancelled w.console).1 i ((task.tick w.cancelled w.console).2.rest task)

/-- The lines written and sent. -/
abbrev transcript (w : Workbench) : Transcript := w.console.transcript

def withTranscript (w : Workbench) (transcript : Transcript) : Workbench :=
  { w with console := { w.console with transcript } }

def react (w : Workbench) : ConsoleEvent → Workbench
  | .start task => (w.start task).2
  | .poll i => w.poll i
  | .tick i => w.tick i
  | .drop i => w.step (.drop i)
  | .submit text => w.step (.submit text)
  | .cancelInput => w.step .cancel
  | .cancel => w.cancel
  | .push e => w.withTranscript (w.transcript.push e)
  | .markStopped => w.withTranscript w.transcript.mark.2
  | .clear => w.withTranscript w.transcript.clear

def through (w : Workbench) (events : List ConsoleEvent) : Workbench := events.foldl react w

variable {w : Workbench} {e : ConsoleEvent} {events : List ConsoleEvent}

theorem through_append (w : Workbench) (xs ys : List ConsoleEvent) :
    w.through (xs ++ ys) = (w.through xs).through ys :=
  List.foldl_append

theorem react_extends (w : Workbench) (he : e ≠ .clear) :
    w.transcript.Extends (w.react e).transcript := by
  cases e with
  | start task => exact .refl _
  | poll i =>
    rw [react, poll]
    split
    · exact .refl _
    · exact Task.poll_extends _ _ _
  | tick i =>
    rw [react, tick]
    split
    · exact .refl _
    · exact Task.tick_extends _ _ _
  | drop i =>
    rw [react, drop_eq]
    split
    · exact .refl _
    · next task _ =>
      change w.transcript.Extends (task.drop w.console).transcript
      rw [task.transcript_drop]
      exact .refl _
  | submit text => exact .refl _
  | cancelInput => exact .refl _
  | cancel => exact .refl _
  | push e => exact w.transcript.extends_push e
  | markStopped =>
    rw [react, Transcript.snd_mark]
    exact w.transcript.extends_markStopped
  | clear => exact absurd rfl he

theorem through_extends (w : Workbench) (uncleared : .clear ∉ events) :
    w.transcript.Extends (w.through events).transcript := by
  induction events generalizing w with
  | nil => exact .refl _
  | cons e events ih =>
    rw [List.mem_cons, not_or] at uncleared
    exact (w.react_extends (Ne.symm uncleared.1)).trans (ih (w.react e) uncleared.2)

theorem exists_blank (events : List ConsoleEvent) :
    ∃ blank : Transcript, blank.entries = [] ∧ blank.stopped = false ∧
    blank.Extends (empty.through events).transcript := by
  induction events using List.reverseRecOn with
  | nil => exact ⟨.empty, rfl, rfl, .refl _⟩
  | append_singleton events e ih =>
    rw [through_append]
    by_cases he : e = .clear
    · subst he
      exact ⟨(empty.through events).transcript.clear, rfl, rfl, .refl _⟩
    · obtain ⟨blank, entries, writable, behind⟩ := ih
      exact ⟨blank, entries, writable, behind.trans (react_extends _ he)⟩

structure Chronicle (events : List ConsoleEvent) (w : Workbench) : Prop where
  /-- What was sent since the last clear is what the transcript holds. -/
  sent_since : ∀ before later, events = before ++ .clear :: later → .clear ∉ later →
    w.transcript.sent = (empty.through before).transcript.sent ++ w.transcript.entries
  sent_uncleared : .clear ∉ events → w.transcript.sent = w.transcript.entries
  /-- Without a clear lines are only added, and a listener that does not fall behind hears these and
  no others. -/
  added : ∀ before later, events = before ++ later → .clear ∉ later →
    ∃ lines, w.transcript.entries = (empty.through before).transcript.entries ++ lines ∧
      (lines.length ≤ Transcript.window →
        w.transcript.heardSince (empty.through before).transcript.sent.length = (0, lines))
  last : w.transcript.stopped = true → w.transcript.entries.getLast? = some .stopMarker
  pushed_iff :
      ∀ e, w.transcript.Wrote [e] (w.react (.push e)).transcript ↔ w.transcript.stopped = false
  marked_iff : w.transcript.Wrote [.stopMarker] (w.react .markStopped).transcript ↔
      w.transcript.stopped = false
  told_iff : w.transcript.mark.1 = true ↔ w.transcript.stopped = false
  marked : (w.react .markStopped).transcript.stopped = true
  /-- While it is stopped, nothing that happens changes what is written and sent, a clear apart. -/
  frozen : w.transcript.stopped = true → ∀ later, .clear ∉ later →
      (w.through later).transcript = w.transcript
  /-- A clear is what makes it accept lines again. -/
  cleared : (w.react .clear).transcript.stopped = false ∧ (w.react .clear).transcript.entries = [] ∧
    (w.react .clear).transcript.sent = w.transcript.sent

/-- Whatever tasks and callers do to a console and in whatever order, its transcript is a log of
what was sent that ends in the marker once it is stopped. -/
theorem chronicle_through (events : List ConsoleEvent) :
    Chronicle events (empty.through events) where
  sent_since before later he uncleared := by
    subst he
    rw [through_append]
    obtain ⟨lines, wrote⟩ := (((empty.through before).react .clear).through_extends uncleared).wrote
    have entries :
      (((empty.through before).react .clear).through later).transcript.entries = [] ++ lines :=
      wrote.entries
    exact wrote.sent.trans (by rw [← List.nil_append lines, ← entries]; rfl)
  sent_uncleared uncleared := by
    obtain ⟨lines, wrote⟩ := (empty.through_extends uncleared).wrote
    exact wrote.sent.trans wrote.entries.symm
  added before later he uncleared := by
    subst he
    rw [through_append]
    obtain ⟨lines, wrote⟩ := ((empty.through before).through_extends uncleared).wrote
    refine ⟨lines, wrote.entries, fun within => ?_⟩
    rw [Transcript.heardSince_of_le, wrote.sent, List.drop_left]
    rwa [wrote.sent, List.length_append, Nat.add_sub_cancel_left]
  last stopped := by
    obtain ⟨blank, -, writable, behind⟩ := exists_blank events
    exact behind.marked writable stopped
  pushed_iff e := Transcript.wrote_push_iff _ e
  marked_iff := by
    rw [react, Transcript.snd_mark]
    exact Transcript.wrote_markStopped_iff _
  told_iff := by rw [Transcript.fst_mark, Bool.not_eq_true']
  marked := by
    rw [react, Transcript.snd_mark]
    exact Transcript.stopped_markStopped _
  frozen stopped later uncleared := (through_extends _ uncleared).frozen stopped
  cleared := ⟨rfl, rfl, rfl⟩

/-- A run that is stopped between its two lines. -/
example : (empty.through [.start (.ofSource .python .perCall "print(1)\nprint(2)".toList), .tick 0,
      .tick 0, .markStopped,
    .poll 0]).transcript.entries = [.output "1".toList, .stopMarker] := by
  decide +kernel

end Workbench

end SourcePreview
