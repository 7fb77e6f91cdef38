import SourcePreview.Proofs.Console.Request

/-! Cancelling a run that waits at a question. A run that was polled and is not over has asked and
holds a ticket (`asked_of_polled`); what comes before its next poll touches neither it nor the
transcript, and a poll that finds it cancelled takes no answer, even if one is there
(`cancelled_settles`). -/

namespace SourcePreview

/-- What can happen to a run that has a workbench to itself. -/
inductive RunEvent where
  | poll
  | submit (text : Text)
  | cancelInput
  | cancel
  deriving DecidableEq

variable {α : Type}

/-- Where a poll leaves a dialogue: at its end, or at a question. -/
inductive Stand.Halted : Stand α → Prop where
  | settled {c : Console} {sent : Text} (ending : Ending α) : Halted ⟨c, sent, .settled ending⟩
  | asked {c : Console} {sent : Text} (ticket : Ticket) (next : Text → Dialogue α) :
    Halted ⟨c, sent, .moved (.asked ticket next)⟩

theorem Dialogue.advance_halted (d : Dialogue α) (cancelled : Bool) (c : Console) (sent : Text) :
    (d.advance cancelled c sent).Halted := by
  induction d generalizing c sent with
  | done a => exact .settled _
  | say e next ih => exact ih (c.push e) sent
  | send text next ih => exact ih c (sent ++ text)
  | check next ih =>
    rw [advance]
    split
    · exact .settled _
    · exact ih c sent
  | ask prompt next ih =>
    rw [advance]
    split
    · exact .settled _
    · split
      · exact .settled _
      · exact .asked _ next

theorem Talk.advance_halted (t : Talk α) (cancelled : Bool) (c : Console) (sent : Text) :
    (t.advance cancelled c sent).Halted ∨
      (∃ ticket next, t = .asked ticket next) ∧
      (t.advance cancelled c sent).progress = .waiting := by
  cases t with
  | ready d => exact Or.inl (d.advance_halted cancelled c sent)
  | asked ticket next =>
    rw [advance]
    split
    · exact Or.inl (.settled _)
    · split
      · exact Or.inr ⟨⟨ticket, next, rfl⟩, rfl⟩
      · exact Or.inl (Dialogue.advance_halted _ cancelled _ sent)

theorem Talk.advance_cancelled (c : Console) (sent : Text) (ticket : Ticket)
    (next : Text → Dialogue α) :
    (asked ticket next).advance true c sent = ⟨c.cancelInput.abandon ticket, sent,
      .settled .cancelled⟩ := rfl

namespace Workbench

def ofRun (d : Dialect) (mode : InputMode) (source : Text) : Workbench :=
  (empty.start (.ofSource d mode source)).2

def follow (w : Workbench) : RunEvent → Workbench
  | .poll => w.poll 0
  | .submit text => w.step (.submit text)
  | .cancelInput => w.step .cancel
  | .cancel => w.cancel

def behind (w : Workbench) (events : List RunEvent) : Workbench := events.foldl follow w

def Asked (w : Workbench) : Prop :=
  ∃ ticket next, w.tasks.task? 0 = some (.run (.asked ticket next))

variable {w : Workbench} {e : RunEvent} {events : List RunEvent}

theorem behind_append (w : Workbench) (xs ys : List RunEvent) :
    w.behind (xs ++ ys) = (w.behind xs).behind ys :=
  List.foldl_append

theorem follow_of_ne_poll (he : e ≠ .poll) :
    (w.follow e).tasks = w.tasks ∧ (w.follow e).console.transcript = w.console.transcript := by
  cases e with
  | poll => exact absurd rfl he
  | submit text => exact ⟨rfl, rfl⟩
  | cancelInput => exact ⟨rfl, rfl⟩
  | cancel => exact ⟨rfl, rfl⟩

theorem behind_of_unpolled (unpolled : .poll ∉ events) :
    (w.behind events).tasks = w.tasks ∧
    (w.behind events).console.transcript = w.console.transcript := by
  induction events generalizing w with
  | nil => exact ⟨rfl, rfl⟩
  | cons e events ih =>
    rw [List.mem_cons, not_or] at unpolled
    obtain ⟨tasks, transcript⟩ := follow_of_ne_poll (w := w) (Ne.symm unpolled.1)
    obtain ⟨tasks', transcript'⟩ := ih (w := w.follow e) unpolled.2
    exact ⟨tasks'.trans tasks, transcript'.trans transcript⟩

theorem cancelled_follow (hc : w.cancelled = true) (e : RunEvent) :
    (w.follow e).cancelled = true := by
  cases e with
  | poll =>
    rw [follow, poll]
    cases w.tasks.task? 0 with
    | none => exact hc
    | some task => exact hc
  | submit text => exact hc
  | cancelInput => exact hc
  | cancel => rfl

theorem cancelled_behind (hc : w.cancelled = true ∨ .cancel ∈ events) :
    (w.behind events).cancelled = true := by
  induction events generalizing w with
  | nil => exact hc.resolve_right List.not_mem_nil
  | cons e events ih =>
    apply ih (w := w.follow e)
    rcases hc with hc | hc
    · exact Or.inl (cancelled_follow hc e)
    · rcases List.mem_cons.1 hc with rfl | hc
      · exact Or.inl rfl
      · exact Or.inr hc

theorem poll_run {talk : Talk (Except Overwide Unit)} (ht : w.tasks.task? 0 = some (.run talk)) :
    (w.poll 0).tasks.task? 0 = none ∨ (w.poll 0).Asked := by
  have hn : w.tasks.task? 0 ≠ none := by simp [ht]
  rw [poll_of_task? ht, Task.poll]
  have halted := talk.advance_halted w.cancelled w.console []
  generalize talk.advance w.cancelled w.console [] = stand at halted
  rcases halted with halted | ⟨⟨ticket, next, rfl⟩, waiting⟩
  · cases halted with
    | settled ending => exact Or.inl (Pool.task?_set_self hn none)
    | asked ticket next => exact Or.inr ⟨ticket, next, Pool.task?_set_self hn _⟩
  · obtain ⟨c, sent, progress⟩ := stand
    obtain rfl : progress = .waiting := waiting
    exact Or.inr ⟨ticket, next, Pool.task?_set_self hn _⟩

theorem polled_follow (h : w.tasks.task? 0 = none ∨ w.Asked) (e : RunEvent) :
    (w.follow e).tasks.task? 0 = none ∨ (w.follow e).Asked := by
  by_cases he : e = .poll
  · subst he
    rcases h with hn | ⟨ticket, next, ht⟩
    · left
      rw [follow, poll, hn]
      exact hn
    · exact poll_run ht
  · obtain ⟨tasks, -⟩ := follow_of_ne_poll (w := w) he
    unfold Asked
    rw [tasks]
    exact h

theorem polled_behind (h : w.tasks.task? 0 = none ∨ w.Asked) (events : List RunEvent) :
    (w.behind events).tasks.task? 0 = none ∨ (w.behind events).Asked := by
  induction events generalizing w with
  | nil => exact h
  | cons e events ih => exact ih (polled_follow h e)

/-- A run that was polled and is not over waits at a question. -/
theorem asked_of_polled (d : Dialect) (mode : InputMode) (source : Text) (polled : .poll ∈ events)
    (underway : ((ofRun d mode source).behind events).tasks.task? 0 ≠ none) :
    ((ofRun d mode source).behind events).Asked := by
  -- the first poll finds the run as it was started
  obtain ⟨before, later, rfl, first⟩ := List.eq_append_cons_of_mem polled
  obtain ⟨tasks, -⟩ := behind_of_unpolled (w := ofRun d mode source) first
  have started :
      ((ofRun d mode source).behind before).tasks.task? 0 =
        some (.run (.ready (preview d mode source))) := by
    rw [tasks]
    rfl
  rw [behind_append] at underway ⊢
  exact (polled_behind (poll_run started) later).resolve_left underway

/-- A run that is cancelled while it waits at a question settles so at its next poll. Whatever was
submitted or cancelled before that poll, the transcript is the one that the run left at the
question, and nothing remains pending. -/
theorem cancelled_settles (d : Dialect) (mode : InputMode) (source : Text)
    (history events : List RunEvent) (polled : .poll ∈ history)
    (underway : ((ofRun d mode source).behind history).tasks.task? 0 ≠ none)
    (cancelled : .cancel ∈ events) (unpolled : .poll ∉ events) :
    let suspended := (ofRun d mode source).behind history
    let w := suspended.behind events
    suspended.Asked ∧ w.settlement? 0 = some (.run .cancelled) ∧
      (w.poll 0).console.transcript = suspended.console.transcript ∧
      (w.poll 0).console.input.isIdle = true ∧ (w.poll 0).tasks.task? 0 = none := by
  intro suspended w
  have asked : suspended.Asked := asked_of_polled d mode source polled underway
  obtain ⟨ticket, next, ht⟩ := id asked
  obtain ⟨tasks, transcript⟩ : w.tasks = suspended.tasks ∧
    w.console.transcript = suspended.console.transcript :=
    behind_of_unpolled unpolled
  rw [← tasks] at ht
  have hn : w.tasks.task? 0 ≠ none := by simp [ht]
  have hc : w.cancelled = true := cancelled_behind (Or.inr cancelled)
  rw [settlement?_of_task? ht, poll_of_task? ht, Task.poll, hc, Talk.advance_cancelled]
  refine ⟨asked, rfl, transcript, ?_, Pool.task?_set_self hn none⟩
  rw [Coordinator.isIdle, Option.isNone_iff_eq_none]
  change (w.console.input.cancel.abandon ticket).pending = none
  rw [Coordinator.abandon, Coordinator.pending_cancel]
  rfl

/-- The second of two questions that are asked ahead has its answer when the run is cancelled. -/
theorem cancelled_settles_of_answered :
    let source :=
      "print(\"open\", end=\"\")\nx = input(\"x\")\ny = int(input(\"y\"))\nprint(x)".toList
    let history := [.poll, .submit " 1 ".toList, .poll]
    let events := [.submit "2".toList, .cancel, .cancelInput]
    let suspended := (ofRun .python .batch source).behind history
    let w := suspended.behind events
    suspended.console.input.prompt? = some "y".toList ∧ w.settlement? 0 = some (.run .cancelled) ∧
      (w.poll 0).console.transcript.entries = [] ∧ (w.poll 0).console.input.isIdle = true := by
  intro source history events suspended w
  have underway : suspended.tasks.task? 0 ≠ none := by decide +kernel
  obtain ⟨-, settles, transcript, idle, -⟩ :=
    cancelled_settles .python .batch source history events (by decide) underway (by decide)
      (by decide)
  refine ⟨by decide +kernel, settles, ?_, idle⟩
  rw [transcript]
  decide +kernel

end Workbench

end SourcePreview
