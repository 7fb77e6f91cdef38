import Mathlib.Data.List.Induction
import SourcePreview.Proofs.Console.Request

/-! What is promised to those who ask over one coordinator, after any history of events: one request
is pending at a time and others are refused, a submission reaches the very request that was pending,
each request settles once, with the empty text just when it was cancelled, and the prompt that is
shown is the pending one (`protocol_after`). -/

namespace SourcePreview.Workbench

variable {w : Workbench} {e : InputEvent} {i : Nat} {answer : Text} {events : List InputEvent}

theorem after_append (w : Workbench) (xs ys : List InputEvent) :
    w.after (xs ++ ys) = (w.after xs).after ys :=
  List.foldl_append

def Gone (w : Workbench) (i : Nat) : Prop := i < w.tasks.length ∧ w.tasks.task? i = none

theorem length_poll (w : Workbench) (i : Nat) : (w.poll i).tasks.length = w.tasks.length := by
  unfold poll
  cases w.tasks.task? i with
  | none => rfl
  | some task => exact List.length_set

theorem length_drop (w : Workbench) (i : Nat) :
    (w.step (.drop i)).tasks.length = w.tasks.length := by
  rw [drop_eq]
  cases w.tasks.task? i with
  | none => rfl
  | some task => exact List.length_set

theorem Gone.step (h : w.Gone i) (e : InputEvent) : (w.step e).Gone i := by
  obtain ⟨hi, hn⟩ := h
  cases e with
  | request prompt =>
    exact ⟨by simp [Workbench.step, start]; omega, (Pool.task?_concat_of_lt hi _).trans hn⟩
  | nextPrompt =>
    exact ⟨by simp [Workbench.step, start]; omega, (Pool.task?_concat_of_lt hi _).trans hn⟩
  | submit text => exact ⟨hi, hn⟩
  | cancel => exact ⟨hi, hn⟩
  | poll j =>
    refine ⟨by rw [Workbench.step, length_poll]; exact hi, ?_⟩
    rw [Workbench.step, poll]
    cases hj : w.tasks.task? j with
    | none => exact hn
    | some task =>
      have hne : i ≠ j := by
        rintro rfl
        rw [hn] at hj
        cases hj
      exact (Pool.task?_set_of_ne hne _).trans hn
  | drop j =>
    refine ⟨by rw [length_drop]; exact hi, ?_⟩
    rw [drop_eq]
    cases hj : w.tasks.task? j with
    | none => exact hn
    | some task =>
      have hne : i ≠ j := by
        rintro rfl
        rw [hn] at hj
        cases hj
      exact (Pool.task?_set_of_ne hne _).trans hn

theorem Gone.after (h : w.Gone i) (events : List InputEvent) : (w.after events).Gone i := by
  induction events generalizing w with
  | nil => exact h
  | cons e events ih => exact ih (h.step e)

theorem Gone.settlement? (h : w.Gone i) : w.settlement? i = none := by
  rw [Workbench.settlement?, h.2]
  rfl

theorem gone_put (console : Console) (hi : w.tasks.task? i ≠ none) :
    (w.put console i none).Gone i := by
  refine ⟨?_, Pool.task?_set_self hi none⟩
  rw [put, List.length_set]
  exact Pool.lt_of_task? hi

theorem Orderly.gone_poll (h : w.Orderly) (hs : w.settlement? i ≠ none) : (w.poll i).Gone i := by
  have ht := h.turn i
  generalize w.poll i = w', w.settlement? i = settled at ht hs
  cases ht with
  | absent => exact absurd rfl hs
  | asks => exact absurd rfl hs
  | refused created => exact gone_put _ (by simp [created])
  | waits => exact absurd rfl hs
  | takes holds => exact gone_put _ holds.open
  | watches => exact absurd rfl hs
  | sees watcher => exact gone_put _ (by simp [watcher])

theorem Owes.settlement? (h : w.Owes i answer) :
    w.settlement? i = some (.request (.result answer)) := by
  obtain ⟨k, hk, ha⟩ := h
  rw [settlement?_of_task? hk, Task.poll_asked, ha]
  rfl

theorem Owes.step (h : w.Orderly) (ho : w.Owes i answer) (hp : e ≠ .poll i) (hd : e ≠ .drop i) :
    (w.step e).Owes i answer := by
  obtain ⟨k, hk, ha⟩ := ho
  have change := h.change e
  generalize w.step e = w' at change
  cases change with
  | still input holds => exact ⟨k, (holds i k).2 hk, by rw [input, ha]⟩
  | asks prompt idle input holds => exact ⟨k, (holds i k).2 (Or.inl hk), by rw [input]; exact ha⟩
  | resolves answers pending input holds =>
    have hne : k ≠ _ := (h.serves.sound.ticket_ne ha pending).symm
    exact ⟨k, (holds i k).2 hk, by rw [input, Coordinator.answer?_resolve_of_ne hne, ha]⟩
  | @leaves _ j l ends held input holds =>
    have hji : i ≠ j := by
      rintro rfl
      exact ends.elim hp hd
    have hkl : k ≠ l := by
      rintro rfl
      exact hji (h.serves.apart i j k hk held)
    exact ⟨k, (holds i k).2 ⟨hk, hji⟩, by rw [input, Coordinator.answer?_abandon_of_ne hkl, ha]⟩

theorem Owes.after (h : w.Orderly) (ho : w.Owes i answer) (hp : .poll i ∉ events)
    (hd : .drop i ∉ events) :
    (w.after events).Owes i answer := by
  induction events generalizing w with
  | nil => exact ho
  | cons e events ih =>
    rw [List.mem_cons, not_or] at hp hd
    exact ih (h.step e) (ho.step h (Ne.symm hp.1) (Ne.symm hd.1)) hp.2 hd.2

theorem Owes.step_or_gone (h : w.Orderly) (ho : w.Owes i answer) (e : InputEvent) :
    (w.step e).Owes i answer ∨ (w.step e).Gone i := by
  by_cases hp : e = .poll i
  · right
    rw [hp]
    exact h.gone_poll (by simp [ho.settlement?])
  by_cases hd : e = .drop i
  · obtain ⟨k, hk, -⟩ := ho
    right
    rw [hd, drop_eq, hk]
    exact gone_put _ hk.open
  · exact Or.inl (ho.step h hp hd)

theorem Owes.after_or_gone (h : w.Orderly) (ho : w.Owes i answer) (events : List InputEvent) :
    (w.after events).Owes i answer ∨ (w.after events).Gone i := by
  induction events generalizing w with
  | nil => exact Or.inl ho
  | cons e events ih =>
    rcases ho.step_or_gone h e with ho | hg
    · exact ih (h.step e) ho
    · exact Or.inr (hg.after events)

theorem step_of_answer? {r : Request} (hr : w.console.input.pending = some r)
    (he : e.answer? = some answer) :
    w.step e = w.withInput (w.console.input.resolve r answer) := by
  cases e with
  | submit text =>
    by_cases ht : Text.trim text = []
    · simp [InputEvent.answer?, ht] at he
    · simp only [InputEvent.answer?, ht, if_false, Option.some.injEq] at he
      rw [step, Coordinator.submit_of_filled hr ht, he]
  | cancel =>
    obtain rfl := Option.some.inj he
    simp [step, Coordinator.cancel, hr]
  | request prompt => cases he
  | nextPrompt => cases he
  | poll j => cases he
  | drop j => cases he

theorem Awaits.owes (h : w.Orderly) (ha : w.Awaits i) (he : e.answer? = some answer) :
    (w.step e).Owes i answer := by
  obtain ⟨r, hr, hi⟩ := ha
  rw [step_of_answer? hr he]
  exact ⟨r.ticket, hi, Coordinator.answer?_resolve_self ((h.serves.attended r hr).2 ⟨i, hi⟩)⟩

theorem Orderly.owes_step (h : w.Orderly) (ho : (w.step e).Owes i answer) :
    w.Owes i answer ∨ w.Awaits i ∧ e.answer? = some answer := by
  obtain ⟨k, hk, ha⟩ := ho
  have change := h.change e
  generalize w.step e = w' at change hk ha
  cases change with
  | still input holds =>
    rw [input] at ha
    exact Or.inl ⟨k, (holds i k).1 hk, ha⟩
  | asks prompt idle input holds =>
    rw [input] at ha
    rcases (holds i k).1 hk with hk | ⟨-, rfl⟩
    · exact Or.inl ⟨k, hk, ha⟩
    · -- no answer waits under a ticket that was not given out
      obtain ⟨as, bs, hc, -⟩ := List.lookup_eq_some_iff.1 ha
      exact absurd (h.serves.sound.answered (_, answer) (by
        change (_, answer) ∈ (w.console.input.awaiting prompt).answers
        simp [hc])) (Nat.lt_irrefl _)
  | @resolves _ r given answers pending input holds =>
    rw [input] at ha
    have hk := (holds i k).1 hk
    by_cases hr : k = r.ticket
    · subst hr
      rw [Coordinator.answer?_resolve_self ((h.serves.attended r pending).2 ⟨i, hk⟩)] at ha
      obtain rfl := Option.some.inj ha
      exact Or.inr ⟨⟨r, pending, hk⟩, answers⟩
    · rw [Coordinator.answer?_resolve_of_ne hr] at ha
      exact Or.inl ⟨k, hk, ha⟩
  | @leaves _ j l ends held input holds =>
    rw [input] at ha
    obtain ⟨hk, hji⟩ := (holds i k).1 hk
    have hkl : k ≠ l := by
      rintro rfl
      exact hji (h.serves.apart i j k hk held)
    rw [Coordinator.answer?_abandon_of_ne hkl] at ha
    exact Or.inl ⟨k, hk, ha⟩

/-- Whether an event of a history came while the request of a task was pending. -/
def ResolvedBy (events : List InputEvent) (i : Nat) (e : InputEvent) : Prop :=
  ∃ before later, events = before ++ e :: later ∧ (empty.after before).Awaits i

theorem resolvedBy_of_owes (ho : (empty.after events).Owes i answer) :
    ∃ e, e.answer? = some answer ∧ ResolvedBy events i e := by
  -- on the last event: the answer came with it or was there before
  induction events using List.reverseRecOn with
  | nil =>
    obtain ⟨k, hk, -⟩ := ho
    cases hk
  | append_singleton events last ih =>
    rw [after_append] at ho
    rcases (orderly_empty.after events).owes_step ho with ho | ⟨ha, he⟩
    · obtain ⟨e, he, before, later, rfl, ha⟩ := ih ho
      exact ⟨e, he, before, later ++ [last], by simp, ha⟩
    · exact ⟨last, he, events, [], rfl, ha⟩

theorem eq_nil_of_resolvedBy_cancel (hr : ResolvedBy events i .cancel)
    (hs : (empty.after events).settlement? i = some (.request (.result answer))) : answer = [] := by
  obtain ⟨before, later, rfl, ha⟩ := hr
  have h := orderly_empty.after before
  rw [after_append] at hs
  rcases (ha.owes h (rfl : InputEvent.cancel.answer? = some [])).after_or_gone (h.step .cancel)
    later with ho | hg
  · have := ho.settlement?.symm.trans hs
    simpa using this.symm
  · have := hg.settlement?.symm.trans hs
    cases this

theorem Orderly.settlement_request (h : w.Orderly) {ending : Ending Text}
    (hs : w.settlement? i = some (.request ending)) :
    ending = .refused .requestPending ∧ w.console.input.pending ≠ none ∨
      ∃ answer, ending = .result answer ∧ w.Owes i answer := by
  have ht := h.turn i
  generalize w.poll i = w' at ht
  rw [hs] at ht
  cases ht with
  | refused created busy => exact Or.inl ⟨rfl, busy⟩
  | takes holds answered => exact Or.inr ⟨_, rfl, _, holds, answered⟩

theorem Orderly.settlement_nextPrompt (h : w.Orderly) (hi : w.tasks.task? i = some .nextPrompt) :
    w.settlement? i = w.console.input.prompt?.map .nextPrompt := by
  rw [settlement?_of_task? hi, Task.poll_nextPrompt, ← h.serves.watched]
  cases w.console.input.watched <;> rfl

theorem Orderly.attended_iff (h : w.Orderly) :
    (∃ r, w.console.input.pending = some r ∧ r.attended = true) ↔ ∃ i, w.Awaits i := by
  constructor
  · rintro ⟨r, hr, ha⟩
    obtain ⟨i, hi⟩ := (h.serves.attended r hr).1 ha
    exact ⟨i, r, hr, hi⟩
  · rintro ⟨i, r, hr, hi⟩
    exact ⟨r, hr, (h.serves.attended r hr).2 ⟨i, hi⟩⟩

theorem resolvedBy_cancel_of_settlement
    (hs : (empty.after events).settlement? i = some (.request (.result []))) :
    ResolvedBy events i .cancel := by
  rcases (orderly_empty.after events).settlement_request hs with ⟨he, -⟩ | ⟨answer, he, ho⟩
  · cases he
  cases he
  obtain ⟨e, he, hr⟩ := resolvedBy_of_owes ho
  rwa [InputEvent.eq_cancel_of_answer? he] at hr

theorem Orderly.single (h : w.Orderly) (i j : Nat) (hi : w.Awaits i) (hj : w.Awaits j) : i = j := by
  obtain ⟨r, hr, hi⟩ := hi
  obtain ⟨r', hr', hj⟩ := hj
  obtain rfl := Option.some.inj (hr.symm.trans hr')
  exact h.serves.apart i j r.ticket hi hj

theorem asks_of_created {prompt : Text} (hi : w.tasks.task? i = some (.ofPrompt prompt))
    (hc : w.console.input.pending = none) :
    w.settlement? i = none ∧ (w.poll i).Awaits i ∧
    (w.poll i).console.input.prompt? = some prompt := by
  have ht := Task.poll_created_idle w.cancelled hc prompt
  have hn : w.tasks.task? i ≠ none := by simp [hi]
  rw [settlement?_of_task? hi, poll_of_task? hi, ht]
  exact ⟨rfl, ⟨_, rfl, (holds_put_self hn).2 rfl⟩, rfl⟩

theorem refused_of_created {prompt : Text} (hi : w.tasks.task? i = some (.ofPrompt prompt))
    (hc : w.console.input.pending ≠ none) :
    w.settlement? i = some (.request (.refused .requestPending)) ∧
    (w.poll i).console = w.console := by
  rw [settlement?_of_task? hi, poll_of_task? hi, Task.poll_created_busy w.cancelled hc prompt]
  exact ⟨rfl, rfl⟩

theorem Orderly.kept {k : Ticket} (h : w.Orderly) (hk : w.Holds i k) :
    w.Awaits i ∨ ∃ answer, w.Owes i answer := by
  rcases h.serves.owed i k hk with ⟨r, hr, rfl⟩ | ⟨answer, ha⟩
  · exact Or.inl ⟨r, hr, hk⟩
  · exact Or.inr ⟨answer, k, hk, ha⟩

theorem Orderly.abandoned_refuses (h : w.Orderly) (hc : w.console.input.pending ≠ none)
    (ha : ∀ i, ¬ w.Awaits i) (text : Text) (ht : Text.trim text ≠ []) :
    (w.console.input.submit text).1 = .error .notAwaiting ∧
    (w.console.input.submit text).2.isIdle = true := by
  obtain ⟨r, hr⟩ := Option.ne_none_iff_exists'.1 hc
  have hn : r.attended = false := by
    rw [← Bool.not_eq_true]
    intro hb
    obtain ⟨i, hi⟩ := h.attended_iff.1 ⟨r, hr, hb⟩
    exact ha i hi
  rw [Coordinator.submit_of_filled hr ht, hn]
  exact ⟨rfl, rfl⟩

/-- What holds between a coordinator and those who use it, after a history of events. -/
structure Protocol (events : List InputEvent) (w : Workbench) : Prop where
  single : ∀ i j, w.Awaits i → w.Awaits j → i = j
  asks : ∀ i prompt, w.tasks.task? i = some (.ofPrompt prompt) → w.console.input.pending = none →
    w.settlement? i = none ∧ (w.poll i).Awaits i ∧ (w.poll i).console.input.prompt? = some prompt
  refused : ∀ i prompt, w.tasks.task? i = some (.ofPrompt prompt) → w.console.input.pending ≠ none →
    w.settlement? i = some (.request (.refused .requestPending)) ∧ (w.poll i).console = w.console
  /-- A task that asked is the one that is pending, or its answer waits. -/
  kept : ∀ i k, w.Holds i k → w.Awaits i ∨ ∃ answer, w.Owes i answer
  accepted_iff :
      ∀ text, (w.console.input.submit text).1 = .ok () ↔ (∃ i, w.Awaits i) ∧ Text.trim text ≠ []
  /-- A request that is resolved settles at its next poll with the answer it got. -/
  delivered :
      ∀ i e answer later, w.Awaits i → e.answer? = some answer → .poll i ∉ later → .drop i ∉ later →
    ((w.step e).after later).settlement? i = some (.request (.result answer))
  once : ∀ i, w.settlement? i ≠ none → ∀ later, ((w.poll i).after later).settlement? i = none
  settles : ∀ i ending, w.settlement? i = some (.request ending) →
    ending = .refused .requestPending ∧ w.console.input.pending ≠ none ∨
      ∃ e answer, ending = .result answer ∧ e.answer? = some answer ∧ ResolvedBy events i e
  empty_iff : ∀ i answer, w.settlement? i = some (.request (.result answer)) →
    (answer = [] ↔ ResolvedBy events i .cancel)
  idle_refuses : w.console.input.pending = none →
      ∀ text, w.console.input.submit text = (.error .notAwaiting, w.console.input)
  blank_refused : w.console.input.pending ≠ none → ∀ text, Text.trim text = [] →
    w.console.input.submit text = (.error .emptySubmission, w.console.input)
  abandoned_refuses :
      w.console.input.pending ≠ none → (∀ i, ¬ w.Awaits i) → ∀ text, Text.trim text ≠ [] →
    (w.console.input.submit text).1 = .error .notAwaiting ∧
    (w.console.input.submit text).2.isIdle = true
  watched : w.console.input.watched = w.console.input.prompt?
  next_prompt : ∀ i, w.tasks.task? i = some .nextPrompt →
      w.settlement? i = w.console.input.prompt?.map .nextPrompt

/-- The protocol of requests holds after every history of requests, submissions, cancels, polls and
drops. -/
theorem protocol_after (events : List InputEvent) : Protocol events (empty.after events) where
  single := (orderly_empty.after events).single
  asks i prompt := asks_of_created
  refused i prompt := refused_of_created
  kept i k := (orderly_empty.after events).kept
  accepted_iff text := by
    rw [Coordinator.submit_eq_ok_iff, (orderly_empty.after events).attended_iff]
  delivered i e answer later ha he hp hd := by
    have h := orderly_empty.after events
    exact ((ha.owes h he).after (h.step e) hp hd).settlement?
  once i hs later := (((orderly_empty.after events).gone_poll hs).after later).settlement?
  settles i ending hs := by
    rcases (orderly_empty.after events).settlement_request hs with hb | ⟨answer, rfl, ho⟩
    · exact Or.inl hb
    · obtain ⟨e, he, hr⟩ := resolvedBy_of_owes ho
      exact Or.inr ⟨e, answer, rfl, he, hr⟩
  empty_iff i answer hs := by
    constructor
    · rintro rfl
      exact resolvedBy_cancel_of_settlement hs
    · intro hr
      exact eq_nil_of_resolvedBy_cancel hr hs
  idle_refuses := Coordinator.submit_of_idle
  blank_refused hc text := Coordinator.submit_of_blank hc
  abandoned_refuses := (orderly_empty.after events).abandoned_refuses
  watched := (orderly_empty.after events).serves.watched
  next_prompt i := (orderly_empty.after events).settlement_nextPrompt

end SourcePreview.Workbench
