import SourcePreview.Proofs.Console.Holder
import SourcePreview.Proofs.Pool
import SourcePreview.Workbench

/-! Requests over one coordinator, as a system that takes one event after the other in any order:
requests are made, polled and dropped, the pending one is answered or cancelled, and others wait for
the next prompt. `Workbench.change` says once what an event does to the coordinator and to the
tickets that are held; what holds of all histories follows from it. -/

namespace SourcePreview

/-- What can happen to a coordinator and those who use it. -/
inductive InputEvent where
  | request (prompt : Text)
  | nextPrompt
  | submit (text : Text)
  | cancel
  | poll (i : Nat)
  | drop (i : Nat)
  deriving DecidableEq

def InputEvent.answer? : InputEvent → Option Text
  | .submit text => if Text.trim text = [] then none else some (Text.trim text)
  | .cancel => some []
  | _ => none

theorem InputEvent.eq_cancel_of_answer? {e : InputEvent} (h : e.answer? = some []) :
    e = .cancel := by
  cases e with
  | cancel => rfl
  | submit text =>
    by_cases ht : Text.trim text = [] <;> simp [answer?, ht] at h
  | request prompt => cases h
  | nextPrompt => cases h
  | poll i => cases h
  | drop i => cases h

inductive Task.Simple : Task → Prop where
  | created (prompt : Text) : Simple (.ofPrompt prompt)
  | asked (k : Ticket) : Simple (.request (.asked k .done))
  | nextPrompt : Simple .nextPrompt

namespace Task

variable {c : Console} (cancelled : Bool)

theorem poll_created_idle (hc : c.input.pending = none) (prompt : Text) :
    (ofPrompt prompt).poll cancelled c =
    ({ c with input := c.input.awaiting prompt },
      .moved (.request (.asked c.input.fresh .done))) := by
  have hr := Coordinator.request_of_idle hc prompt
  simp [ofPrompt, poll, Talk.advance, Dialogue.advance, hr]

theorem poll_created_busy (hc : c.input.pending ≠ none) (prompt : Text) :
    (ofPrompt prompt).poll cancelled c = (c, .settled (.request (.refused .requestPending))) := by
  obtain ⟨r, hr⟩ := Option.ne_none_iff_exists'.1 hc
  simp [ofPrompt, poll, Talk.advance, Dialogue.advance, Coordinator.request, hr]

theorem poll_asked (c : Console) (k : Ticket) : (request (.asked k .done)).poll cancelled c =
    match c.input.answer? k with
    | none => (c, .waiting)
    | some answer => (c.abandon k, .settled (.request (.result answer))) := by
  cases ha : c.input.answer? k <;> simp [poll, Talk.advance, Dialogue.advance, ha]

theorem poll_nextPrompt (c : Console) : nextPrompt.poll cancelled c =
    match c.input.watched with
    | none => (c, .waiting)
    | some prompt => (c, .settled (.nextPrompt prompt)) := by
  unfold poll
  cases c.input.watched <;> rfl

end Task

namespace Workbench

def put (w : Workbench) (console : Console) (i : Nat) (task : Option Task) : Workbench :=
  { w with console, tasks := w.tasks.set i task }

def poll (w : Workbench) (i : Nat) : Workbench :=
  match w.tasks.task? i with
  | none => w
  | some task =>
    w.put (task.poll w.cancelled w.console).1 i ((task.poll w.cancelled w.console).2.rest task)

def settlement? (w : Workbench) (i : Nat) : Option Settlement :=
  (w.tasks.task? i).bind fun task => (task.poll w.cancelled w.console).2.result?

def withInput (w : Workbench) (input : Coordinator) : Workbench :=
  { w with console := { w.console with input } }

def step (w : Workbench) : InputEvent → Workbench
  | .request prompt => (w.start (.ofPrompt prompt)).2
  | .nextPrompt => (w.start .nextPrompt).2
  | .submit text => w.withInput (w.console.input.submit text).2
  | .cancel => w.withInput w.console.input.cancel
  | .poll i => w.poll i
  | .drop i => (w.drop? i).getD w

def after (w : Workbench) (events : List InputEvent) : Workbench := events.foldl step w

def Holds (w : Workbench) (i : Nat) (k : Ticket) : Prop :=
  w.tasks.task? i = some (.request (.asked k .done))

/-- Whether the pending request is that of a task, which was not dropped. -/
def Awaits (w : Workbench) (i : Nat) : Prop :=
  ∃ r, w.console.input.pending = some r ∧ w.Holds i r.ticket

def Owes (w : Workbench) (i : Nat) (answer : Text) : Prop :=
  ∃ k, w.Holds i k ∧ w.console.input.answer? k = some answer

structure Orderly (w : Workbench) : Prop where
  serves : w.console.input.Serves w.Holds
  simple : ∀ i task, w.tasks.task? i = some task → task.Simple

variable {w : Workbench} {e : InputEvent} {i j : Nat} {k : Ticket} {console : Console}
  {task : Option Task} {answer : Text}

theorem Holds.open (h : w.Holds i k) : w.tasks.task? i ≠ none := by
  rw [h]
  exact Option.some_ne_none _

theorem Holds.unique {l : Ticket} (h : w.Holds i k) (h' : w.Holds i l) : k = l := by
  have := h.symm.trans h'
  simpa using this

theorem holds_put_of_ne (hj : j ≠ i) : (w.put console i task).Holds j k ↔ w.Holds j k := by
  unfold Holds put
  rw [Pool.task?_set_of_ne hj]

theorem holds_put_self (hi : w.tasks.task? i ≠ none) :
    (w.put console i task).Holds i k ↔ task = some (.request (.asked k .done)) := by
  unfold Holds put
  rw [Pool.task?_set_self hi]

theorem holds_put_same (hi : w.tasks.task? i ≠ none)
    (hk : ∀ k, task = some (.request (.asked k .done)) ↔ w.Holds i k) (j : Nat) (k : Ticket) :
    (w.put console i task).Holds j k ↔ w.Holds j k := by
  by_cases hj : j = i
  · rw [hj, holds_put_self hi, hk]
  · exact holds_put_of_ne hj

theorem holds_put_none (hi : w.tasks.task? i ≠ none) (j : Nat) (k : Ticket) :
    (w.put console i none).Holds j k ↔ w.Holds j k ∧ j ≠ i := by
  by_cases hj : j = i
  · subst hj
    simp [holds_put_self hi]
  · simp [holds_put_of_ne hj, hj]

theorem holds_start {new : Task} (hn : ∀ k, new ≠ .request (.asked k .done)) (j : Nat)
    (k : Ticket) :
    (w.start new).2.Holds j k ↔ w.Holds j k := by
  unfold Holds start
  dsimp only
  rcases Pool.task?_concat w.tasks new j with h | ⟨rfl, h⟩
  · rw [h]
  · have hc : w.tasks.task? w.tasks.length = none := by
      apply Classical.byContradiction
      intro hc
      exact Nat.lt_irrefl _ (Pool.lt_of_task? hc)
    rw [h, hc]
    simp [hn k]

/-- What the poll of a task does: a request is made or refused, waits, or takes its answer; a wait
for the next prompt ends once there is one. -/
inductive Turn (w : Workbench) (i : Nat) : Workbench → Option Settlement → Prop where
  | absent (vacant : w.tasks.task? i = none) : Turn w i w none
  | asks {prompt : Text} (created : w.tasks.task? i = some (.ofPrompt prompt))
      (idle : w.console.input.pending = none) :
    Turn w i (w.put { w.console with input := w.console.input.awaiting prompt } i
      (some (.request (.asked w.console.input.fresh .done)))) none
  | refused {prompt : Text} (created : w.tasks.task? i = some (.ofPrompt prompt))
      (busy : w.console.input.pending ≠ none) :
    Turn w i (w.put w.console i none) (some (.request (.refused .requestPending)))
  | waits {k : Ticket} (holds : w.Holds i k) (unanswered : w.console.input.answer? k = none) :
    Turn w i (w.put w.console i (some (.request (.asked k .done)))) none
  | takes {k : Ticket} {answer : Text} (holds : w.Holds i k)
      (answered : w.console.input.answer? k = some answer) :
    Turn w i (w.put (w.console.abandon k) i none) (some (.request (.result answer)))
  | watches (watcher : w.tasks.task? i = some .nextPrompt) (idle : w.console.input.watched = none) :
    Turn w i (w.put w.console i (some .nextPrompt)) none
  | sees {prompt : Text} (watcher : w.tasks.task? i = some .nextPrompt)
      (shown : w.console.input.watched = some prompt) :
    Turn w i (w.put w.console i none) (some (.nextPrompt prompt))

theorem poll_of_task? {t : Task} (ht : w.tasks.task? i = some t) :
    w.poll i = w.put (t.poll w.cancelled w.console).1 i
    ((t.poll w.cancelled w.console).2.rest t) := by
  rw [poll, ht]

theorem settlement?_of_task? {t : Task} (ht : w.tasks.task? i = some t) :
    w.settlement? i = (t.poll w.cancelled w.console).2.result? := by
  rw [settlement?, ht, Option.bind_some]

theorem turn_of_task? {t : Task} (ht : w.tasks.task? i = some t)
    {r : Console × Progress Task Settlement} (hr : t.poll w.cancelled w.console = r)
    (h : w.Turn i (w.put r.1 i (r.2.rest t)) r.2.result?) :
    w.Turn i (w.poll i) (w.settlement? i) := by
  rw [poll_of_task? ht, settlement?_of_task? ht, hr]
  exact h

theorem Orderly.turn (h : w.Orderly) (i : Nat) : w.Turn i (w.poll i) (w.settlement? i) := by
  cases ht : w.tasks.task? i with
  | none =>
    rw [poll, settlement?, ht]
    exact .absent ht
  | some t =>
    cases h.simple i t ht with
    | created prompt =>
      cases hc : w.console.input.pending with
      | none =>
        have hr := Task.poll_created_idle w.cancelled hc prompt
        exact turn_of_task? ht hr (.asks ht hc)
      | some r =>
        have hb : w.console.input.pending ≠ none := by simp [hc]
        exact turn_of_task? ht (Task.poll_created_busy w.cancelled hb prompt) (.refused ht hb)
    | asked k =>
      have hr := Task.poll_asked w.cancelled w.console k
      cases ha : w.console.input.answer? k with
      | none =>
        rw [ha] at hr
        exact turn_of_task? ht hr (.waits ht ha)
      | some answer =>
        rw [ha] at hr
        exact turn_of_task? ht hr (.takes ht ha)
    | nextPrompt =>
      have hr := Task.poll_nextPrompt w.cancelled w.console
      cases hw : w.console.input.watched with
      | none =>
        rw [hw] at hr
        exact turn_of_task? ht hr (.watches ht hw)
      | some prompt =>
        rw [hw] at hr
        exact turn_of_task? ht hr (.sees ht hw)

theorem drop_eq (w : Workbench) (i : Nat) : w.step (.drop i) =
    match w.tasks.task? i with
    | none => w
    | some task => w.put (task.drop w.console) i none := by
  rw [step, drop?, Pool.take?_eq]
  cases w.tasks.task? i <;> rfl

inductive Change (w w' : Workbench) : InputEvent → Prop where
  | still {e : InputEvent} (input : w'.console.input = w.console.input)
      (holds : ∀ j k, w'.Holds j k ↔ w.Holds j k) :
    Change w w' e
  | asks {i : Nat} (prompt : Text) (idle : w.console.input.pending = none)
      (input : w'.console.input = w.console.input.awaiting prompt)
      (holds : ∀ j k, w'.Holds j k ↔ w.Holds j k ∨ j = i ∧ k = w.console.input.fresh) :
    Change w w' (.poll i)
  | resolves {e : InputEvent} {r : Request} {answer : Text} (answers : e.answer? = some answer)
      (pending : w.console.input.pending = some r)
      (input : w'.console.input = w.console.input.resolve r answer)
      (holds : ∀ j k, w'.Holds j k ↔ w.Holds j k) :
    Change w w' e
  | leaves {e : InputEvent} {i : Nat} {k : Ticket} (ends : e = .poll i ∨ e = .drop i)
      (held : w.Holds i k) (input : w'.console.input = w.console.input.abandon k)
      (holds : ∀ j l, w'.Holds j l ↔ w.Holds j l ∧ j ≠ i) :
    Change w w' e

theorem change_submit (w : Workbench) (text : Text) :
    w.Change (w.step (.submit text)) (.submit text) := by
  cases hc : w.console.input.pending with
  | none =>
    refine .still ?_ fun j k => Iff.rfl
    exact congrArg Prod.snd (Coordinator.submit_of_idle hc text)
  | some r =>
    by_cases ht : Text.trim text = []
    · refine .still ?_ fun j k => Iff.rfl
      exact congrArg Prod.snd (Coordinator.submit_of_blank (by simp [hc]) ht)
    · refine .resolves (if_neg ht) hc ?_ fun j k => Iff.rfl
      exact congrArg Prod.snd (Coordinator.submit_of_filled hc ht)

theorem change_cancel (w : Workbench) : w.Change (w.step .cancel) .cancel := by
  cases hc : w.console.input.pending with
  | none =>
    refine .still ?_ fun j k => Iff.rfl
    simp [step, withInput, Coordinator.cancel, hc]
  | some r =>
    refine .resolves rfl hc ?_ fun j k => Iff.rfl
    simp [step, withInput, Coordinator.cancel, hc]

theorem change_of_ticketless (e : InputEvent) {t : Task} (ht : w.tasks.task? i = some t)
    (hn : ∀ k, t ≠ .request (.asked k .done)) (hk : ∀ k, task ≠ some (.request (.asked k .done))) :
    w.Change (w.put w.console i task) e := by
  refine .still rfl (holds_put_same (by simp [ht]) fun k => ?_)
  unfold Holds
  rw [ht]
  exact iff_of_false (hk k) fun h => hn k (Option.some.inj h)

theorem Orderly.change_poll (h : w.Orderly) (i : Nat) : w.Change (w.poll i) (.poll i) := by
  have ht := h.turn i
  generalize w.poll i = w', w.settlement? i = settled at ht ⊢
  cases ht with
  | absent vacant => exact .still rfl fun j k => Iff.rfl
  | @asks prompt created idle =>
    have hi : w.tasks.task? i ≠ none := by simp [created]
    refine .asks prompt idle rfl fun j k => ?_
    by_cases hj : j = i
    · subst hj
      rw [holds_put_self hi]
      unfold Holds
      rw [created]
      simp [Task.ofPrompt, eq_comm]
    · simp [holds_put_of_ne hj, hj]
  | refused created busy =>
    exact change_of_ticketless _ created (fun k hk => by cases hk) fun k hk => by cases hk
  | @waits k holds unanswered =>
    refine .still rfl (holds_put_same holds.open fun l => ?_)
    rw [Holds, holds]
  | @takes k answer holds answered =>
    exact .leaves (Or.inl rfl) holds rfl (holds_put_none holds.open)
  | watches watcher idle =>
    exact change_of_ticketless _ watcher (fun k hk => by cases hk) fun k hk => by cases hk
  | sees watcher shown =>
    exact change_of_ticketless _ watcher (fun k hk => by cases hk) fun k hk => by cases hk

theorem Orderly.change_drop (h : w.Orderly) (i : Nat) : w.Change (w.step (.drop i)) (.drop i) := by
  rw [drop_eq]
  cases ht : w.tasks.task? i with
  | none => exact .still rfl fun j k => Iff.rfl
  | some t =>
    cases h.simple i t ht with
    | created prompt =>
      exact change_of_ticketless _ ht (fun _ hk => nomatch hk) fun _ hk => nomatch hk
    | asked k => exact .leaves (Or.inr rfl) ht rfl (holds_put_none (Holds.open ht))
    | nextPrompt => exact change_of_ticketless _ ht (fun _ hk => nomatch hk) fun _ hk => nomatch hk

theorem Orderly.change (h : w.Orderly) (e : InputEvent) : w.Change (w.step e) e := by
  cases e with
  | request prompt => exact .still rfl (holds_start fun k hk => by cases hk)
  | nextPrompt => exact .still rfl (holds_start fun k hk => by cases hk)
  | submit text => exact change_submit w text
  | cancel => exact change_cancel w
  | poll i => exact h.change_poll i
  | drop i => exact h.change_drop i

theorem Orderly.simple_put (h : w.Orderly) (hi : w.tasks.task? i ≠ none)
    (hs : ∀ t, task = some t → t.Simple) (j : Nat) (t : Task)
    (ht : (w.put console i task).tasks.task? j = some t) : t.Simple := by
  by_cases hj : j = i
  · subst hj
    rw [put, Pool.task?_set_self hi] at ht
    exact hs t ht
  · rw [put, Pool.task?_set_of_ne hj] at ht
    exact h.simple j t ht

theorem Orderly.simple_start (h : w.Orderly) {new : Task} (hn : new.Simple) (j : Nat) (t : Task)
    (ht : (w.start new).2.tasks.task? j = some t) : t.Simple := by
  rcases Pool.task?_concat w.tasks new j with he | ⟨-, he⟩
  · exact h.simple j t (he.symm.trans ht)
  · obtain rfl := Option.some.inj (he.symm.trans ht)
    exact hn

theorem Orderly.simple_step (h : w.Orderly) (e : InputEvent) (j : Nat) (t : Task)
    (ht : (w.step e).tasks.task? j = some t) : t.Simple := by
  cases e with
  | request prompt => exact h.simple_start (.created prompt) j t ht
  | nextPrompt => exact h.simple_start .nextPrompt j t ht
  | submit text => exact h.simple j t ht
  | cancel => exact h.simple j t ht
  | poll i =>
    have turn := h.turn i
    rw [step] at ht
    generalize w.poll i = w', w.settlement? i = settled at turn ht
    cases turn with
    | absent vacant => exact h.simple j t ht
    | asks created idle =>
      exact h.simple_put (by simp [created]) (by rintro t ⟨⟩; exact .asked _) j t ht
    | refused created busy => exact h.simple_put (by simp [created]) (by rintro t ⟨⟩) j t ht
    | waits holds unanswered =>
      exact h.simple_put holds.open (by rintro t ⟨⟩; exact .asked _) j t ht
    | takes holds answered => exact h.simple_put holds.open (by rintro t ⟨⟩) j t ht
    | watches watcher idle =>
      exact h.simple_put (by simp [watcher]) (by rintro t ⟨⟩; exact .nextPrompt) j t ht
    | sees watcher shown => exact h.simple_put (by simp [watcher]) (by rintro t ⟨⟩) j t ht
  | drop i =>
    rw [drop_eq] at ht
    cases hi : w.tasks.task? i with
    | none =>
      rw [hi] at ht
      exact h.simple j t ht
    | some t' =>
      rw [hi] at ht
      exact h.simple_put (by simp [hi]) (by rintro t ⟨⟩) j t ht

theorem Orderly.step (h : w.Orderly) (e : InputEvent) : (w.step e).Orderly := by
  refine ⟨?_, h.simple_step e⟩
  have change := h.change e
  generalize w.step e = w' at change
  cases change with
  | still input holds =>
    rw [input, show w'.Holds = w.Holds from funext fun j => funext fun k => propext (holds j k)]
    exact h.serves
  | asks prompt idle input holds =>
    rw [input]
    exact h.serves.awaiting idle prompt holds
  | resolves answers pending input holds =>
    rw [input, show w'.Holds = w.Holds from funext fun j => funext fun k => propext (holds j k)]
    exact h.serves.resolve pending _
  | leaves ends held input holds =>
    rw [input]
    exact h.serves.abandon held holds fun l hl => hl.unique held

theorem Orderly.after (h : w.Orderly) (events : List InputEvent) : (w.after events).Orderly := by
  induction events generalizing w with
  | nil => exact h
  | cons e events ih => exact ih (h.step e)

theorem orderly_empty : empty.Orderly := by
  constructor
  · have none : empty.Holds = fun _ _ => False := by
      funext j k
      simp [Holds, empty, Pool.task?]
    rw [none]
    exact Coordinator.serves_idle
  · intro i t ht
    cases ht

end Workbench

end SourcePreview
