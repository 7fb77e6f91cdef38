import SourcePreview.Proofs.Command.Conversation

/-! The loop that drives a run on the command line. It waits for three things at once, and takes
whichever is ready: the run gets forward, a line of the transcript was sent, or the prompt that is
watched has changed. The run may also pause between two lines, so that the first is received before
the second is written. No order makes a difference: each step leaves what is shown in the end as it
was (`Sound.step`), some step is possible until the run has settled (`Sound.progress`), and there
are only so many (`Steps.length_le`). -/

namespace SourcePreview

/-- The session and its only call, the lines received so far, how often the watched prompt had
changed when it was looked at, the lines of input that were not read, and what was shown. -/
structure Driver where
  session : Session
  call : SessionCall
  received : Nat
  noticed : Nat
  input : List Text
  shown : List Shown

namespace Driver

abbrev sent (d : Driver) : List Entry := d.session.console.transcript.sent

/-- How often the prompt that is watched has changed. -/
abbrev changes (d : Driver) : Nat := d.session.console.input.changes

def start (session : Session) (l : Language) (source : Text) (input : List Text) : Driver :=
  ⟨session, .run (.created l source), session.console.transcript.sent.length,
    session.console.input.changes, input, []⟩

/-- The transcript as the run leaves it when it is polled. What a poll writes can be received before
the poll is over. -/
def coming (d : Driver) : Transcript := (d.session.poll d.call).1.console.transcript

def receive (d : Driver) : Driver :=
  match d.coming.heardSince d.received with
  | (0, []) => d
  | (0, e :: _) => { d with received := d.received + 1, shown := d.shown ++ [.line e] }
  | (missed + 1, _) => { d with received := d.received + missed + 1 }

def drain (d : Driver) : Driver :=
  { d with
    received := d.sent.length
    shown := d.shown ++ (d.session.console.transcript.heardSince d.received).2.map .line }

/-- Shows a prompt and reads a line, and again when the line is blank. The end of the input stops
the run. -/
def answer (prompt : Text) : List Text → Driver → Driver
  | [], d => { d with session := d.session.stop, input := [], shown := d.shown ++ [.prompt prompt] }
  | line :: rest, d =>
    let asked : Driver := { d with input := rest, shown := d.shown ++ [.prompt prompt] }
    match d.session.submit line with
    | (.error .emptySubmission, session) => answer prompt rest { asked with session }
    | (_, session) => { asked with session }

def notice (d : Driver) : Driver :=
  let looked : Driver := { d with noticed := d.changes }
  match d.session.console.input.watched with
  | none => looked
  | some prompt => answer prompt d.input looked.drain

/-- What may come next. A poll of the run that waits changes nothing and is no step. -/
inductive Step (d : Driver) : Driver → Prop where
  | run {session : Session} {call : SessionCall}
      (polled : d.session.poll d.call = (session, .moved call)) :
    Step d { d with session, call }
  | line (ready : d.received < d.coming.sent.length) : Step d d.receive
  | prompt (changed : d.noticed ≠ d.changes) : Step d d.notice

/-- The run settles, and the lines that are left are shown. -/
inductive Ends (d : Driver) : List Shown → Reply → Prop where
  | settled {session : Session} {reply : Reply}
      (polled : d.session.poll d.call = (session, .settled reply)) :
    Ends d { d with session }.drain.shown reply

inductive Steps (d : Driver) : Nat → Driver → Prop where
  | zero : Steps d 0 d
  | succ {n : Nat} {d' d'' : Driver} (steps : Steps d n d') (step : d'.Step d'') :
    Steps d (n + 1) d''

/-- All that is shown in the end, and what the run settles with, when what was shown is followed by
what a conversation shows that is taken up here. -/
def ahead (d : Driver) : List Shown × Reply :=
  let rest := Conversation.resume ⟨d.session, d.call, d.received⟩ d.input
  (d.shown ++ rest.1, rest.2)

/-- How much was done: each thing shown counts for three, a request that was made for two, and a
look at the prompt for one. -/
def done (d : Driver) : Nat :=
  3 * d.shown.length + (if d.session.console.input.pending.isSome then 2 else 0) +
    if d.noticed = d.changes then 1 else 0

structure Sound (d : Driver) : Prop where
  alone : d.session.Alone d.call
  shows : d.session.console.input.Shows
  noticed : d.noticed ≤ d.changes
  fresh : d.session.console.input.pending ≠ none → d.noticed < d.changes

variable {d d' : Driver} {s : Session} {call : SessionCall} {ticket : Ticket} {prompt : Text}
  {next : Text → Dialogue (Except Overwide Unit)}

theorem exists_resume (h : s.Alone call) (input : List Text) : ∃ tail reply, ∀ n,
    Conversation.resume ⟨s, call, n⟩ input =
      (((s.poll call).1.console.transcript.sent.drop n).map .line ++ tail, reply) := by
  rcases h.cases with ⟨ticket, prompt, next, rfl, asks⟩ | ⟨-, passed⟩
  · let c : Conversation :=
      ⟨s, .run (.talking (.asked ticket next)), s.console.transcript.sent.length⟩
    refine ⟨.prompt prompt :: (c.takeAll input).1, (c.takeAll input).2, fun n => ?_⟩
    rw [Conversation.resume_of_asks asks, asks.poll]
  · cases hp : s.poll call with | mk s' progress
    rw [hp] at passed
    cases passed with
    | @asks s' ticket next prompt lines asks changes wrote =>
      let c : Conversation :=
        ⟨s', .run (.talking (.asked ticket next)), s'.console.transcript.sent.length⟩
      refine ⟨.prompt prompt :: (c.takeAll input).1, (c.takeAll input).2, fun n => ?_⟩
      rw [Conversation.resume_of_moved hp asks.poll, Conversation.resume_of_asks asks]
    | @ends s' reply lines idle proper wrote =>
      refine ⟨[], reply, fun n => ?_⟩
      rw [Conversation.resume_of_settled hp, List.append_nil]

theorem Sound.length_sent_le (h : d.Sound) : d.sent.length ≤ d.coming.sent.length := by
  rw [coming]
  rcases h.alone.cases with ⟨ticket, prompt, next, hc, asks⟩ | ⟨-, passed⟩
  · have stays : (d.session.poll d.call).1 = d.session := by
      rw [hc, asks.poll]
    exact Nat.le_of_eq (congrArg (fun s : Session => s.console.transcript.sent.length) stays.symm)
  · generalize d.session.poll d.call = polled at passed
    cases passed with
    | asks asks changes wrote | ends idle proper wrote =>
      rw [wrote.sent, List.length_append]
      exact Nat.le_add_right _ _

/-- As long as no more lines are shown in the end than are kept, the driver is not too far
behind. -/
theorem Sound.unheard_le (h : d.Sound)
    (within : (Shown.entries d.ahead.1).length ≤ Transcript.window) :
    d.coming.sent.length - d.received ≤ Transcript.window := by
  obtain ⟨tail, reply, resumed⟩ := exists_resume h.alone d.input
  rw [ahead, resumed, Shown.entries_append, Shown.entries_append, Shown.entries_map_line] at within
  simp only [List.length_append, List.length_drop] at within
  rw [coming]
  omega

theorem receive_of_cons (unheard : d.coming.sent.length - d.received ≤ Transcript.window)
    {e : Entry} {rest : List Entry} (h : d.coming.sent.drop d.received = e :: rest) :
    d.receive = { d with received := d.received + 1, shown := d.shown ++ [.line e] } := by
  have heard := Transcript.heardSince_of_le unheard
  rw [h] at heard
  unfold receive
  rw [heard]

theorem drain_of_le (unheard : d.sent.length - d.received ≤ Transcript.window) :
    d.drain = { d with
      received := d.sent.length
      shown := d.shown ++ (d.sent.drop d.received).map .line } := by
  rw [drain, Transcript.heardSince_of_le unheard]

theorem Sound.ahead_receive (h : d.Sound)
    (unheard : d.coming.sent.length - d.received ≤ Transcript.window) {e : Entry}
    {rest : List Entry} (first : d.coming.sent.drop d.received = e :: rest) :
    d.receive.ahead = d.ahead := by
  obtain ⟨tail, reply, resumed⟩ := exists_resume h.alone d.input
  have behind : d.coming.sent.drop (d.received + 1) = rest := by
    rw [← List.drop_drop, first]
    rfl
  rw [coming] at first behind
  rw [receive_of_cons unheard first, ahead, ahead, resumed, resumed, first, behind]
  simp

/-- A driver behind the answer to a prompt, with what it is to show in the end. -/
structure Answered (d : Driver) (shown : List Shown) (all : List Shown × Reply) : Prop where
  sound : d.Sound
  idle : d.session.console.input.pending = none
  ahead : d.ahead = all
  more : shown.length < d.shown.length

theorem answered (asks : s.Asks ticket prompt) (shows : s.console.input.Shows)
    (next : Text → Dialogue (Except Overwide Unit)) (input unread : List Text)
    (shown : List Shown) :
    let c : Conversation :=
      ⟨s, .run (.talking (.asked ticket next)), s.console.transcript.sent.length⟩
    let d : Driver := ⟨s, c.call, c.shown, s.console.input.changes, unread, shown⟩
    Answered (answer prompt input d) shown (shown ++ .prompt prompt :: (c.takeAll input).1,
      (c.takeAll input).2) := by
  intro c
  -- behind an event that resolves the request, the conversation is taken up with what is left of
  -- the input
  have resolves : ∀ (s' : Session) (rest : List Text) (shown : List Shown), s.Resolved s' c.call →
      s'.console.input.Shows →
      Answered ⟨s', c.call, c.shown, s.console.input.changes, rest, shown ++ [.prompt prompt]⟩ shown
        (shown ++ .prompt prompt :: (Conversation.resume ⟨s', c.call, c.shown⟩ rest).1,
          (Conversation.resume ⟨s', c.call, c.shown⟩ rest).2) := by
    intro s' rest shown resolved shows'
    refine ⟨⟨resolved.alone, shows', ?_, fun pending => absurd resolved.idle pending⟩,
      resolved.idle, ?_, by simp⟩
    · change s.console.input.changes ≤ s'.console.input.changes
      rw [resolved.changes]
      exact Nat.le_succ _
    · simp [ahead]
  induction input generalizing unread shown with
  | nil =>
    obtain ⟨-, -, resolved⟩ := asks.stop next
    have rest := resolves s.stop [] shown resolved (Session.Steady.stop ⟨rfl, rfl, shows⟩).shows
    rw [Conversation.takeAll_nil asks]
    exact rest
  | cons line rest ih =>
    by_cases blank : Text.trim line = []
    · rw [Conversation.takeAll_blank asks _ blank]
      have again := ih rest (shown ++ [.prompt prompt])
      have same : answer prompt (line :: rest) ⟨s, c.call, c.shown, s.console.input.changes, unread,
          shown⟩ =
          answer prompt rest ⟨s, c.call, c.shown, s.console.input.changes, rest,
            shown ++ [.prompt prompt]⟩ := by
        rw [answer, asks.submit_blank blank]
      intro d
      rw [same]
      refine ⟨again.sound, again.idle, ?_, Nat.lt_trans (by simp) again.more⟩
      rw [again.ahead, List.append_assoc]
      rfl
    · obtain ⟨s', submitted, resolved⟩ := asks.submit_filled next blank
      have shows' : s'.console.input.Shows := by
        have kept := shows.submit line
        have input := congrArg (fun r => r.2.console.input) submitted
        rw [← input]
        exact kept
      have same : answer prompt (line :: rest) ⟨s, c.call, c.shown, s.console.input.changes, unread,
          shown⟩ =
          ⟨s', c.call, c.shown, s.console.input.changes, rest, shown ++ [.prompt prompt]⟩ := by
        rw [answer, submitted]
      intro d
      rw [same, Conversation.takeAll_filled _ submitted]
      exact resolves s' rest shown resolved shows'

theorem Sound.step_run (h : d.Sound) {call : SessionCall}
    (polled : d.session.poll d.call = (s, .moved call)) :
    Sound { d with session := s, call } ∧ ahead { d with session := s, call } = d.ahead ∧
      d.done < done { d with session := s, call } := by
  have shows : s.console.input.Shows := by
    have steady : (d.session.poll d.call).1.Steady d.session.settings d.session.launcher :=
      Session.Steady.poll ⟨rfl, rfl, h.shows⟩ d.call
    rw [polled] at steady
    exact steady.shows
  rcases h.alone.cases with ⟨ticket, prompt, next, hc, asks⟩ | ⟨idle, passed⟩
  · rw [hc, asks.poll] at polled
    cases polled
  · rw [polled] at passed
    cases passed with
    | asks asks changes wrote =>
      have more : d.noticed < s.console.input.changes := by
        rw [changes]
        exact Nat.lt_succ_of_le h.noticed
      refine ⟨⟨.asking asks, shows, Nat.le_of_lt more, fun _ => more⟩, ?_, ?_⟩
      · rw [ahead, ahead, Conversation.resume_of_moved polled asks.poll]
      · have before : d.done ≤ 3 * d.shown.length + 1 := by
          rw [done, idle, if_neg (by simp)]
          split
          · exact Nat.le_refl _
          · exact Nat.le_succ _
        have behind : ∀ call, 3 * d.shown.length + 2 ≤ done { d with session := s, call } := by
          intro call
          rw [done, asks.pending]
          exact Nat.le_add_right _ _
        exact Nat.lt_of_le_of_lt before (behind _)

theorem Sound.step_line (h : d.Sound)
    (unheard : d.coming.sent.length - d.received ≤ Transcript.window)
    (ready : d.received < d.coming.sent.length) :
    d.receive.Sound ∧ d.receive.ahead = d.ahead ∧ d.done < d.receive.done := by
  obtain ⟨e, rest, first⟩ : ∃ e rest, d.coming.sent.drop d.received = e :: rest :=
    ⟨_, _, List.drop_eq_getElem_cons ready⟩
  refine ⟨?_, h.ahead_receive unheard first, ?_⟩
  · rw [receive_of_cons unheard first]
    exact ⟨h.alone, h.shows, h.noticed, h.fresh⟩
  · rw [receive_of_cons unheard first, done, done, List.length_append, List.length_singleton]
    change _ < 3 * (d.shown.length + 1) +
      (if d.session.console.input.pending.isSome then 2 else 0) +
      if d.noticed = d.changes then 1 else 0
    omega

theorem Sound.step_prompt (h : d.Sound) (unheard : d.sent.length - d.received ≤ Transcript.window)
    (changed : d.noticed ≠ d.changes) :
    d.notice.Sound ∧ d.notice.ahead = d.ahead ∧ d.done < d.notice.done := by
  have watched := h.shows
  rw [Coordinator.Shows, Coordinator.prompt?] at watched
  rcases h.alone.cases with ⟨ticket, prompt, next, hc, asks⟩ | ⟨idle, -⟩
  · rw [asks.pending] at watched
    let looked : Driver := { d with noticed := d.changes }
    have drained :
        looked.drain = ⟨d.session, .run (.talking (.asked ticket next)), d.sent.length, d.changes,
        d.input, d.shown ++ (d.sent.drop d.received).map .line⟩ := by
      rw [drain_of_le (d := looked) unheard, ← hc]
    have noticed : d.notice = answer prompt d.input looked.drain := by
      rw [notice, watched]
      rfl
    have taken :=
      answered asks h.shows next d.input d.input (d.shown ++ (d.sent.drop d.received).map .line)
    dsimp only at taken
    rw [← drained, ← noticed] at taken
    refine ⟨taken.sound, ?_, ?_⟩
    · rw [taken.ahead, ahead, hc, Conversation.resume_of_asks asks]
      simp
    · have before : d.done = 3 * d.shown.length + 2 := by
        rw [done, asks.pending, if_neg changed]
        rfl
      have behind : 3 * d.notice.shown.length ≤ d.notice.done := by
        rw [done, Nat.add_assoc]
        exact Nat.le_add_right _ _
      have more := taken.more
      rw [List.length_append] at more
      omega
  · rw [idle] at watched
    have looked : d.notice = { d with noticed := d.changes } := by
      rw [notice, watched]
      rfl
    rw [looked]
    refine ⟨⟨h.alone, h.shows, Nat.le_refl _, fun pending => absurd idle pending⟩, rfl, ?_⟩
    rw [done, done, if_neg changed, if_pos rfl]
    exact Nat.lt_succ_self _

theorem Sound.step (h : d.Sound) (within : (Shown.entries d.ahead.1).length ≤ Transcript.window)
    (step : d.Step d') :
    d'.Sound ∧ d'.ahead = d.ahead ∧ d.done < d'.done := by
  cases step with
  | run polled => exact h.step_run polled
  | line ready => exact h.step_line (h.unheard_le within) ready
  | prompt changed =>
    exact h.step_prompt
      (Nat.le_trans (Nat.sub_le_sub_right h.length_sent_le _) (h.unheard_le within)) changed

theorem Sound.waits (h : d.Sound) (polled : d.session.poll d.call = (s, .waiting)) :
    s = d.session := by
  rcases h.alone.cases with ⟨ticket, prompt, next, hc, asks⟩ | ⟨-, passed⟩
  · rw [hc, asks.poll] at polled
    exact (congrArg Prod.fst polled).symm
  · rw [polled] at passed
    cases passed

/-- Until the run has settled, some step is possible. -/
theorem Sound.progress (h : d.Sound) : (∃ d', d.Step d') ∨ ∃ shown reply, d.Ends shown reply := by
  rcases h.alone.cases with ⟨ticket, prompt, next, hc, asks⟩ | ⟨idle, passed⟩
  · left
    have pending : d.session.console.input.pending ≠ none := by simp [asks.pending]
    exact ⟨_, .prompt (Nat.ne_of_lt (h.fresh pending))⟩
  · cases hp : d.session.poll d.call with | mk s' progress
    rw [hp] at passed
    cases passed with
    | asks asks changes wrote => exact Or.inl ⟨_, .run hp⟩
    | ends idle proper wrote => exact Or.inr ⟨_, _, .settled hp⟩

theorem Steps.sound {n : Nat} (steps : d.Steps n d') (h : d.Sound)
    (within : (Shown.entries d.ahead.1).length ≤ Transcript.window) :
    d'.Sound ∧ d'.ahead = d.ahead ∧ d.done + n ≤ d'.done := by
  induction steps with
  | zero => exact ⟨h, rfl, Nat.le_refl _⟩
  | succ _ step ih =>
    obtain ⟨sound, ahead, done⟩ := ih
    obtain ⟨sound', ahead', more⟩ := sound.step (by rwa [ahead]) step
    exact ⟨sound', ahead'.trans ahead, by omega⟩

/-- There are no more steps than three for each thing that is shown in the end, and three. -/
theorem Steps.length_le {n : Nat} (steps : d.Steps n d') (h : d.Sound)
    (within : (Shown.entries d.ahead.1).length ≤ Transcript.window) :
    n ≤ 3 * d.ahead.1.length + 3 := by
  obtain ⟨-, same, more⟩ := steps.sound h within
  have shown : d'.shown.length ≤ d.ahead.1.length := by
    rw [← same, ahead, List.length_append]
    exact Nat.le_add_right _ _
  have most : d'.done ≤ 3 * d'.shown.length + 3 := by
    rw [done]
    split <;> split <;> omega
  omega

end Driver

end SourcePreview
