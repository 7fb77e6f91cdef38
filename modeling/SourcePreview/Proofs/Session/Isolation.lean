import SourcePreview.Proofs.Console.Holder
import SourcePreview.Proofs.Session.Steady

/-! The runs of a session keep apart. Two sessions with the same settings that are both free carry
out a run alike, whatever happened to them before: their coordinators then differ in tickets only
and their transcripts in what was sent before the run, and nothing that one does with the run tells
them apart (`runs_alike`). -/

namespace SourcePreview

variable {α : Type} {before before' : List Entry}

/-- Two transcripts with the same lines, whose listeners were sent the same lines since some point
of each. -/
structure Transcript.Alike (before before' : List Entry) (t t' : Transcript) : Prop where
  entries : t.entries = t'.entries
  stopped : t.stopped = t'.stopped
  sent : ∃ later, t.sent = before ++ later ∧ t'.sent = before' ++ later

namespace Transcript.Alike

variable {t t' : Transcript}

theorem append (h : Alike before before' t t') (e : Entry) :
    Alike before before' (t.append e) (t'.append e) := by
  obtain ⟨later, hs, hs'⟩ := h.sent
  refine ⟨congrArg (· ++ [e]) h.entries, h.stopped, later ++ [e], ?_, ?_⟩
  · rw [Transcript.append, hs, List.append_assoc]
  · rw [Transcript.append, hs', List.append_assoc]

theorem push (h : Alike before before' t t') (e : Entry) :
    Alike before before' (t.push e) (t'.push e) := by
  rw [Transcript.push, Transcript.push, ← h.stopped]
  split
  · exact h
  · exact h.append e

theorem markStopped (h : Alike before before' t t') :
    Alike before before' t.markStopped t'.markStopped := by
  rw [Transcript.markStopped, Transcript.markStopped, ← h.stopped]
  split
  · exact h
  · have ha := h.append .stopMarker
    exact ⟨ha.entries, rfl, ha.sent⟩

theorem clear (t t' : Transcript) : Alike t.sent t'.sent t.clear t'.clear :=
  ⟨rfl, rfl, [], (List.append_nil _).symm, (List.append_nil _).symm⟩

theorem heardSince (h : Alike before before' t t') :
    t.heardSince before.length = t'.heardSince before'.length := by
  obtain ⟨later, hs, hs'⟩ := h.sent
  rw [Transcript.heardSince, Transcript.heardSince, hs, hs', List.drop_left, List.drop_left]

end Transcript.Alike

namespace Coordinator

structure Level (c c' : Coordinator) : Prop where
  sound : c.Sound
  sound' : c'.Sound
  idle : c.pending = none
  idle' : c'.pending = none
  watched : c.watched = c'.watched

/-- Two coordinators that the askers of two tickets cannot tell apart. -/
structure Alike (k k' : Ticket) (c c' : Coordinator) : Prop where
  sound : c.Sound
  sound' : c'.Sound
  pending : c.pending = none ∧ c'.pending = none ∨
    ∃ prompt, c.pending = some ⟨k, prompt, true⟩ ∧ c'.pending = some ⟨k', prompt, true⟩
  watched : c.watched = c'.watched
  answer : c.answer? k = c'.answer? k'

variable {c c' : Coordinator} {k k' : Ticket}

theorem Sound.answer?_fresh (h : c.Sound) : c.answer? c.fresh = none := by
  cases ha : c.answer? c.fresh with
  | none => rfl
  | some answer =>
    obtain ⟨as, bs, he, -⟩ := List.lookup_eq_some_iff.1 ha
    exact absurd (h.answered (c.fresh, answer) (by simp [he])) (Nat.lt_irrefl _)

theorem Level.awaiting (h : Level c c') (prompt : Text) :
    Alike c.fresh c'.fresh (c.awaiting prompt) (c'.awaiting prompt) :=
  ⟨h.sound.awaiting prompt, h.sound'.awaiting prompt, Or.inr ⟨prompt, rfl, rfl⟩, rfl,
    h.sound.answer?_fresh.trans h.sound'.answer?_fresh.symm⟩

theorem cancel_of_idle (h : c.pending = none) : c.cancel = c := by rw [cancel, h]

theorem Level.cancel (h : Level c c') : Level c.cancel c'.cancel := by
  rwa [cancel_of_idle h.idle, cancel_of_idle h.idle']

theorem Level.prompt? (h : Level c c') : c.prompt? = c'.prompt? := by
  rw [Coordinator.prompt?, Coordinator.prompt?, h.idle, h.idle']

namespace Alike

theorem resolve (h : Alike k k' c c') {prompt : Text} (hp : c.pending = some ⟨k, prompt, true⟩)
    (hp' : c'.pending = some ⟨k', prompt, true⟩) (answer : Text) :
    Alike k k' (c.resolve ⟨k, prompt, true⟩ answer) (c'.resolve ⟨k', prompt, true⟩ answer) :=
  ⟨h.sound.resolve hp answer, h.sound'.resolve hp' answer, Or.inl ⟨rfl, rfl⟩, rfl,
    (answer?_resolve_self rfl).trans (answer?_resolve_self rfl).symm⟩

theorem submit (h : Alike k k' c c') (text : Text) :
    (c.submit text).1 = (c'.submit text).1 ∧ Alike k k' (c.submit text).2 (c'.submit text).2 := by
  rcases h.pending with ⟨hp, hp'⟩ | ⟨prompt, hp, hp'⟩
  · rw [submit_of_idle hp, submit_of_idle hp']
    exact ⟨rfl, h⟩
  · rw [Coordinator.submit, Coordinator.submit, hp, hp']
    dsimp only
    split
    · exact ⟨rfl, h⟩
    · exact ⟨rfl, h.resolve hp hp' (Text.trim text)⟩

theorem cancel (h : Alike k k' c c') : Alike k k' c.cancel c'.cancel := by
  rcases h.pending with ⟨hp, hp'⟩ | ⟨prompt, hp, hp'⟩
  · rwa [cancel_of_idle hp, cancel_of_idle hp']
  · rw [Coordinator.cancel, Coordinator.cancel, hp, hp']
    exact h.resolve hp hp' []

theorem prompt? (h : Alike k k' c c') : c.prompt? = c'.prompt? := by
  rcases h.pending with ⟨hp, hp'⟩ | ⟨prompt, hp, hp'⟩
  · rw [Coordinator.prompt?, Coordinator.prompt?, hp, hp']
  · rw [Coordinator.prompt?, Coordinator.prompt?, hp, hp']
    rfl

theorem idle_of_answer? (h : Alike k k' c c') {answer : Text} (ha : c.answer? k = some answer) :
    c.pending = none ∧ c'.pending = none := by
  rcases h.pending with hp | ⟨prompt, hp, -⟩
  · exact hp
  · exact absurd rfl (h.sound.ticket_ne ha hp)

/-- Askers that give up their tickets leave nothing by which the coordinators could be told
apart. -/
theorem abandon (h : Alike k k' c c') (hp : c.pending = none ∧ c'.pending = none) :
    Level (c.abandon k) (c'.abandon k') := by
  refine ⟨h.sound.abandon k, h.sound'.abandon k', ?_, ?_, h.watched⟩
  · rw [Coordinator.abandon, hp.1]
    rfl
  · rw [Coordinator.abandon, hp.2]
    rfl

end Alike

end Coordinator

/-- Two stands of a dialogue that nothing but their tickets and earlier listeners tell apart. -/
inductive Stand.Alike (before before' : List Entry) : Stand α → Stand α → Prop where
  | settled {c c' : Console} {sent : Text} (ending : Ending α)
      (transcript : Transcript.Alike before before' c.transcript c'.transcript)
      (level : c.input.Level c'.input) :
    Alike before before' ⟨c, sent, .settled ending⟩ ⟨c', sent, .settled ending⟩
  | asked {c c' : Console} {sent : Text} {k k' : Ticket} (next : Text → Dialogue α)
      (transcript : Transcript.Alike before before' c.transcript c'.transcript)
      (input : Coordinator.Alike k k' c.input c'.input) :
    Alike before before' ⟨c, sent, .moved (.asked k next)⟩ ⟨c', sent, .moved (.asked k' next)⟩

theorem Dialogue.advance_alike (d : Dialogue α) (cancelled : Bool) {c c' : Console} (sent : Text)
    (transcript : Transcript.Alike before before' c.transcript c'.transcript)
    (level : c.input.Level c'.input) :
    Stand.Alike before before' (d.advance cancelled c sent) (d.advance cancelled c' sent) := by
  induction d generalizing c c' sent with
  | done a => exact .settled _ transcript level
  | say e next ih => exact ih sent (transcript.push e) level
  | send text next ih => exact ih _ transcript level
  | check next ih =>
    rw [advance, advance]
    split
    · exact .settled _ transcript level
    · exact ih sent transcript level
  | ask prompt next ih =>
    rw [advance, advance, Coordinator.request_of_idle level.idle,
      Coordinator.request_of_idle level.idle']
    split
    · exact .settled _ transcript level.cancel
    · exact .asked next transcript (level.awaiting prompt)

theorem Talk.advance_alike {k k' : Ticket} (next : Text → Dialogue α) (cancelled : Bool)
    {c c' : Console} (sent : Text)
    (transcript : Transcript.Alike before before' c.transcript c'.transcript)
    (input : Coordinator.Alike k k' c.input c'.input) :
    (asked k next).advance cancelled c sent = ⟨c, sent, .waiting⟩ ∧
        (asked k' next).advance cancelled c' sent = ⟨c', sent, .waiting⟩ ∨
      Stand.Alike before before' ((asked k next).advance cancelled c sent)
      ((asked k' next).advance cancelled c' sent) := by
  rw [advance, advance, ← input.answer]
  split
  · right
    have idle : c.input.cancel.pending = none ∧ c'.input.cancel.pending = none :=
      ⟨Coordinator.pending_cancel _, Coordinator.pending_cancel _⟩
    exact .settled _ transcript (input.cancel.abandon idle)
  · cases ha : c.input.answer? k with
    | none => exact Or.inl ⟨rfl, rfl⟩
    | some answer =>
      right
      exact (next answer).advance_alike cancelled sent transcript
        (input.abandon (input.idle_of_answer? ha))

namespace Session

/-- Two sessions whose slots and transcripts are alike. -/
structure Alike (before before' : List Entry) (s s' : Session) : Prop where
  active : s.active = s'.active
  transcript : Transcript.Alike before before' s.console.transcript s'.console.transcript

/-- Two sessions, each with one of its calls: the run of both waits at the same question, or is
over. -/
inductive Twins (before before' : List Entry) :
    Session × Option SessionCall → Session × Option SessionCall → Prop where
  | asked {s s' : Session} {k k' : Ticket} (next : Text → Dialogue (Except Overwide Unit))
      (alike : Alike before before' s s')
      (input : Coordinator.Alike k k' s.console.input s'.console.input) :
    Twins before before' (s, some (.run (.talking (.asked k next)))) (s',
      some (.run (.talking (.asked k' next))))
  | closed {s s' : Session} (alike : Alike before before' s s')
      (level : s.console.input.Level s'.console.input) :
    Twins before before' (s, none) (s', none)

/-- Two polls that settle with the same reply or leave the same run under way. -/
structure Polled (before before' : List Entry) (call call' : SessionCall)
    (r r' : Session × Progress SessionCall Reply) :
    Prop where
  reply : r.2.result? = r'.2.result?
  twins : Twins before before' (r.1, r.2.rest call) (r'.1, r'.2.rest call')

variable {s s' : Session} {call call' : SessionCall}

theorem Alike.isStopped (h : Alike before before' s s') : s.isStopped = s'.isStopped :=
  isStopped_congr h.active

theorem Alike.polled_finish (h : Alike before before' s s')
    (level : s.console.input.Level s'.console.input) (o : Outcome) :
    Polled before before' call call' (s.finish o) (s'.finish o) := by
  rw [finish, finish, ← h.isStopped]
  split
  · exact ⟨rfl, .closed ⟨rfl, h.transcript.markStopped⟩ level⟩
  · exact ⟨rfl, .closed ⟨rfl, h.transcript⟩ level⟩

theorem Alike.push (h : Alike before before' s s') (e : Entry) :
    Alike before before' (s.push e) (s'.push e) :=
  ⟨h.active, h.transcript.push e⟩

theorem Alike.polled_talk (h : Alike before before' s s') {t t' : Talk (Except Overwide Unit)}
    (stands : Stand.Alike before before' (t.advance s.isStopped s.console [])
      (t'.advance s.isStopped s'.console [])) :
    Polled before before' call call' (s.talk t) (s'.talk t') := by
  rw [talk, talk, converse, converse, ← h.isStopped]
  generalize t.advance s.isStopped s.console [] = stand at stands
  generalize t'.advance s.isStopped s'.console [] = stand' at stands
  cases stands with
  | asked next transcript input => exact ⟨rfl, .asked next ⟨h.active, transcript⟩ input⟩
  | @settled c c' sent ending transcript level =>
    have alike : Alike before before' { s with console := c } { s' with console := c' } :=
      ⟨h.active, transcript⟩
    cases ending with
    | cancelled => exact alike.polled_finish level .stopped
    | refused e => exact (alike.push _).polled_finish level _
    | result a =>
      cases a with
      | error e => exact ⟨rfl, .closed alike level⟩
      | ok u => exact alike.polled_finish level .completed

theorem Twins.poll (h : Twins before before' (s, some call) (s', some call')) :
    Polled before before' call call' (s.poll call) (s'.poll call') := by
  cases h with
  | @asked _ _ k k' next alike input =>
    rw [Session.poll, Session.poll]
    rcases Talk.advance_alike next s.isStopped [] alike.transcript input with ⟨hw, hw'⟩ | stands
    · rw [talk, talk, converse, converse, ← alike.isStopped, hw, hw']
      exact ⟨rfl, .asked next ⟨alike.active, alike.transcript⟩ input⟩
    · exact alike.polled_talk stands

theorem Twins.submit {rest rest' : Option SessionCall}
    (h : Twins before before' (s, rest) (s', rest')) (text : Text) :
    (s.submit text).1 = (s'.submit text).1 ∧
      Twins before before' ((s.submit text).2, rest) ((s'.submit text).2, rest') := by
  cases h with
  | asked next alike input =>
    obtain ⟨result, input⟩ := input.submit text
    exact ⟨result, .asked next ⟨alike.active, alike.transcript⟩ input⟩
  | closed alike level =>
    rw [Session.submit, Session.submit, Coordinator.submit_of_idle level.idle,
      Coordinator.submit_of_idle level.idle']
    exact ⟨rfl, .closed ⟨alike.active, alike.transcript⟩ level⟩

theorem Twins.stop {rest rest' : Option SessionCall}
    (h : Twins before before' (s, rest) (s', rest')) :
    Twins before before' (s.stop, rest) (s'.stop, rest') := by
  have marked : ∀ {s s' : Session}, Alike before before' s s' →
    Alike before before' s.markStopped s'.markStopped :=
    fun alike => ⟨alike.active, alike.transcript.markStopped⟩
  cases h with
  | asked next alike input =>
    rw [Session.stop, Session.stop, ← alike.active]
    split
    · exact .asked next ⟨rfl, alike.transcript⟩ input.cancel
    · exact .asked next (marked alike) input
  | closed alike level =>
    rw [Session.stop, Session.stop, ← alike.active]
    split
    · exact .closed ⟨rfl, alike.transcript⟩ level.cancel
    · exact .closed (marked alike) level

theorem Twins.shown {rest rest' : Option SessionCall}
    (h : Twins before before' (s, rest) (s', rest')) :
    Alike before before' s s' ∧ s.console.input.prompt? = s'.console.input.prompt? ∧
      s.console.input.watched = s'.console.input.watched := by
  cases h with
  | asked next alike input => exact ⟨alike, input.prompt?, input.watched⟩
  | closed alike level => exact ⟨alike, level.prompt?, level.watched⟩

/-- The first poll of a run that finds the slot free, and needs no interpreter. -/
theorem begin_of_free (hn : s.isRunning = false) (pseudo : s.settings.pythonBackend = .pseudo)
    (l : Language) (source : Text) : s.begin l source = match Dialect.ofLanguage? l with
      | none => s.taken.finish (.document source)
      | some d => s.taken.talk (.ready (preview d s.settings.inputMode source)) := by
  have builtin : ¬ (l = .python ∧ s.settings.pythonBackend = .external) := by
    rintro ⟨-, external⟩
    rw [pseudo] at external
    cases external
  rw [begin, if_neg (Bool.eq_false_iff.1 hn)]
  exact if_neg builtin

theorem Vacant.polled_begin (h : s.Vacant) (h' : s'.Vacant) (settings : s.settings = s'.settings)
    (watched : s.console.input.watched = s'.console.input.watched)
    (pseudo : s.settings.pythonBackend = .pseudo) (l : Language) (source : Text) :
    Polled s.console.transcript.sent s'.console.transcript.sent call call' (s.begin l source)
      (s'.begin l source) := by
  have alike : Alike s.console.transcript.sent s'.console.transcript.sent s.taken s'.taken :=
    ⟨rfl, Transcript.Alike.clear _ _⟩
  have level : s.taken.console.input.Level s'.taken.console.input := by
    rw [taken, taken, Coordinator.cancel_of_idle h.idle, Coordinator.cancel_of_idle h'.idle]
    exact ⟨h.sound, h'.sound, h.idle, h'.idle, watched⟩
  rw [begin_of_free h.not_running pseudo, begin_of_free h'.not_running (settings ▸ pseudo),
    ← settings]
  cases Dialect.ofLanguage? l with
  | none => exact alike.polled_finish level (.document source)
  | some d =>
    exact alike.polled_talk
      ((preview d s.settings.inputMode source).advance_alike false [] alike.transcript level)

end Session

/-- What is done to a session while one of its runs is under way. -/
inductive RunMove where
  | poll
  | submit (text : Text)
  | stop
  deriving DecidableEq

def RunMove.event (i : Nat) : RunMove → SessionEvent
  | .poll => .poll i
  | .submit text => .submit text
  | .stop => .stop

/-- All that is seen of a session and of one of its calls: the lines, what a listener was sent, the
prompt, the prompt shown to watchers, what a submission would come to, whether a run is active, and
what the next poll of the call settles with. -/
structure Sight where
  lines : List Entry
  heard : Nat × List Entry
  prompt : Option Text
  shown : Option Text
  submission : Text → Except InputError Unit
  running : Bool
  reply : Option Reply

namespace SessionCalls

/-- What is seen of a session by someone who listens to it since some lines were sent. -/
def sight (s : SessionCalls) (seen : Nat) (i : Nat) : Sight where
  lines := s.session.console.transcript.entries
  heard := s.session.console.transcript.heardSince seen
  prompt := s.session.console.input.prompt?
  shown := s.session.console.input.watched
  submission text := (s.session.submit text).1
  running := s.session.isRunning
  reply := s.reply? i

/-- What is seen of a session that is given a run and then goes through some moves, by someone who
listens to that run. -/
def runSight (s : SessionCalls) (l : Language) (source : Text) (moves : List RunMove) : Sight :=
  (s.after (.run l source :: .poll s.calls.length :: moves.map (·.event s.calls.length))).sight
    s.session.console.transcript.sent.length s.calls.length

variable {s s' : SessionCalls} {i i' : Nat} {before before' : List Entry}

/-- Two sessions whose runs of two numbers are twins. -/
def Twins (before before' : List Entry) (i i' : Nat) (s s' : SessionCalls) : Prop :=
  Session.Twins before before' (s.session, s.call? i) (s'.session, s'.call? i')

namespace Twins

theorem call?_cases (h : Twins before before' i i' s s') : s.call? i = none ∧ s'.call? i' = none ∨
    ∃ call call', s.call? i = some call ∧ s'.call? i' = some call' := by
  unfold Twins at h
  generalize s.call? i = rest at h ⊢
  generalize s'.call? i' = rest' at h ⊢
  cases h with
  | asked next alike input => exact Or.inr ⟨_, _, rfl, rfl⟩
  | closed alike level => exact Or.inl ⟨rfl, rfl⟩

theorem of_polled {call call' : SessionCall} (hc : s.call? i = some call)
    (hc' : s'.call? i' = some call')
    (h : Session.Polled before before' call call' (s.session.poll call) (s'.session.poll call')) :
    s.reply? i = s'.reply? i' ∧ Twins before before' i i' (s.poll i) (s'.poll i') := by
  have hi : s.call? i ≠ none := Option.ne_none_iff_exists'.2 ⟨call, hc⟩
  have hi' : s'.call? i' ≠ none := Option.ne_none_iff_exists'.2 ⟨call', hc'⟩
  rw [reply?_of_call? hc, reply?_of_call? hc', poll_of_call? hc, poll_of_call? hc', Twins,
    call?_put_self hi, call?_put_self hi']
  exact ⟨h.reply, h.twins⟩

theorem poll (h : Twins before before' i i' s s') :
    s.reply? i = s'.reply? i' ∧ Twins before before' i i' (s.poll i) (s'.poll i') := by
  rcases h.call?_cases with ⟨hc, hc'⟩ | ⟨call, call', hc, hc'⟩
  · rw [reply?, reply?, SessionCalls.poll, SessionCalls.poll, hc, hc']
    exact ⟨rfl, h⟩
  · unfold Twins at h
    rw [hc, hc'] at h
    exact of_polled hc hc' h.poll

theorem follow (h : Twins before before' i i' s s') (move : RunMove) :
    Twins before before' i i' (s.step (move.event i)) (s'.step (move.event i')) := by
  cases move with
  | poll => exact h.poll.2
  | submit text => exact (Session.Twins.submit h text).2
  | stop => exact Session.Twins.stop h

theorem after (h : Twins before before' i i' s s') (moves : List RunMove) :
    Twins before before' i i' (s.after (moves.map (·.event i)))
    (s'.after (moves.map (·.event i'))) := by
  induction moves generalizing s s' with
  | nil => exact h
  | cons move moves ih => exact ih (h.follow move)

theorem sight (h : Twins before before' i i' s s') :
    s.sight before.length i = s'.sight before'.length i' := by
  obtain ⟨alike, prompt, shown⟩ := Session.Twins.shown h
  have submission : ∀ text, (s.session.submit text).1 = (s'.session.submit text).1 :=
    fun text => (Session.Twins.submit h text).1
  rw [SessionCalls.sight, SessionCalls.sight, alike.transcript.entries, alike.transcript.heardSince,
    prompt, shown, funext submission, Session.isRunning_congr alike.active, h.poll.1]

end Twins

theorem twins_begin (h : s.Sound) (h' : s'.Sound) {settings : Settings} {launcher : Launcher}
    (steady : s.session.Steady settings launcher) (steady' : s'.session.Steady settings launcher)
    (free : s.session.isRunning = false) (free' : s'.session.isRunning = false)
    (pseudo : settings.pythonBackend = .pseudo) (l : Language) (source : Text) :
    Twins s.session.console.transcript.sent s'.session.console.transcript.sent s.calls.length
      s'.calls.length
      (s.after [.run l source, .poll s.calls.length])
      (s'.after [.run l source, .poll s'.calls.length]) := by
  have vacant := h.vacant (Session.isRunning_eq_false_iff.1 free)
  have vacant' := h'.vacant (Session.isRunning_eq_false_iff.1 free')
  have watched : s.session.console.input.watched = s'.session.console.input.watched := by
    rw [steady.shows, steady'.shows, Coordinator.prompt?, Coordinator.prompt?, vacant.idle,
      vacant'.idle]
  have created :
    ∀ s : SessionCalls,
    (s.step (.run l source)).call? s.calls.length = some (.run (.created l source)) :=
    fun s => Pool.task?_concat_length _
  refine (Twins.of_polled (created s) (created s') ?_).2
  exact vacant.polled_begin vacant' (steady.settings.trans steady'.settings.symm) watched
    (steady.settings ▸ pseudo) l source

/-- Whatever happened to a session with the built-in engine, once it is free a run in it is seen as
in a new session. -/
theorem runs_alike (settings : Settings) (loader : Loader) (launcher : Launcher)
    (history : List SessionEvent) (pseudo : settings.pythonBackend = .pseudo)
    (free : ((new (.withLoader settings loader launcher)).after history).session.isRunning = false)
    (l : Language) (source : Text) (moves : List RunMove) :
    ((new (.withLoader settings loader launcher)).after history).runSight l source moves =
      (new (.withLoader settings loader launcher)).runSight l source moves := by
  have twins :=
    twins_begin (sound_after settings loader launcher history)
      (sound_after settings loader launcher [])
    (steady_after settings loader launcher history) (steady_after settings loader launcher []) free
    rfl pseudo l source
  exact (twins.after moves).sight

/-- A session whose first run was stopped at a question, with text on the open line, and which
refused another run. -/
theorem runs_alike_of_stopped :
    let source := "print(\"open\", end=\"\")\nx = input(\"x\")".toList
    let history := [.run .python source, .poll 0, .run .java [], .poll 1, .stop, .poll 0]
    let fresh := new (.new .bare .default)
    let used := fresh.after history
    let moves := [.submit " 7 ".toList, .poll, .submit "8".toList]
    used.session.console.transcript.entries = [.stopMarker] ∧ used.session.isRunning = false ∧
      used.runSight .python "print(int(input(\"y \")) + 1)\nx".toList moves =
        fresh.runSight .python "print(int(input(\"y \")) + 1)\nx".toList moves := by
  intro source history fresh used moves
  have free : used.session.isRunning = false := by decide +kernel
  exact ⟨by decide +kernel, free,
    runs_alike .default (.missing Settings.default.pythonCommand) .missing history rfl free .python
    _ moves⟩

end SessionCalls

end SourcePreview
