import SourcePreview.Proofs.Session.Poll

/-! A session as a system that takes one event after the other, in any order, and the invariant of
all its states: at most one run is under way, only it has a request pending, and the transcript of a
run under way holds no marker (`sound_after`). -/

namespace SourcePreview

/-- What can happen to a session: a call is made, one call is polled or dropped, or something else
is done at once. -/
inductive SessionEvent where
  | run (language : Language) (source : Text)
  | warmUp
  | submit (text : Text)
  | stop
  | release
  | poll (i : Nat)
  | drop (i : Nat)
  deriving DecidableEq

namespace SessionCalls

def call? (s : SessionCalls) (i : Nat) : Option SessionCall := s.calls[i]?.join

def put (s : SessionCalls) (session : Session) (i : Nat) (call : Option SessionCall) :
    SessionCalls :=
  ⟨session, s.calls.set i call⟩

def poll (s : SessionCalls) (i : Nat) : SessionCalls :=
  match s.call? i with
  | none => s
  | some call => s.put (s.session.poll call).1 i ((s.session.poll call).2.rest call)

def reply? (s : SessionCalls) (i : Nat) : Option Reply :=
  (s.call? i).bind fun call => (s.session.poll call).2.result?

def step (s : SessionCalls) : SessionEvent → SessionCalls
  | .run language source => (s.start (.run (.created language source))).2
  | .warmUp => (s.start (.warmUp .created)).2
  | .submit text => { s with session := (s.session.submit text).2 }
  | .stop => { s with session := s.session.stop }
  | .release => { s with session := s.session.release }
  | .poll i => s.poll i
  | .drop i => (s.drop? i).getD s

def after (s : SessionCalls) (events : List SessionEvent) : SessionCalls := events.foldl step s

theorem after_append (s : SessionCalls) (xs ys : List SessionEvent) :
    s.after (xs ++ ys) = (s.after xs).after ys :=
  List.foldl_append

/-- A run that was polled and not refused, and neither settled nor was dropped. -/
def Started (s : SessionCalls) (i : Nat) : Prop :=
  ∃ stage, s.call? i = some (.run stage) ∧ stage.isStarted = true

variable {s : SessionCalls} {session : Session} {i j : Nat} {call : Option SessionCall}

theorem lt_of_call? (h : s.call? i ≠ none) : i < s.calls.length := Pool.lt_of_task? h

theorem call?_put_self (h : s.call? i ≠ none) : (s.put session i call).call? i = call :=
  Pool.task?_set_self h call

theorem call?_put_of_ne (h : j ≠ i) : (s.put session i call).call? j = s.call? j :=
  Pool.task?_set_of_ne h call

theorem call?_start_of_lt (call : SessionCall) (h : i < s.calls.length) :
    (s.start call).2.call? i = s.call? i :=
  Pool.task?_concat_of_lt h call

theorem call?_start (call : SessionCall) (i : Nat) :
    (s.start call).2.call? i = s.call? i ∨ (s.start call).2.call? i = some call :=
  (Pool.task?_concat s.calls call i).imp_right And.right

theorem drop?_eq (s : SessionCalls) (i : Nat) :
    (s.drop? i).getD s = match s.call? i with
      | none => s
      | some call => s.put (s.session.drop call) i none := by
  unfold drop? Pool.take? call?
  cases s.calls[i]?.join <;> rfl

theorem poll_of_call? {call : SessionCall} (h : s.call? i = some call) :
    s.poll i = s.put (s.session.poll call).1 i ((s.session.poll call).2.rest call) := by
  rw [poll, h]

theorem reply?_of_call? {call : SessionCall} (h : s.call? i = some call) :
    s.reply? i = (s.session.poll call).2.result? := by
  rw [reply?, h, Option.bind_some]

/-- What the poll of a run may do: the run is refused, waits for the interpreter, gets forward on a
slot that is its own, or settles as stopped. -/
inductive Turn (s : SessionCalls) (i : Nat) (stage : RunStage) :
    Session × Progress SessionCall Reply → Prop where
  | refused (created : ∃ language source, stage = .created language source)
      (running : s.session.isRunning = true) :
    Turn s i stage (s.session, .settled .refused)
  | waits {loading : Loading} (started : stage.isStarted = true)
      (unstopped : s.session.isStopped = false) :
    Turn s i stage ({ s.session with loading }, .waiting)
  | advances {active : Session} {r : Session × Progress SessionCall Reply}
      (others : ∀ j, j ≠ i → ¬ s.Started j) (unstopped : s.session.isStopped = false)
      (holds : active.active = some false) (advanced : active.Advanced r) :
    Turn s i stage r
  | stopped {session : Session} (started : stage.isStarted = true)
      (others : ∀ j, j ≠ i → ¬ s.Started j) (stopped : s.session.isStopped = true)
      (vacant : session.Vacant)
      (marked : session.console.transcript.entries = s.session.console.transcript.entries ++
        [.stopMarker]) :
    Turn s i stage (session, .settled (.outcome .stopped))

/-- The states that a session gets into. -/
structure Sound (s : SessionCalls) : Prop where
  vacant : s.session.active = none → s.session.Vacant
  busy : s.session.active ≠ none → s.session.console.input.Sound ∧
      s.session.console.transcript.Unmarked
  active : ∀ i, s.Started i → s.session.active ≠ none
  unique : ∀ i j, s.Started i → s.Started j → i = j
  fits : ∀ i stage, s.call? i = some (.run stage) → stage.isStarted = true →
      stage.Fits s.session.console

namespace Sound

variable {s' : SessionCalls}

theorem input (h : s.Sound) : s.session.console.input.Sound := by
  by_cases ha : s.session.active = none
  · exact (h.vacant ha).sound
  · exact (h.busy ha).1

theorem congr (h : s.Sound) (hc : s'.session.console = s.session.console)
    (ha : s'.session.active = s.session.active)
    (hs : ∀ i stage, s'.call? i = some (.run stage) → stage.isStarted = true →
      s.call? i = some (.run stage)) : s'.Sound := by
  have started : ∀ i, s'.Started i → s.Started i := by
    rintro i ⟨stage, hi, ht⟩
    exact ⟨stage, hs i stage hi ht, ht⟩
  refine ⟨fun hn => ?_, fun hn => ?_, fun i hi => ?_, fun i j hi hj => ?_, fun i stage hi ht => ?_⟩
  · have hv := h.vacant (ha.symm.trans hn)
    exact ⟨hn, by rw [hc]; exact hv.idle, by rw [hc]; exact hv.sound, by rw [hc]; exact hv.marked⟩
  · rw [hc]
    exact h.busy (by rwa [← ha])
  · rw [ha]
    exact h.active i (started i hi)
  · exact h.unique i j (started i hi) (started j hj)
  · rw [hc]
    exact h.fits i stage (hs i stage hi ht) ht

theorem of_console (h : s.Sound) (ha : s.session.active ≠ none) (ha' : session.active ≠ none)
    (hi : session.console.input.Sound)
    (ht : session.console.transcript = s.session.console.transcript)
    (hf : ∀ stage : RunStage, stage.Fits s.session.console → stage.Fits session.console) :
    Sound { s with session } := by
  refine ⟨fun hn => absurd hn ha', fun _ => ⟨hi, ?_⟩, fun i _ => ha', h.unique,
    fun i stage hc hs => ?_⟩
  · rw [ht]
    exact (h.busy ha).2
  · exact hf stage (h.fits i stage hc hs)

theorem of_vacant (hv : s.session.Vacant) (none : ∀ i, ¬ s.Started i) : s.Sound := by
  refine ⟨fun _ => hv, fun ha => absurd hv.free ha, fun i hi => absurd hi (none i),
    fun i j hi => absurd hi (none i), ?_⟩
  exact fun i stage hc hs => absurd ⟨stage, hc, hs⟩ (none i)

theorem of_active (ha : s.session.active ≠ none)
    (hb : s.session.console.input.Sound ∧ s.session.console.transcript.Unmarked)
    (only : ∀ j stage, s.call? j = some (.run stage) → stage.isStarted = true →
      j = i ∧ stage.Fits s.session.console) :
    s.Sound := by
  refine ⟨fun hn => absurd hn ha, fun _ => hb, fun _ _ => ha, ?_, fun j stage hc hs =>
    (only j stage hc hs).2⟩
  rintro j k ⟨stage, hj, hs⟩ ⟨stage', hk, hs'⟩
  rw [(only j stage hj hs).1, (only k stage' hk hs').1]

theorem start (h : s.Sound) {call : SessionCall}
    (hc : ∀ stage, call = .run stage → stage.isStarted = false) :
    (s.start call).2.Sound := by
  refine h.congr rfl rfl fun i stage hi hs => ?_
  rcases s.call?_start call i with he | he
  · rwa [he] at hi
  · rw [he] at hi
    rw [hc stage (Option.some.inj hi)] at hs
    cases hs

theorem submit (h : s.Sound) (text : Text) :
    Sound { s with session := (s.session.submit text).2 } := by
  by_cases ha : s.session.active = none
  · have he : (s.session.console.input.submit text).2 = s.session.console.input := by
      rw [Coordinator.submit, (h.vacant ha).idle]
    refine h.congr ?_ rfl fun i stage hi _ => hi
    exact congrArg (Console.mk s.session.console.transcript) he
  · refine h.of_console ha ha (h.input.submit text) rfl fun stage hf => ?_
    cases stage with
    | created l source => exact hf.elim
    | loading caller announced source => exact hf.submit text
    | talking t => exact Talk.Fits.submit hf text
    | serving t => exact Talk.Fits.submit hf text

theorem stop (h : s.Sound) : Sound { s with session := s.session.stop } := by
  cases ha : s.session.active with
  | none =>
    have hv := h.vacant ha
    have none : ∀ i, ¬ s.Started i := fun i hi => h.active i hi ha
    rw [Session.stop, ha]
    exact of_vacant ⟨ha, hv.idle, hv.sound, hv.marked.markStopped⟩ none
  | some b =>
    have ha' : s.session.active ≠ none := by
      rw [ha]
      exact Option.some_ne_none b
    rw [Session.stop, ha]
    refine h.of_console ha' (Option.some_ne_none true) h.input.cancel rfl fun stage hf => ?_
    cases stage with
    | created l source => exact hf.elim
    | loading caller announced source => exact hf.cancelInput
    | talking t => exact Talk.Fits.cancelInput hf
    | serving t => exact Talk.Fits.cancelInput hf

theorem eq_of_call?_put {stage : RunStage} (others : ∀ j, j ≠ i → ¬ s.Started j)
    (hj : (s.put session i call).call? j = some (.run stage)) (hs : stage.isStarted = true) :
    j = i := by
  by_cases hne : j = i
  · exact hne
  · rw [call?_put_of_ne hne] at hj
    exact absurd ⟨stage, hj, hs⟩ (others j hne)

theorem not_started_put (hi : s.call? i ≠ none) (others : ∀ j, j ≠ i → ¬ s.Started j) (j : Nat) :
    ¬ (s.put session i none).Started j := by
  rintro ⟨stage, hj, hs⟩
  obtain rfl := eq_of_call?_put others hj hs
  rw [call?_put_self hi] at hj
  cases hj

theorem put_vacant (hv : session.Vacant) (hi : s.call? i ≠ none)
    (others : ∀ j, j ≠ i → ¬ s.Started j) :
    (s.put session i none).Sound :=
  of_vacant hv (not_started_put hi others)

theorem put_active (ha : session.active ≠ none)
    (hb : session.console.input.Sound ∧ session.console.transcript.Unmarked) (hi : s.call? i ≠ none)
    (others : ∀ j, j ≠ i → ¬ s.Started j) : (s.put session i none).Sound :=
  of_active (i := i) ha hb fun j stage hj hs => absurd ⟨stage, hj, hs⟩ (not_started_put hi others j)

theorem put_advanced {active : Session} (ha : active.active ≠ none)
    {r : Session × Progress SessionCall Reply} (hr : active.Advanced r) {task : SessionCall}
    (hi : s.call? i ≠ none) (others : ∀ j, j ≠ i → ¬ s.Started j) :
    (s.put r.1 i (r.2.rest task)).Sound := by
  cases hr with
  | @moves s' stage act fits =>
    refine of_active (i := i) (by rw [put, act]; exact ha) fits.console fun j stage' hj hs => ?_
    obtain rfl := eq_of_call?_put others hj hs
    rw [call?_put_self hi] at hj
    cases hj
    exact ⟨rfl, fits⟩
  | settles vacant regular => exact put_vacant vacant hi others
  | breaks act quiet =>
    exact put_active (by rw [act]; exact ha) ⟨quiet.sound, quiet.unmarked⟩ hi others

theorem others (h : s.Sound) (hi : s.Started i) : ∀ j, j ≠ i → ¬ s.Started j :=
  fun j hne hj => hne (h.unique j i hj hi)

theorem put_inert (h : s.Sound) (hc : session.console = s.session.console)
    (ha : session.active = s.session.active) (hi : s.call? i ≠ none)
    (hn : ∀ stage, call = some (.run stage) → stage.isStarted = true →
      s.call? i = some (.run stage)) :
    (s.put session i call).Sound := by
  refine h.congr hc ha fun j stage hj hs => ?_
  by_cases hne : j = i
  · subst hne
    rw [call?_put_self hi] at hj
    exact hn stage hj hs
  · rwa [call?_put_of_ne hne] at hj

theorem turn (h : s.Sound) {stage : RunStage} (hc : s.call? i = some (.run stage)) :
    s.Turn i stage (s.session.poll (.run stage)) := by
  cases hs : stage.isStarted with
  | false =>
    cases stage with
    | loading | talking | serving => cases hs
    | created language source =>
      rw [Session.poll]
      cases hn : s.session.isRunning with
      | true =>
        rw [Session.begin_of_running hn]
        exact .refused ⟨language, source, rfl⟩ hn
      | false =>
        obtain ⟨active, holds, hp⟩ := Session.advanced_begin hn h.input language source
        refine .advances (fun j _ hj => h.active j hj ?_) (Session.isStopped_of_not_running hn)
          holds hp
        exact Session.isRunning_eq_false_iff.1 hn
  | true =>
    have started : s.Started i := ⟨stage, hc, hs⟩
    have hf := h.fits i stage hc hs
    cases hst : s.session.isStopped with
    | true =>
      obtain ⟨session, hp, vacant, marked⟩ := Session.poll_stopped hf hst
      rw [hp]
      exact .stopped hs (h.others started) hst vacant marked
    | false =>
      rcases Session.poll_cases hf hst with ⟨loading, hp⟩ | hp
      · rw [hp]
        exact .waits hs hst
      · exact .advances (h.others started) hst
          (Session.active_of_not_stopped (h.active i started) hst) hp

theorem poll (h : s.Sound) (i : Nat) : (s.poll i).Sound := by
  cases hc : s.call? i with
  | none =>
    rw [SessionCalls.poll, hc]
    exact h
  | some call =>
    have hi : s.call? i ≠ none := Option.ne_none_iff_exists'.2 ⟨call, hc⟩
    rw [poll_of_call? hc]
    cases call with
    | warmUp caller =>
      obtain ⟨loading, progress, hl, hr, -⟩ := s.session.poll_warmUp caller
      rw [hl]
      exact h.put_inert rfl rfl hi fun stage hs => absurd hs (hr stage)
    | run stage =>
      have ht := h.turn hc
      generalize s.session.poll (.run stage) = r at ht
      cases ht with
      | refused created running => exact h.put_inert rfl rfl hi fun stage hs => by cases hs
      | waits started unstopped => exact h.put_inert rfl rfl hi fun stage' hs _ => hc.trans hs
      | advances others unstopped holds advanced =>
        exact put_advanced (Option.ne_none_iff_exists'.2 ⟨false, holds⟩) advanced hi others
      | stopped started others stopped vacant marked => exact put_vacant vacant hi others

theorem drop (h : s.Sound) (i : Nat) : ((s.drop? i).getD s).Sound := by
  rw [drop?_eq]
  cases hc : s.call? i with
  | none => exact h
  | some call =>
    have hi : s.call? i ≠ none := by
      rw [hc]
      exact Option.some_ne_none call
    have put_dropped : ∀ {α : Type} {t : Talk α}, t.Fits s.session.console → s.Started i →
        (s.put { s.session with console := t.drop s.session.console } i none).Sound := by
      intro α t fits started
      exact put_active (h.active i started) fits.drop hi (h.others started)
    dsimp only
    cases call with
    | warmUp caller => exact h.put_inert rfl rfl hi fun stage hs => by cases hs
    | run stage =>
      cases stage with
      | created l source => exact h.put_inert rfl rfl hi fun stage hs => by cases hs
      | loading caller announced source => exact h.put_inert rfl rfl hi fun stage hs => by cases hs
      | talking t => exact put_dropped (h.fits i _ hc rfl) ⟨_, hc, rfl⟩
      | serving t => exact put_dropped (h.fits i _ hc rfl) ⟨_, hc, rfl⟩

theorem step (h : s.Sound) (e : SessionEvent) : (s.step e).Sound := by
  cases e with
  | run language source => exact h.start (by rintro stage ⟨⟩; rfl)
  | warmUp => exact h.start fun stage hs => by cases hs
  | submit text => exact h.submit text
  | stop => exact h.stop
  | release => exact h.congr rfl rfl fun i stage hi _ => hi
  | poll i => exact h.poll i
  | drop i => exact h.drop i

theorem after (h : s.Sound) (events : List SessionEvent) : (s.after events).Sound := by
  induction events generalizing s with
  | nil => exact h
  | cons e es ih => exact ih (h.step e)

end Sound

/-- Every state that a session gets into is sound, whatever happens and in whatever order. -/
theorem sound_after (settings : Settings) (loader : Loader) (launcher : Launcher)
    (events : List SessionEvent) :
    ((new (.withLoader settings loader launcher)).after events).Sound := by
  refine Sound.after ?_ events
  refine Sound.of_vacant ⟨rfl, rfl, Coordinator.sound_idle,
    Transcript.unmarked_empty.marked⟩ fun i => ?_
  rintro ⟨stage, hi, -⟩
  cases hi

end SessionCalls

end SourcePreview
