import SourcePreview.Proofs.Session.Settle
import SourcePreview.Proofs.Session.Stop

/-! The slot of the active run. A stop frees it as soon as the run under way is polled
(`polled_free`); but a run that was dropped, or that broke off, is never polled again, and leaves a
slot that no stop frees (`Abandoned.after`). So a session can be used again behind a stop exactly if
every run under way was polled to its end so far (`slot_after`). -/

namespace SourcePreview.SessionCalls

variable {s start : SessionCalls} {i : Nat} {is : List Nat} {e : SessionEvent}
  {history : List SessionEvent}

def Unbegun (s : SessionCalls) (i : Nat) : Prop :=
  ∃ language source, s.call? i = some (.run (.created language source))

/-- The slot is taken, and no run is under way that could free it. -/
structure Abandoned (s : SessionCalls) : Prop where
  running : s.session.isRunning = true
  unstarted : ∀ i, ¬ s.Started i

/-- No poll brings an open call forward. -/
def Rests (s : SessionCalls) : Prop :=
  ∀ i call, s.call? i = some call → (s.session.poll call).2 = .waiting

/-- A session that can be used: no run is active, nothing is pending, and the next run is not
refused. -/
structure Usable (s : SessionCalls) : Prop where
  free : s.session.isRunning = false
  idle : s.session.console.input.isIdle = true
  accepts : ∀ language source, (s.step (.run language source)).reply? s.calls.length ≠ some .refused

/-- A session that cannot be used any more: whatever happens, every run is refused, and its
transcript is never marked as stopped. -/
structure Wedged (s : SessionCalls) : Prop where
  running : ∀ later, (s.after later).session.isRunning = true
  refuses : ∀ later language source,
    ((s.after later).step (.run language source)).reply? (s.after later).calls.length =
    some .refused
  unmarked : ∀ later, .stopMarker ∉ (s.after later).lines

theorem refuses_of_running (running : s.session.isRunning = true) (language : Language)
    (source : Text) :
    (s.step (.run language source)).reply? s.calls.length = some .refused := by
  have made :
    (s.step (.run language source)).call? s.calls.length = some (.run (.created language source)) :=
    Pool.task?_concat_length _
  have running : (s.step (.run language source)).session.isRunning = true := running
  rw [reply?_of_call? made, Session.poll, Session.begin_of_running running]
  rfl

theorem Sound.usable (h : s.Sound) (free : s.session.isRunning = false) : s.Usable := by
  refine ⟨free, ?_, fun language source refused => ?_⟩
  · rw [Coordinator.isIdle, h.idle free]
    rfl
  · have running := (((h.step (.run language source)).refused_iff _).1 refused).2
    exact absurd (free.symm.trans running) Bool.false_ne_true

namespace Abandoned

theorem step (h : s.Abandoned) (sound : s.Sound) (e : SessionEvent) : (s.step e).Abandoned := by
  constructor
  · have same :
      (s.step e).session.active = s.session.active → (s.step e).session.isRunning = true :=
      fun ha => (Session.isRunning_congr ha).trans h.running
    cases e with
    | run language source => exact same rfl
    | warmUp => exact same rfl
    | submit text => exact same rfl
    | release => exact same rfl
    | poll i => exact same (poll_of_running h.running (h.unstarted i)).1
    | drop i => exact same (Sound.active_drop s i)
    | stop =>
      obtain ⟨b, taken⟩ := Option.isSome_iff_exists.1 h.running
      rw [SessionCalls.step, Session.stop, taken]
      rfl
  · intro i hi
    obtain ⟨rfl, -⟩ := started_of_step sound (h.unstarted i) hi
    exact (poll_of_running h.running (h.unstarted i)).2.2 hi

theorem after (h : s.Abandoned) (sound : s.Sound) (events : List SessionEvent) :
    (s.after events).Abandoned := by
  induction events generalizing s with
  | nil => exact h
  | cons e events ih => exact ih (h.step sound e) (sound.step e)

theorem console_polled (h : s.Abandoned) (sound : s.Sound) (is : List Nat) :
    (s.polled is).session.console = s.session.console := by
  induction is generalizing s with
  | nil => rfl
  | cons i is ih =>
    exact (ih (h.step sound (.poll i)) (sound.poll i)).trans
      (poll_of_running h.running (h.unstarted i)).2.1

theorem wedged (h : s.Abandoned) (sound : s.Sound) : s.Wedged := by
  have running : ∀ later, (s.after later).session.isRunning = true :=
    fun later => (h.after sound later).running
  refine ⟨running, fun later language source => ?_, fun later => ?_⟩
  · exact refuses_of_running (running later) language source
  · have taken : (s.after later).session.active ≠ none :=
      Option.isSome_iff_ne_none.1 (running later)
    exact ((sound.after later).busy taken).2.absent

end Abandoned

theorem abandoned_of_disturbed (sound : s.Sound)
    (disturbed : (∃ i, e = .drop i ∧ s.Started i) ∨ ∃ i o, e = .poll i ∧
      s.reply? i = some (.overwide o)) :
    (s.step e).Abandoned := by
  rcases disturbed with ⟨i, rfl, hi⟩ | ⟨i, o, rfl, hr⟩
  · have taken : (s.step (.drop i)).session.active ≠ none := by
      rw [Sound.active_drop]
      exact sound.active i hi
    refine ⟨Option.isSome_iff_ne_none.2 taken, fun j hj => ?_⟩
    by_cases same : j = i
    · obtain ⟨stage, hc, -⟩ := hi
      rw [same] at hj
      exact (spent_of_dropped hc).not_started hj
    · exact sound.others hi j same ((started_congr (call?_drop_of_ne (Ne.symm same))).1 hj)
  · obtain ⟨call, hc, hr⟩ := Option.bind_eq_some_iff.1 hr
    have present : s.call? i ≠ none := by simp [hc]
    rw [step, poll_of_call? hc]
    cases call with
    | warmUp caller =>
      obtain ⟨loading, progress, hp, -, hl⟩ := s.session.poll_warmUp caller
      rw [hp] at hr
      obtain ⟨result, loaded⟩ := hl _ hr
      cases loaded
    | run stage =>
      have turn := sound.turn hc
      generalize s.session.poll (.run stage) = r at turn hr
      cases turn with
      | refused | waits | stopped => cases hr
      | advances others unstopped holds advanced =>
        cases advanced with
        | moves | settles => cases hr
        | breaks same quiet =>
          exact ⟨by rw [put, Session.isRunning, same, holds]; rfl,
            Sound.not_started_put present others⟩

theorem abandoned_iff (sound : start.Sound) (free : start.session.isRunning = false)
    (history : List SessionEvent) :
    (start.after history).Abandoned ↔ ¬ start.Undisturbed history := by
  constructor
  · intro h undisturbed
    obtain ⟨i, hi⟩ := started_of_running sound undisturbed free h.running
    exact h.unstarted i hi
  · intro h
    by_contra kept
    apply h
    intro earlier e later split
    have undisturbed : ¬ ((∃ i, e = .drop i ∧ (start.after earlier).Started i) ∨
        ∃ i o, e = .poll i ∧ (start.after earlier).reply? i = some (.overwide o)) := by
      intro disturbed
      apply kept
      rw [split, List.append_cons, after_append, after_concat]
      exact (abandoned_of_disturbed (sound.after earlier) disturbed).after
        ((sound.after earlier).step e) later
    exact ⟨fun i drops hi => undisturbed (Or.inl ⟨i, drops, hi⟩), fun i o polls hr =>
      undisturbed (Or.inr ⟨i, o, polls, hr⟩)⟩

theorem unbegun_of_poll (sound : s.Sound) {j : Nat} (h : (s.poll j).Unbegun i) : s.Unbegun i := by
  by_cases same : j = i
  · subst same
    obtain ⟨language, source, created⟩ := h
    cases hc : s.call? j with
    | none =>
      rw [poll, hc] at created
      exact ⟨language, source, created⟩
    | some call =>
      cases call with
      | warmUp caller =>
        obtain ⟨loading, progress, hp, hr, -⟩ := s.session.poll_warmUp caller
        rw [poll_of_call? hc, call?_put_self (by simp [hc]), hp] at created
        exact absurd created (hr _)
      | run stage =>
        rcases poll_run_cases sound hc with ⟨reply, -, gone⟩ | ⟨⟨stage', started, begun⟩, -⟩
        · rw [gone] at created
          cases created
        · rw [started] at created
          cases created
          cases begun
  · obtain ⟨language, source, created⟩ := h
    rw [call?_poll_of_ne same] at created
    exact ⟨language, source, created⟩

theorem unbegun_of_polled (sound : s.Sound) (is : List Nat) (h : (s.polled is).Unbegun i) :
    s.Unbegun i := by
  induction is generalizing s with
  | nil => exact h
  | cons j is ih => exact unbegun_of_poll sound (ih (sound.poll j) h)

theorem free_poll (sound : s.Sound) (free : s.session.isRunning = false) (begun : ¬ s.Unbegun i) :
    (s.poll i).session.isRunning = false := by
  cases hc : s.call? i with
  | none =>
    rw [poll, hc]
    exact free
  | some call =>
    cases call with
    | warmUp caller =>
      obtain ⟨loading, progress, hp, -⟩ := s.session.poll_warmUp caller
      rw [poll_of_call? hc, hp]
      exact free
    | run stage =>
      cases stage with
      | created language source => exact absurd ⟨language, source, hc⟩ begun
      | loading | talking | serving =>
        exact absurd (Session.isRunning_eq_false_iff.1 free) (sound.active i ⟨_, hc, rfl⟩)

theorem free_polled (sound : s.Sound) (free : s.session.isRunning = false)
    (begun : ∀ i ∈ is, ¬ s.Unbegun i) :
    (s.polled is).session.isRunning = false := by
  induction is generalizing s with
  | nil => exact free
  | cons j is ih =>
    rw [List.forall_mem_cons] at begun
    apply ih (sound.poll j) (free_poll sound free begun.1)
    exact fun i hi unbegun => begun.2 i hi (unbegun_of_poll sound unbegun)

/-- A stopped run settles so whenever it is polled first, and leaves the slot free. -/
theorem stops_unpolled (sound : s.Sound) (hi : s.Started i) (stopped : s.session.isStopped = true)
    (unpolled : i ∉ is) :
    ∃ stage session, (s.polled is).call? i = some (.run stage) ∧ session.Vacant ∧
      (s.polled is).session.poll (.run stage) = (session, .settled (.outcome .stopped)) := by
  have others : ∀ e ∈ is.map SessionEvent.poll, e ≠ .poll i ∧ e ≠ .drop i := by
    simp only [List.mem_map]
    rintro e ⟨j, hj, rfl⟩
    exact ⟨fun h => unpolled (SessionEvent.poll.inj h ▸ hj), fun h => nomatch h⟩
  obtain ⟨⟨stage, hc, hs⟩, stopped', -⟩ := after_of_stopped sound hi stopped others
  obtain ⟨session, settled, vacant, -⟩ :=
    Session.poll_stopped ((sound.after _).fits i stage hc hs) stopped'
  exact ⟨stage, session, hc, vacant, settled⟩

/-- The slot is free once the run under way is polled that was stopped. -/
theorem polled_free (sound : s.Sound) (hi : s.Started i) (stopped : s.session.isStopped = true)
    (polls : i ∈ is) :
    ∃ js, js <+: is ∧ (s.polled js).session.isRunning = false := by
  -- the polls in front of its own first one do nothing to the run
  obtain ⟨front, back, rfl, new⟩ := List.eq_append_cons_of_mem polls
  obtain ⟨stage, session, hc, vacant, settled⟩ := stops_unpolled sound hi stopped new
  refine ⟨front ++ [i], ⟨back, by simp⟩, ?_⟩
  rw [polled_append]
  change ((s.polled front).poll i).session.isRunning = false
  rw [poll_of_call? hc, settled]
  exact vacant.not_running

def stopPolled (s : SessionCalls) (is : List Nat) : SessionCalls := (s.step .stop).polled is

theorem isRunning_stop (s : SessionCalls) :
    (s.step .stop).session.isRunning = s.session.isRunning := by
  rw [step, Session.stop]
  cases ha : s.session.active with
  | none => exact Session.isRunning_congr rfl
  | some b =>
    rw [Session.isRunning, Session.isRunning, ha]
    rfl

theorem started_stop (sound : s.Sound) (hi : s.Started i) :
    (s.step .stop).Started i ∧ (s.step .stop).session.isStopped = true := by
  obtain ⟨hi', -, stopped⟩ :=
    step_of_started sound hi (e := .stop) (fun h => nomatch h) (fun h => nomatch h)
  rw [decide_eq_true rfl, Bool.or_true] at stopped
  exact ⟨hi', stopped⟩

theorem polls_of_rests (sound : s.Sound) (rests : (s.stopPolled is).Rests) (hi : s.Started i) :
    i ∈ is := by
  by_contra unpolled
  obtain ⟨hi', stopped⟩ := started_stop sound hi
  obtain ⟨stage, session, hc, -, settled⟩ := stops_unpolled (sound.step .stop) hi' stopped unpolled
  have waits := rests i (.run stage) hc
  rw [stopPolled, settled] at waits
  cases waits

theorem stopPolled_free (sound : s.Sound) (held : s.session.isRunning = true → ∃ i, s.Started i)
    (polls : ∀ i, s.Started i → i ∈ is) :
    ∃ js, js <+: is ∧ (s.stopPolled js).session.isRunning = false := by
  cases running : s.session.isRunning with
  | false => exact ⟨[], List.nil_prefix, (isRunning_stop s).trans running⟩
  | true =>
    obtain ⟨i, hi⟩ := held running
    obtain ⟨hi', stopped⟩ := started_stop sound hi
    exact polled_free (sound.step .stop) hi' stopped (polls i hi)

theorem Sound.polled (sound : s.Sound) (is : List Nat) : (s.polled is).Sound := sound.after _

/-- What a stop makes of the slot of a session with a history, and of the run under way. -/
structure Slot (start : SessionCalls) (history : List SessionEvent) : Prop where
  usable : start.Undisturbed history → ∀ is, (∀ i, (start.after history).Started i → i ∈ is) →
    (∃ js, js <+: is ∧ ((start.after history).stopPolled js).Usable) ∧
      ((∀ i ∈ is, ¬ (start.after history).Unbegun i) → ((start.after history).stopPolled is).Usable)
  wedged : ¬ start.Undisturbed history → ∀ is, ((start.after history).stopPolled is).Wedged ∧
    ((start.after history).stopPolled is).session.console.input.isIdle = true
  rests : ∀ is, ((start.after history).stopPolled is).Rests → ∀ i, (start.after history).Started i →
      i ∈ is
  settle : ∃ is, ((start.after history).step .stop).settle.1 = (start.after history).stopPolled is ∧
    ∀ i, (start.after history).Started i → i ∈ is

/-- Behind a stop, and polls of the runs under way, a session can be used again, whatever happened
before; unless a run under way was dropped or broke off, and then it can never be used again. -/
theorem slot_after (settings : Settings) (loader : Loader) (launcher : Launcher)
    (history : List SessionEvent) :
    (new (.withLoader settings loader launcher)).Slot history := by
  let start := new (.withLoader settings loader launcher)
  have begin : start.Sound := sound_after settings loader launcher []
  have sound : (start.after history).Sound := begin.after history
  refine ⟨fun undisturbed is polls => ?_, fun disturbed is => ?_, fun is rests i hi =>
    polls_of_rests sound rests hi, ?_⟩
  · obtain ⟨js, ⟨ks, rfl⟩, free⟩ :=
      stopPolled_free sound (started_of_running begin undisturbed rfl) polls
    have soundJs := (sound.step .stop).polled js
    refine ⟨⟨js, List.prefix_append js ks, soundJs.usable free⟩, fun begun => ?_⟩
    -- the slot is free behind `js`, and no poll of `ks` begins a run that would take it
    have begunJs : ∀ i ∈ ks, ¬ ((start.after history).stopPolled js).Unbegun i := by
      intro i hi unbegun
      have before := unbegun_of_polled (sound.step .stop) js unbegun
      exact begun i (List.mem_append_right js hi) before
    rw [stopPolled, polled_append]
    exact (soundJs.polled ks).usable (free_polled soundJs free begunJs)
  · have abandoned := ((abandoned_iff begin rfl history).2 disturbed).step sound .stop
    refine ⟨(abandoned.after (sound.step .stop) _).wedged ((sound.step .stop).polled is), ?_⟩
    rw [stopPolled, abandoned.console_polled (sound.step .stop) is]
    exact sound.idle_stop
  · obtain ⟨is, settled, -, covers⟩ := settle_eq_after ((start.after history).step .stop)
    exact ⟨is, settled, fun i hi => covers i hi.call?_ne_none⟩

/-- A run that waits for an answer is dropped; no stop frees its slot. -/
theorem wedged_of_drop :
    let s :=
      (new (.new .bare .default)).after [.run .python "x = input(\"a\")".toList, .poll 0, .drop 0]
    let t := (s.step .stop).settle.1
    t.session.isRunning = true ∧ .stopMarker ∉ t.lines ∧
      (t.step (.run .python "print(1)".toList)).reply? t.calls.length = some .refused := by
  intro s t
  have running : t.session.isRunning = true := by decide +kernel
  exact ⟨running, by decide +kernel, refuses_of_running running _ _⟩

end SourcePreview.SessionCalls
