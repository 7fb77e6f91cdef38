import Mathlib.Data.List.Induction
import SourcePreview.Proofs.Session.Lifetime

/-! Stopping a session. A stop leaves nothing pending; a run under way that was stopped settles as
stopped when it is next polled, whatever happens to the session until then, and leaves the lines of
the stop with the marker behind them (`stopping_after`). -/

namespace SourcePreview.SessionCalls

variable {s start : SessionCalls} {i : Nat} {e : SessionEvent} {events : List SessionEvent}

/-- The poll of a call that is no run under way does nothing to a taken slot and its console, and
gets no run under way. -/
theorem poll_of_running (running : s.session.isRunning = true) (unstarted : ¬ s.Started i) :
    (s.poll i).session.active = s.session.active ∧ (s.poll i).session.console = s.session.console ∧
    ¬ (s.poll i).Started i := by
  cases hc : s.call? i with
  | none =>
    rw [poll, hc]
    exact ⟨rfl, rfl, unstarted⟩
  | some call =>
    have present : s.call? i ≠ none := by simp [hc]
    rw [poll_of_call? hc]
    cases call with
    | warmUp caller =>
      obtain ⟨loading, progress, hp, hr, -⟩ := s.session.poll_warmUp caller
      rw [hp]
      refine ⟨rfl, rfl, ?_⟩
      rintro ⟨stage, hs, -⟩
      rw [call?_put_self present] at hs
      exact hr stage hs
    | run stage =>
      cases stage with
      | created language source =>
        rw [Session.poll, Session.begin_of_running running]
        refine ⟨rfl, rfl, ?_⟩
        rintro ⟨stage, hs, -⟩
        rw [call?_put_self present] at hs
        cases hs
      | loading | talking | serving => exact absurd ⟨_, hc, rfl⟩ unstarted

theorem poll_of_started (h : s.Sound) (hi : s.Started i) {j : Nat} (hj : j ≠ i) :
    (s.poll j).session.console = s.session.console ∧
    (s.poll j).session.active = s.session.active := by
  have running : s.session.isRunning = true := Option.isSome_iff_ne_none.2 (h.active i hi)
  obtain ⟨active, console, -⟩ := poll_of_running running fun started => hj (h.unique j i started hi)
  exact ⟨console, active⟩

theorem drop_of_started (h : s.Sound) (hi : s.Started i) {j : Nat} (hj : j ≠ i) :
    (s.step (.drop j)).session.console = s.session.console := by
  rw [step, drop?_eq]
  cases hc : s.call? j with
  | none => rfl
  | some call =>
    cases call with
    | warmUp caller => rfl
    | run stage =>
      cases hs : stage.isStarted with
      | true => exact absurd (h.unique j i ⟨stage, hc, hs⟩ hi) hj
      | false =>
        cases stage with
        | loading | talking | serving => cases hs
        | created language source => rfl

theorem step_of_started (h : s.Sound) (hi : s.Started i) (hp : e ≠ .poll i) (hd : e ≠ .drop i) :
    (s.step e).Started i ∧ (s.step e).session.console.transcript = s.session.console.transcript ∧
      (s.step e).session.isStopped = (s.session.isStopped || decide (e = .stop)) := by
  refine ⟨(started_congr (call?_step s (lt_of_call? hi.call?_ne_none) hp hd)).2 hi, ?_⟩
  cases e with
  | run language source => exact ⟨rfl, (Bool.or_false _).symm⟩
  | warmUp => exact ⟨rfl, (Bool.or_false _).symm⟩
  | submit text => exact ⟨rfl, (Bool.or_false _).symm⟩
  | release => exact ⟨rfl, (Bool.or_false _).symm⟩
  | stop =>
    obtain ⟨b, ha⟩ := Option.ne_none_iff_exists'.1 (h.active i hi)
    rw [step, Session.stop, ha]
    exact ⟨rfl, (Bool.or_true _).symm⟩
  | poll j =>
    obtain ⟨h1, h2⟩ := poll_of_started h hi fun hj => hp (congrArg SessionEvent.poll hj)
    refine ⟨congrArg Console.transcript h1, ?_⟩
    rw [step, Session.isStopped_congr h2]
    exact (Bool.or_false _).symm
  | drop j =>
    have h1 := drop_of_started h hi fun hj => hd (congrArg SessionEvent.drop hj)
    refine ⟨congrArg Console.transcript h1, ?_⟩
    rw [Session.isStopped_congr (Sound.active_drop s j)]
    exact (Bool.or_false _).symm

theorem after_of_stopped (h : s.Sound) (hi : s.Started i) (hs : s.session.isStopped = true)
    (he : ∀ e ∈ events, e ≠ .poll i ∧ e ≠ .drop i) :
    (s.after events).Started i ∧ (s.after events).session.isStopped = true ∧
      (s.after events).session.console.transcript = s.session.console.transcript := by
  induction events generalizing s with
  | nil => exact ⟨hi, hs, rfl⟩
  | cons e es ih =>
    rw [List.forall_mem_cons] at he
    obtain ⟨h1, h2, h3⟩ := step_of_started h hi he.1.1 he.1.2
    rw [← h2]
    refine ih (h.step e) h1 ?_ he.2
    rw [h3, hs]
    rfl

def Takes (start : SessionCalls) (history : List SessionEvent) (i : Nat) : Prop :=
  ¬ (start.after history).Started i ∧ (start.after (history ++ [.poll i])).Started i

/-- A stop came after the run took the slot. -/
def StoppedSince (start : SessionCalls) (history : List SessionEvent) (i : Nat) : Prop :=
  ∃ earlier later, history = earlier ++ .poll i :: later ∧ start.Takes earlier i ∧ .stop ∈ later

theorem after_concat (s : SessionCalls) (history : List SessionEvent) (e : SessionEvent) :
    s.after (history ++ [e]) = (s.after history).step e :=
  after_append s history [e]

theorem isStopped_step (h : s.Sound) (hi : s.Started i) (hi' : (s.step e).Started i) :
    (s.step e).session.isStopped = (s.session.isStopped || decide (e = .stop)) := by
  by_cases hp : e = .poll i
  · subst hp
    obtain ⟨stage, hc, -⟩ := hi
    rcases poll_run_cases h hc with ⟨reply, -, hn⟩ | ⟨-, hs', hs⟩
    · exact absurd hn hi'.call?_ne_none
    · rw [step, hs', hs]
      rfl
  by_cases hd : e = .drop i
  · subst hd
    obtain ⟨stage, hc, -⟩ := hi
    exact absurd hi' (spent_of_dropped hc).not_started
  · exact (step_of_started h hi hp hd).2.2

theorem stoppedSince_concat {history : List SessionEvent} :
    start.StoppedSince (history ++ [e]) i ↔
      start.StoppedSince history i ∨
        e = .stop ∧ ∃ earlier later, history = earlier ++ .poll i :: later ∧
        start.Takes earlier i := by
  constructor
  · rintro ⟨earlier, later, he, ht, hs⟩
    obtain ⟨later, e', rfl⟩ := (List.eq_nil_or_concat later).resolve_left (List.ne_nil_of_mem hs)
    rw [List.concat_eq_append] at he hs
    obtain ⟨rfl, h⟩ :=
      List.append_inj' (he.trans (List.append_assoc earlier (.poll i :: later) [e']).symm) rfl
    cases h
    rcases List.mem_append.1 hs with hs | hs
    · exact Or.inl ⟨earlier, later, rfl, ht, hs⟩
    · exact Or.inr ⟨(List.mem_singleton.1 hs).symm, earlier, later, rfl, ht⟩
  · rintro (⟨earlier, later, rfl, ht, hs⟩ | ⟨rfl, earlier, later, rfl, ht⟩)
    · exact ⟨earlier, later ++ [e], by simp, ht, List.mem_append_left _ hs⟩
    · exact ⟨earlier, later ++ [.stop], by simp, ht, by simp⟩

theorem started_or_spent_of_takes (h : start.Sound) {earlier : List SessionEvent}
    (ht : start.Takes earlier i) (later : List SessionEvent) :
    (start.after (earlier ++ .poll i :: later)).Started i ∨
      (start.after (earlier ++ .poll i :: later)).Spent i := by
  rw [List.append_cons, after_append]
  exact ht.2.after (h.after _) later

theorem isStopped_iff (h : start.Sound) (hn : ∀ i, ¬ start.Started i) (history : List SessionEvent)
    (hi : (start.after history).Started i) :
    (∃ earlier later, history = earlier ++ .poll i :: later ∧ start.Takes earlier i) ∧
      ((start.after history).session.isStopped = true ↔ start.StoppedSince history i) := by
  -- along the history: with the poll that takes the slot the run begins, and every later event
  -- keeps both facts
  induction history using List.reverseRecOn with
  | nil => exact absurd hi (hn i)
  | append_singleton history e ih =>
    rw [after_concat] at hi ⊢
    by_cases hs : (start.after history).Started i
    · obtain ⟨⟨earlier, later, he, ht⟩, hiff⟩ := ih hs
      refine ⟨⟨earlier, later ++ [e], by rw [he]; simp, ht⟩, ?_⟩
      rw [isStopped_step (h.after history) hs hi, stoppedSince_concat, Bool.or_eq_true, hiff,
        decide_eq_true_eq]
      exact or_congr_right ⟨fun hst => ⟨hst, earlier, later, he, ht⟩, And.left⟩
    · obtain ⟨rfl, hst⟩ := started_of_step (h.after history) hs hi
      refine ⟨⟨history, [], rfl, hs, by rwa [after_concat]⟩, ?_⟩
      rw [hst, stoppedSince_concat]
      constructor
      · intro hc
        cases hc
      · rintro (⟨earlier, later, rfl, ht, -⟩ | ⟨hc, -⟩)
        · rcases started_or_spent_of_takes h ht later with hs' | hs'
          · exact absurd hs' hs
          · exact absurd hi (hs'.step _).not_started
        · cases hc

/-- No run under way was dropped, and none broke off. -/
def Undisturbed (start : SessionCalls) (history : List SessionEvent) : Prop :=
  ∀ earlier e later, history = earlier ++ e :: later →
    (∀ i, e = .drop i → ¬ (start.after earlier).Started i) ∧
      ∀ i o, e = .poll i → (start.after earlier).reply? i ≠ some (.overwide o)

theorem Undisturbed.of_concat {history : List SessionEvent}
    (h : start.Undisturbed (history ++ [e])) :
    start.Undisturbed history := by
  intro earlier e' later he
  exact h earlier e' (later ++ [e]) (by rw [he]; simp)

/-- A run that settles while the slot stays taken was refused, unless it broke off. -/
theorem refused_of_running (h : s.Sound) {stage : RunStage} (hc : s.call? i = some (.run stage))
    {reply : Reply} (hr : s.reply? i = some reply) (ho : ∀ o, reply ≠ .overwide o)
    (hn : (s.poll i).session.isRunning = true) :
    s.session.isRunning = true ∧ stage.isStarted = false := by
  cases settles_of_reply? h hr with
  | refused created running =>
    rw [created] at hc
    cases hc
    exact ⟨running, rfl⟩
  | loaded call result =>
    rw [call] at hc
    cases hc
  | outcome unstopped regular vacant =>
    rw [vacant.not_running] at hn
    cases hn
  | stopped started stopped vacant marked =>
    rw [vacant.not_running] at hn
    cases hn
  | overwide e => exact absurd rfl (ho e)

/-- The slot is taken by a run under way, unless that is dropped or breaks off. -/
theorem running_step (h : s.Sound) (hd : ∀ i, e = .drop i → ¬ s.Started i)
    (ho : ∀ i o, e = .poll i → s.reply? i ≠ some (.overwide o))
    (ih : s.session.isRunning = true → ∃ i, s.Started i)
    (hn : (s.step e).session.isRunning = true) : ∃ i, (s.step e).Started i := by
  cases hr : s.session.isRunning with
  | true =>
    obtain ⟨i, hi⟩ := ih hr
    by_cases hp : e = .poll i
    · subst hp
      obtain ⟨stage, hc, hs⟩ := hi
      rcases poll_run_cases h hc with ⟨reply, hreply, -⟩ | ⟨hs', -⟩
      · have hb : ∀ o, reply ≠ .overwide o := fun o he => ho i o rfl (by rw [hreply, he])
        rw [(refused_of_running h hc hreply hb hn).2] at hs
        cases hs
      · exact ⟨i, hs'⟩
    by_cases hdrop : e = .drop i
    · exact absurd hi (hd i hdrop)
    · exact ⟨i, (step_of_started h hi hp hdrop).1⟩
  | false =>
    have same : (s.step e).session.active = s.session.active → ∃ i, (s.step e).Started i := by
      intro ha
      rw [Session.isRunning_congr ha, hr] at hn
      cases hn
    cases e with
    | run language source => exact same rfl
    | warmUp => exact same rfl
    | submit text => exact same rfl
    | release => exact same rfl
    | drop j => exact same (Sound.active_drop s j)
    | stop =>
      have ha := Session.isRunning_eq_false_iff.1 hr
      refine same ?_
      rw [step, Session.stop, ha]
      exact ha
    | poll j =>
      cases hc : s.call? j with
      | none => exact same (by rw [step, poll, hc])
      | some call =>
        cases call with
        | warmUp caller =>
          obtain ⟨loading, progress, hp, -⟩ := s.session.poll_warmUp caller
          refine same ?_
          rw [step, poll_of_call? hc, hp]
          rfl
        | run stage =>
          rcases poll_run_cases h hc with ⟨reply, hreply, -⟩ | ⟨hs', -⟩
          · have hb : ∀ o, reply ≠ .overwide o := fun o he => ho j o rfl (by rw [hreply, he])
            rw [(refused_of_running h hc hreply hb hn).1] at hr
            cases hr
          · exact ⟨j, hs'⟩

theorem started_of_running (h : start.Sound) {history : List SessionEvent}
    (hu : start.Undisturbed history) (hn : start.session.isRunning = false)
    (hr : (start.after history).session.isRunning = true) :
    ∃ i, (start.after history).Started i := by
  induction history using List.reverseRecOn with
  | nil =>
    have hr : start.session.isRunning = true := hr
    rw [hn] at hr
    cases hr
  | append_singleton history e ih =>
    rw [after_concat] at hr ⊢
    obtain ⟨hd, ho⟩ := hu history e [] rfl
    exact running_step (h.after history) hd ho (ih hu.of_concat) hr

def lines (s : SessionCalls) : List Entry := s.session.console.transcript.entries

structure Stopping (start : SessionCalls) (history : List SessionEvent) : Prop where
  idle : ((start.after history).step .stop).session.console.input.isIdle = true
  settles :
      ∀ i, (start.after history).Started i → ∀ later, (∀ e ∈ later, e ≠ .poll i ∧ e ≠ .drop i) →
    (start.after (history ++ .stop :: later)).lines = (start.after history).lines ∧
      (start.after (history ++ .stop :: later)).reply? i = some (.outcome .stopped) ∧
        (start.after (history ++ .stop :: later ++ [.poll i])).lines =
        (start.after history).lines ++ [.stopMarker]
  marks :
      (start.after history).session.isRunning = false → ((start.after history).step .stop).lines =
    if .stopMarker ∈ (start.after history).lines then (start.after history).lines
    else (start.after history).lines ++ [.stopMarker]
  marker_last :
      ∀ xs ys, (start.after history).lines = xs ++ .stopMarker :: ys → ys = [] ∧ .stopMarker ∉ xs
  stopped_iff : ∀ i o, (start.after history).reply? i = some (.outcome o) →
    (o = .stopped ↔ start.StoppedSince history i)
  running : start.Undisturbed history → (start.after history).session.isRunning = true →
    ∃ i, (start.after history).Started i

namespace Sound

theorem marked (h : s.Sound) : s.session.console.transcript.Marked := by
  by_cases ha : s.session.active = none
  · exact (h.vacant ha).marked
  · exact (h.busy ha).2.marked

theorem idle_stop (h : s.Sound) : (s.step .stop).session.console.input.isIdle = true := by
  rw [SessionCalls.step, Session.stop]
  cases ha : s.session.active with
  | none =>
    rw [Coordinator.isIdle]
    exact Option.isNone_iff_eq_none.2 (h.vacant ha).idle
  | some b =>
    rw [Coordinator.isIdle]
    exact Option.isNone_iff_eq_none.2 (Coordinator.pending_cancel _)

theorem lines_stop (h : s.Sound) (hn : s.session.isRunning = false) :
    (s.step .stop).lines = if .stopMarker ∈ s.lines then s.lines else s.lines ++ [.stopMarker] := by
  have ha := Session.isRunning_eq_false_iff.1 hn
  have he : (s.step .stop).lines = s.session.console.transcript.markStopped.entries := by
    rw [SessionCalls.step, Session.stop, ha]
    rfl
  rw [he]
  cases hs : s.session.console.transcript.stopped with
  | true =>
    rw [Transcript.markStopped_of_stopped hs]
    exact (if_pos (h.marked.stopped_iff.1 hs)).symm
  | false =>
    have hu := h.marked.unmarked hs
    rw [hu.entries_markStopped]
    exact (if_neg hu.absent).symm

theorem settles_stopped (h : s.Sound) (hi : s.Started i) {later : List SessionEvent}
    (he : ∀ e ∈ later, e ≠ .poll i ∧ e ≠ .drop i) :
    (s.after (.stop :: later)).lines = s.lines ∧
      (s.after (.stop :: later)).reply? i = some (.outcome .stopped) ∧
      (s.after (.stop :: later ++ [.poll i])).lines = s.lines ++ [.stopMarker] := by
  obtain ⟨h1, h2, h3⟩ :=
    step_of_started h hi (e := .stop) (fun hc => nomatch hc) (fun hc => nomatch hc)
  rw [decide_eq_true rfl, Bool.or_true] at h3
  obtain ⟨⟨stage, hc, hs⟩, h5, h6⟩ := after_of_stopped (h.step .stop) h1 h3 he
  have hf := ((h.step .stop).after later).fits i stage hc hs
  obtain ⟨s', hp, -, hl⟩ := Session.poll_stopped hf h5
  have same : (s.after (.stop :: later)).lines = s.lines :=
    congrArg Transcript.entries (h6.trans h2)
  refine ⟨same, ?_, ?_⟩
  · have := reply?_of_call? hc
    rw [hp] at this
    exact this
  · rw [after_concat, ← same, SessionCalls.step, poll_of_call? (s := s.after (.stop :: later)) hc]
    refine Eq.trans ?_ hl
    exact congrArg (fun r => r.1.console.transcript.entries) hp

end Sound

theorem stopped_iff (h : start.Sound) (hn : ∀ i, ¬ start.Started i) {history : List SessionEvent}
    {o : Outcome} (hr : (start.after history).reply? i = some (.outcome o)) :
    o = .stopped ↔ start.StoppedSince history i := by
  cases settles_of_reply? (h.after history) hr with
  | outcome unstopped regular vacant =>
    refine ⟨fun ho => absurd ho regular.1, fun hst => ?_⟩
    obtain ⟨earlier, later, rfl, ht, -⟩ := id hst
    rcases started_or_spent_of_takes h ht later with hs | hs
    · rw [((isStopped_iff h hn _ hs).2.2 hst)] at unstopped
      cases unstopped
    · rw [reply?, hs.2] at hr
      cases hr
  | stopped started stopped vacant marked =>
    exact ⟨fun _ => (isStopped_iff h hn _ started).2.1 stopped, fun _ => rfl⟩

/-- Whatever happens to a session and in whatever order, this is what a stop does. -/
theorem stopping_after (settings : Settings) (loader : Loader) (launcher : Launcher)
    (history : List SessionEvent) :
    (new (.withLoader settings loader launcher)).Stopping history := by
  have h0 := sound_after settings loader launcher []
  have hn : ∀ i, ¬ (new (.withLoader settings loader launcher)).Started i := by
    rintro i ⟨stage, hi, -⟩
    cases hi
  have h := h0.after history
  refine ⟨h.idle_stop, fun i hi later he => ?_, h.lines_stop,
    fun xs ys he => h.marked.eq_nil_of_append he, fun i o hr => stopped_iff h0 hn hr,
    fun hu hr => started_of_running h0 hu rfl hr⟩
  rw [List.append_assoc, after_append, after_append]
  exact h.settles_stopped hi he

end SourcePreview.SessionCalls
