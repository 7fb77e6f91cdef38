import SourcePreview.Proofs.Session.Event

/-! One run at a time. Whatever happens to a session, a run is refused exactly while another one
holds the slot, nothing is pending while no run does, and an outcome frees it
(`exclusive_after`). -/

namespace SourcePreview.SessionCalls

variable {s : SessionCalls} {i : Nat} {reply : Reply}

/-- What the poll of a call settles with, and what it finds and leaves. -/
inductive Settles (s : SessionCalls) (i : Nat) : Reply → Prop where
  | refused {language : Language} {source : Text}
      (created : s.call? i = some (.run (.created language source)))
      (running : s.session.isRunning = true) :
    Settles s i .refused
  | loaded {caller : Caller} (call : s.call? i = some (.warmUp caller))
      (result : Except RuntimeError Interpreter) :
    Settles s i (.loaded result)
  | outcome {o : Outcome} (unstopped : s.session.isStopped = false) (regular : o.Regular)
      (vacant : (s.poll i).session.Vacant) :
    Settles s i (.outcome o)
  | stopped (started : s.Started i) (stopped : s.session.isStopped = true)
      (vacant : (s.poll i).session.Vacant)
      (marked : (s.poll i).session.console.transcript.entries =
        s.session.console.transcript.entries ++ [.stopMarker]) :
    Settles s i (.outcome .stopped)
  | overwide (e : Overwide) : Settles s i (.overwide e)

theorem settles_of_reply? (h : s.Sound) (hr : s.reply? i = some reply) : s.Settles i reply := by
  cases hc : s.call? i with
  | none =>
    rw [reply?, hc] at hr
    cases hr
  | some call =>
    rw [reply?_of_call? hc] at hr
    cases call with
    | warmUp caller =>
      obtain ⟨loading, progress, hp, -, hl⟩ := s.session.poll_warmUp caller
      rw [hp] at hr
      obtain ⟨result, rfl⟩ := hl reply hr
      exact .loaded hc result
    | run stage =>
      have ht := h.turn hc
      have hp := poll_of_call? hc
      generalize s.session.poll (.run stage) = r at ht hp hr
      cases ht with
      | refused created running =>
        obtain ⟨language, source, rfl⟩ := created
        cases hr
        exact .refused hc running
      | waits => cases hr
      | advances others unstopped holds advanced =>
        cases advanced with
        | moves => cases hr
        | settles vacant regular =>
          cases hr
          exact .outcome unstopped regular (by rw [hp]; exact vacant)
        | breaks =>
          cases hr
          exact .overwide _
      | stopped started others stopped vacant marked =>
        cases hr
        exact .stopped ⟨stage, hc, started⟩ stopped (by rw [hp]; exact vacant)
          (by rw [hp]; exact marked)

structure Exclusive (s : SessionCalls) : Prop where
  single : ∀ i j, s.Started i → s.Started j → i = j
  refused_iff : ∀ i, s.reply? i = some .refused ↔
    (∃ language source, s.call? i = some (.run (.created language source))) ∧
    s.session.isRunning = true
  refused_inert : ∀ i, s.reply? i = some .refused →
    (s.poll i).session = s.session ∧ ∀ j, j ≠ i → (s.poll i).call? j = s.call? j
  dropped_holds : ∀ i, (s.step (.drop i)).session.active = s.session.active
  pending_runs : ∀ r, s.session.console.input.pending = some r → s.session.isRunning = true
  idle : s.session.isRunning = false → s.session.console.input.isIdle = true ∧
    ∀ text, s.session.submit text = (.error .notAwaiting, s.session)
  outcome_frees : ∀ i o, s.reply? i = some (.outcome o) → (s.poll i).session.isRunning = false
  unrefused : ∀ i (e : InputError), s.reply? i ≠ some (.outcome (.failed (refusalText e))) ∧
    s.reply? i ≠ some (.outcome (.failed e.message))

namespace Sound

theorem refused_iff (h : s.Sound) (i : Nat) : s.reply? i = some .refused ↔
    (∃ language source, s.call? i = some (.run (.created language source))) ∧
    s.session.isRunning = true := by
  constructor
  · intro hr
    cases settles_of_reply? h hr with
    | @refused language source created running => exact ⟨⟨language, source, created⟩, running⟩
  · rintro ⟨⟨language, source, hc⟩, hn⟩
    rw [reply?_of_call? hc, Session.poll, Session.begin_of_running hn]
    rfl

theorem refused_inert (h : s.Sound) (hr : s.reply? i = some .refused) :
    (s.poll i).session = s.session ∧ ∀ j, j ≠ i → (s.poll i).call? j = s.call? j := by
  obtain ⟨⟨language, source, hc⟩, hn⟩ := (h.refused_iff i).1 hr
  rw [poll_of_call? hc, Session.poll, Session.begin_of_running hn]
  exact ⟨rfl, fun j hj => call?_put_of_ne hj⟩

theorem active_drop (s : SessionCalls) (i : Nat) :
    (s.step (.drop i)).session.active = s.session.active := by
  rw [SessionCalls.step, drop?_eq]
  cases s.call? i with
  | none => rfl
  | some call =>
    cases call with
    | warmUp caller => rfl
    | run stage => cases stage <;> rfl

theorem idle (h : s.Sound) (hn : s.session.isRunning = false) :
    s.session.console.input.pending = none :=
  (h.vacant (Session.isRunning_eq_false_iff.1 hn)).idle

theorem submit_of_idle (h : s.Sound) (hn : s.session.isRunning = false) (text : Text) :
    s.session.submit text = (.error .notAwaiting, s.session) := by
  have hs :
      s.session.console.input.submit text = (.error .notAwaiting, s.session.console.input) := by
    rw [Coordinator.submit, h.idle hn]
  rw [Session.submit, hs]

theorem exclusive (h : s.Sound) : s.Exclusive where
  single := h.unique
  refused_iff := h.refused_iff
  refused_inert i := h.refused_inert
  dropped_holds := active_drop s
  pending_runs r hr := by
    cases hn : s.session.isRunning with
    | true => rfl
    | false =>
      rw [h.idle hn] at hr
      cases hr
  idle hn := by
    refine ⟨?_, h.submit_of_idle hn⟩
    rw [Coordinator.isIdle, h.idle hn]
    rfl
  outcome_frees i o hr := by
    cases settles_of_reply? h hr with
    | outcome unstopped regular vacant => exact vacant.not_running
    | stopped started stopped vacant marked => exact vacant.not_running
  unrefused i e := by
    constructor
    · intro hr
      cases settles_of_reply? h hr with
      | outcome unstopped regular vacant => exact (regular.2 e).1 rfl
    · intro hr
      cases settles_of_reply? h hr with
      | outcome unstopped regular vacant => exact (regular.2 e).2 rfl

end Sound

/-- Whatever happens to a session and in whatever order, it runs one run at a time. -/
theorem exclusive_after (settings : Settings) (loader : Loader) (launcher : Launcher)
    (events : List SessionEvent) :
    ((new (.withLoader settings loader launcher)).after events).Exclusive :=
  (sound_after settings loader launcher events).exclusive

end SourcePreview.SessionCalls
