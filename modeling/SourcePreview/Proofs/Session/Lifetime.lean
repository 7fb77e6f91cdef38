import SourcePreview.Proofs.Session.Exclusion

/-! The life of a run. It begins with the poll that takes the slot (`started_of_step`), and once it
is over its number is never used again (`Spent.after`). -/

namespace SourcePreview.SessionCalls

variable {s : SessionCalls} {i : Nat} {e : SessionEvent}

def Spent (s : SessionCalls) (i : Nat) : Prop := i < s.calls.length ∧ s.call? i = none

theorem Started.call?_ne_none (h : s.Started i) : s.call? i ≠ none := by
  obtain ⟨stage, hc, -⟩ := h
  rw [hc]
  exact Option.some_ne_none _

theorem Spent.not_started (h : s.Spent i) : ¬ s.Started i :=
  fun hs => hs.call?_ne_none h.2

theorem started_congr {s' : SessionCalls} (h : s'.call? i = s.call? i) :
    s'.Started i ↔ s.Started i := by
  unfold Started
  rw [h]

theorem poll_run_cases (h : s.Sound) {stage : RunStage} (hc : s.call? i = some (.run stage)) :
    (∃ reply, s.reply? i = some reply ∧ (s.poll i).call? i = none) ∨
      (s.poll i).Started i ∧ (s.poll i).session.isStopped = false ∧
      s.session.isStopped = false := by
  have hi : s.call? i ≠ none := Option.ne_none_iff_exists'.2 ⟨_, hc⟩
  have ht := h.turn hc
  rw [reply?_of_call? hc, poll_of_call? hc]
  generalize s.session.poll (.run stage) = r at ht
  cases ht with
  | refused created running => exact Or.inl ⟨_, rfl, call?_put_self hi⟩
  | waits started unstopped =>
    exact Or.inr ⟨⟨stage, call?_put_self hi, started⟩, unstopped, unstopped⟩
  | advances others unstopped holds advanced =>
    cases advanced with
    | @moves _ stage' same fits =>
      refine Or.inr ⟨⟨stage', call?_put_self hi, fits.isStarted⟩, ?_, unstopped⟩
      rw [put, Session.isStopped, same, holds]
      rfl
    | settles => exact Or.inl ⟨_, rfl, call?_put_self hi⟩
    | breaks => exact Or.inl ⟨_, rfl, call?_put_self hi⟩
  | stopped started others stopped vacant marked => exact Or.inl ⟨_, rfl, call?_put_self hi⟩

theorem length_put (session : Session) (call : Option SessionCall) :
    (s.put session i call).calls.length = s.calls.length :=
  List.length_set

theorem length_poll (s : SessionCalls) (i : Nat) : (s.poll i).calls.length = s.calls.length := by
  unfold poll
  cases s.call? i with
  | none => rfl
  | some call => exact length_put _ _

theorem length_step_ge (s : SessionCalls) (e : SessionEvent) :
    s.calls.length ≤ (s.step e).calls.length := by
  cases e with
  | run language source => simp [step, start]
  | warmUp => simp [step, start]
  | submit text => exact Nat.le_refl _
  | stop => exact Nat.le_refl _
  | release => exact Nat.le_refl _
  | poll i => exact Nat.le_of_eq (length_poll s i).symm
  | drop i =>
    rw [step, drop?_eq]
    cases s.call? i with
    | none => exact Nat.le_refl _
    | some call => exact Nat.le_of_eq (length_put _ _).symm

theorem spent_of_settled {call : SessionCall} (hc : s.call? i = some call) {reply : Reply}
    (settled : (s.session.poll call).2 = .settled reply) : (s.poll i).Spent i := by
  have present : s.call? i ≠ none := by simp [hc]
  refine ⟨Nat.lt_of_lt_of_le (lt_of_call? present) (length_step_ge s (.poll i)), ?_⟩
  rw [poll_of_call? hc, call?_put_self present, settled]
  rfl

theorem spent_of_dropped {call : SessionCall} (hc : s.call? i = some call) :
    (s.step (.drop i)).Spent i := by
  have present : s.call? i ≠ none := by simp [hc]
  refine ⟨Nat.lt_of_lt_of_le (lt_of_call? present) (length_step_ge s (.drop i)), ?_⟩
  rw [step, drop?_eq, hc]
  exact call?_put_self present

theorem call?_poll_of_ne {j : Nat} (hj : j ≠ i) : (s.poll j).call? i = s.call? i := by
  unfold poll
  cases s.call? j with
  | none => rfl
  | some call => exact call?_put_of_ne hj.symm

theorem call?_drop_of_ne {j : Nat} (hj : j ≠ i) : (s.step (.drop j)).call? i = s.call? i := by
  rw [step, drop?_eq]
  cases s.call? j with
  | none => rfl
  | some call => exact call?_put_of_ne hj.symm

theorem call?_step_cases (s : SessionCalls) (hp : e ≠ .poll i) (hd : e ≠ .drop i) :
    (s.step e).call? i = s.call? i ∨
      ∃ call, (s.step e).call? i = some call ∧ ∀ stage, call = .run stage →
        stage.isStarted = false := by
  cases e with
  | run language source =>
    refine (call?_start (.run (.created language source)) i).imp_right fun h =>
      ⟨.run (.created language source), h, ?_⟩
    rintro stage ⟨⟩
    rfl
  | warmUp =>
    refine (call?_start (.warmUp .created) i).imp_right fun h => ⟨.warmUp .created, h, ?_⟩
    exact fun stage hs => nomatch hs
  | submit text => exact Or.inl rfl
  | stop => exact Or.inl rfl
  | release => exact Or.inl rfl
  | poll j => exact Or.inl (call?_poll_of_ne fun hj => hp (congrArg SessionEvent.poll hj))
  | drop j => exact Or.inl (call?_drop_of_ne fun hj => hd (congrArg SessionEvent.drop hj))

theorem call?_step (s : SessionCalls) (hi : i < s.calls.length) (hp : e ≠ .poll i)
    (hd : e ≠ .drop i) :
    (s.step e).call? i = s.call? i := by
  cases e with
  | run language source => exact call?_start_of_lt _ hi
  | warmUp => exact call?_start_of_lt _ hi
  | submit text => rfl
  | stop => rfl
  | release => rfl
  | poll j => exact call?_poll_of_ne fun hj => hp (congrArg SessionEvent.poll hj)
  | drop j => exact call?_drop_of_ne fun hj => hd (congrArg SessionEvent.drop hj)

theorem Spent.step (h : s.Spent i) (e : SessionEvent) : (s.step e).Spent i := by
  refine ⟨Nat.lt_of_lt_of_le h.1 (length_step_ge s e), ?_⟩
  by_cases hp : e = .poll i
  · rw [hp, SessionCalls.step, poll, h.2]
    exact h.2
  by_cases hd : e = .drop i
  · rw [hd, SessionCalls.step, drop?_eq, h.2]
    exact h.2
  · rw [call?_step s h.1 hp hd, h.2]

theorem Spent.after (h : s.Spent i) (events : List SessionEvent) : (s.after events).Spent i := by
  induction events generalizing s with
  | nil => exact h
  | cons e es ih => exact ih (h.step e)

theorem Started.step (hi : s.Started i) (h : s.Sound) (e : SessionEvent) :
    (s.step e).Started i ∨ (s.step e).Spent i := by
  have hl := lt_of_call? hi.call?_ne_none
  have hl' := Nat.lt_of_lt_of_le hl (length_step_ge s e)
  by_cases hp : e = .poll i
  · subst hp
    obtain ⟨stage, hc, -⟩ := hi
    rcases poll_run_cases h hc with ⟨reply, -, hn⟩ | ⟨hs, -⟩
    · exact Or.inr ⟨hl', hn⟩
    · exact Or.inl hs
  by_cases hd : e = .drop i
  · subst hd
    obtain ⟨stage, hc, -⟩ := hi
    exact Or.inr (spent_of_dropped hc)
  · exact Or.inl ((started_congr (call?_step s hl hp hd)).2 hi)

theorem Started.after (hi : s.Started i) (h : s.Sound) (events : List SessionEvent) :
    (s.after events).Started i ∨ (s.after events).Spent i := by
  induction events generalizing s with
  | nil => exact Or.inl hi
  | cons e es ih =>
    rcases hi.step h e with hs | hs
    · exact ih hs (h.step e)
    · exact Or.inr (hs.after es)

/-- A run gets under way only by a poll, and is not stopped then. -/
theorem started_of_step (h : s.Sound) (hn : ¬ s.Started i) (hi : (s.step e).Started i) :
    e = .poll i ∧ (s.step e).session.isStopped = false := by
  by_cases hp : e = .poll i
  · refine ⟨hp, ?_⟩
    subst hp
    cases hc : s.call? i with
    | none =>
      rw [SessionCalls.step, poll, hc] at hi
      exact absurd hi hn
    | some call =>
      have open_ : s.call? i ≠ none := by
        rw [hc]
        exact Option.some_ne_none _
      cases call with
      | warmUp caller =>
        obtain ⟨stage, hs, -⟩ := hi
        obtain ⟨loading, progress, hl, hr, -⟩ := s.session.poll_warmUp caller
        rw [SessionCalls.step, poll_of_call? hc, call?_put_self open_, hl] at hs
        exact absurd hs (hr stage)
      | run stage =>
        rcases poll_run_cases h hc with ⟨reply, -, hr⟩ | ⟨-, hs, -⟩
        · exact absurd hr hi.call?_ne_none
        · exact hs
  by_cases hd : e = .drop i
  · subst hd
    cases hc : s.call? i with
    | none =>
      rw [SessionCalls.step, drop?_eq, hc] at hi
      exact absurd hi hn
    | some call => exact absurd hi (spent_of_dropped hc).not_started
  · rcases call?_step_cases s hp hd with hc | ⟨call, hc, hs⟩
    · exact absurd ((started_congr hc).1 hi) hn
    · obtain ⟨stage, hi, ht⟩ := hi
      rw [hs stage (Option.some.inj (hc.symm.trans hi))] at ht
      cases ht

end SourcePreview.SessionCalls
