import SourcePreview.Proofs.Session.Loading

/-! The interpreter is loaded once for all calls on a session: one attempt at most is under way,
attempts are counted by how they ended, all calls get the interpreter of the one that succeeded, and
without it the next caller makes an attempt of its own (`shares_loading`). -/

namespace SourcePreview

namespace SessionCalls

open Loading (Fair Counted)

def total (count : SessionCalls → SessionEvent → Nat) (s : SessionCalls) : List SessionEvent → Nat
  | [] => 0
  | e :: events => count s e + total count (s.step e) events

def isAttempting (call : Option SessionCall) : Bool :=
  match call.bind SessionCall.caller? with
  | some (.attempting _) => true
  | _ => false

def inFlight (s : SessionCalls) : Nat := s.calls.countP isAttempting

variable {s : SessionCalls} {i j : Nat} {c : Caller}

/-- The states of the loading of a session behind a history: the line is fair, and the attempts are
counted. -/
structure Loads (loader : Loader) (s : SessionCalls) (failed given : Nat) : Prop where
  fair : s.session.loading.Fair s.callers
  counted : s.session.loading.Counted s.callers failed given
  loader : s.session.loading.loader = loader
  genuine : s.session.loading.Genuine

variable {loader : Loader} {failed given : Nat}

theorem Loads.step (h : s.Loads loader failed given) (e : SessionEvent) :
    (s.step e).Loads loader (failed + s.failures e) (given + s.abandonments e) := by
  have moves := s.moves_step e
  exact ⟨h.fair.moves moves, h.fair.counted_moves h.counted moves, moves.kept.1.trans h.loader,
    h.genuine.moves moves⟩

theorem Loads.after (h : s.Loads loader failed given) (events : List SessionEvent) :
    (s.after events).Loads loader (failed + total failures s events)
    (given + total abandonments s events) := by
  induction events generalizing s failed given with
  | nil => exact h
  | cons e events ih =>
    have rest := ih (h.step e)
    rw [Nat.add_assoc, Nat.add_assoc] at rest
    exact rest

theorem loads_new (settings : Settings) (loader : Loader) (launcher : Launcher) :
    (new (.withLoader settings loader launcher)).Loads loader 0 0 := by
  have none : ∀ i, (new (.withLoader settings loader launcher)).callers i = none := fun i => rfl
  have nobody : ∀ {i c}, (new (.withLoader settings loader launcher)).callers i ≠ some c := by
    intro i c hc
    rw [none i] at hc
    cases hc
  refine ⟨⟨fun _ => rfl, List.nodup_nil, ?_, ?_, ?_, ?_, ?_, ?_, fun _ => rfl⟩, Or.inr ⟨?_, rfl⟩,
    rfl, ?_⟩
  · intro id hid
    cases hid
  · intro i id hc
    exact absurd hc nobody
  · rintro i j id (hc | ⟨⟨n, hc⟩, -⟩) -
    · exact absurd hc nobody
    · exact absurd hc nobody
  · intro id hid
    cases hid
  · intro _ i id hc
    exact absurd hc nobody
  · intro i n hc
    exact absurd hc nobody
  · rintro ⟨i, n, hc⟩
    exact nobody hc
  · intro it ready
    cases ready

theorem countP_le_one {α : Type} {p : α → Bool} {l : List α}
    (unique : ∀ (i j : Nat) (a b : α), l[i]? = some a → l[j]? = some b → p a = true → p b = true →
      i = j) :
    l.countP p ≤ 1 := by
  induction l with
  | nil => exact Nat.zero_le 1
  | cons x l ih =>
    by_cases hx : p x = true
    · have none : l.countP p = 0 := by
        rw [List.countP_eq_zero]
        intro a ha hp
        obtain ⟨i, hi, rfl⟩ := List.getElem_of_mem ha
        have same := unique 0 (i + 1) x l[i] rfl (by simp) hx hp
        cases same
      rw [List.countP_cons_of_pos hx]
      omega
    · rw [List.countP_cons_of_neg hx]
      apply ih
      intro i j a b ha hb hpa hpb
      have same := unique (i + 1) (j + 1) a b ha hb hpa hpb
      exact Nat.succ.inj same

theorem isAttempting_iff (call : Option SessionCall) :
    isAttempting call = true ↔ ∃ n, call.bind SessionCall.caller? = some (.attempting n) := by
  unfold isAttempting
  split
  · next n hn => exact iff_of_true rfl ⟨n, hn⟩
  · next other =>
    refine iff_of_false Bool.false_ne_true ?_
    rintro ⟨n, hn⟩
    exact other n hn

theorem inFlight_pos_iff (s : SessionCalls) : 0 < s.inFlight ↔ s.callers.Attempting := by
  rw [inFlight, List.countP_pos_iff]
  constructor
  · rintro ⟨call, member, attempting⟩
    obtain ⟨n, hn⟩ := (isAttempting_iff call).1 attempting
    obtain ⟨i, hi, rfl⟩ := List.getElem_of_mem member
    refine ⟨i, n, ?_⟩
    rw [callers_eq, call?, List.getElem?_eq_getElem hi]
    exact hn
  · rintro ⟨i, n, hn⟩
    rw [callers_eq, call?] at hn
    cases hc : s.calls[i]? with
    | none =>
      rw [hc] at hn
      cases hn
    | some call =>
      rw [hc] at hn
      exact ⟨call, List.mem_of_getElem? hc, (isAttempting_iff call).2 ⟨n, hn⟩⟩

theorem Loads.inFlight_le_one (h : s.Loads loader failed given) : s.inFlight ≤ 1 := by
  apply countP_le_one
  intro i j a b ha hb hpa hpb
  obtain ⟨m, hm⟩ := (isAttempting_iff a).1 hpa
  obtain ⟨n, hn⟩ := (isAttempting_iff b).1 hpb
  apply h.fair.single (m := m) (n := n)
  · rw [callers_eq, call?, ha]
    exact hm
  · rw [callers_eq, call?, hb]
    exact hn

theorem Loads.attempts_eq (h : s.Loads loader failed given) : s.session.loading.attempts =
    failed + given + s.inFlight + if s.session.loading.isReady then 1 else 0 := by
  rcases h.counted with ⟨attempting, count⟩ | ⟨none, count⟩
  · have one : s.inFlight = 1 :=
      Nat.le_antisymm h.inFlight_le_one ((inFlight_pos_iff s).2 attempting)
    obtain ⟨i, n, hn⟩ := attempting
    have unready : s.session.loading.isReady = false := by
      rw [Loading.isReady, h.fair.unready hn]
      rfl
    rw [count, one, unready]
    simp
  · have zero : s.inFlight = 0 :=
      Nat.eq_zero_of_not_pos fun pos => none ((inFlight_pos_iff s).1 pos)
    rw [count, zero, Nat.add_zero]

theorem Loads.inFlight_eq_zero (h : ¬ s.callers.Attempting) : s.inFlight = 0 :=
  Nat.eq_zero_of_not_pos fun pos => h ((inFlight_pos_iff s).1 pos)

theorem session_poll {call : SessionCall} (h : s.call? i = some call) :
    (s.poll i).session = (s.session.poll call).1 := by
  rw [poll_of_call? h]
  rfl

def loaded? (s : SessionCalls) (i : Nat) : Option (Except RuntimeError Interpreter) :=
  (s.loads? i).bind fun c => (s.session.loading.poll c).2.result?

theorem loads?_eq_some_iff :
    s.loads? i = some c ↔ ∃ call, s.call? i = some call ∧ s.session.loads call = some c :=
  Option.bind_eq_some_iff

theorem loading_poll (h : s.loads? i = some c) :
    (s.poll i).session.loading = (s.session.loading.poll c).1 := by
  obtain ⟨call, present, loads⟩ := loads?_eq_some_iff.1 h
  rw [session_poll present]
  exact (Session.poll_of_loads loads).loading

theorem callers_of_loads? (h : s.loads? i = some c) (old : c ≠ .created) :
    s.callers i = some c := by
  obtain ⟨call, present, loads⟩ := loads?_eq_some_iff.1 h
  rw [callers_eq, present]
  rcases Session.caller?_of_loads loads with caller | ⟨-, new⟩
  · exact caller
  · exact absurd new old

/-- How the loading goes on without the interpreter and with no attempt under way: the caller in
front of the line makes an attempt when it is polled, or leaves the line when its run was stopped.
With nobody in line, the next caller to be polled makes one. -/
inductive Retries (s : SessionCalls) : Prop where
  | front {i : Nat} {id : CallerId} (first : s.session.loading.holder = some id)
      (loads : s.loads? i = some (.queued id))
    (begins : (s.poll i).session.loading.attempts = s.session.loading.attempts + 1)
  | leaves {i : Nat} {id : CallerId} (first : s.session.loading.holder = some id)
      (quits : s.quits? i = some (.queued id))
    (line : (s.poll i).session.loading.line = s.session.loading.line.tail)
    (unready : (s.poll i).session.loading.interpreter = none) (ended : (s.poll i).inFlight = 0)
  | anyone (empty : s.session.loading.line = [])
    (begins : ∀ i c, s.loads? i = some c →
      (s.poll i).session.loading.attempts = s.session.loading.attempts + 1)

theorem Loads.retries (h : s.Loads loader failed given)
    (unready : s.session.loading.interpreter = none) (ended : s.inFlight = 0) : s.Retries := by
  have none : ¬ s.callers.Attempting := by
    rw [← inFlight_pos_iff, ended]
    exact Nat.lt_irrefl 0
  cases held : s.session.loading.holder with
  | none =>
    have empty : s.session.loading.line = [] := by
      rw [Loading.line, held, h.fair.vacant held]
      rfl
    refine .anyone empty fun i c loads => ?_
    rw [loading_poll loads]
    cases c with
    | created =>
      rw [Loading.poll_created_of_free unready held]
      exact Loading.attempts_attempt _
    | queued id =>
      have caller := callers_of_loads? loads (by simp)
      have placed := h.fair.placed unready i id caller
      rw [empty] at placed
      cases placed
    | attempting n =>
      have caller := callers_of_loads? loads (by simp)
      exact absurd ⟨i, n, caller⟩ none
  | some id =>
    obtain ⟨i, stands⟩ := h.fair.manned id (Loading.mem_line_of_holder held)
    have caller : s.callers i = some (.queued id) := by
      rcases stands with caller | ⟨⟨n, attempting⟩, -⟩
      · exact caller
      · exact absurd ⟨i, n, attempting⟩ none
    obtain ⟨call, present, hc⟩ := Option.bind_eq_some_iff.1 caller
    rcases Session.loads_or_quits (s := s.session) hc with loads | quits
    · have loads : s.loads? i = some (.queued id) := loads?_eq_some_iff.2 ⟨call, present, loads⟩
      refine .front held loads ?_
      rw [loading_poll loads, Loading.poll_queued unready, if_pos held]
      exact Loading.attempts_attempt _
    · obtain ⟨-, -, loading, settled⟩ := Session.poll_of_quits quits
      have passed : (s.poll i).session.loading = s.session.loading.handOver := by
        rw [session_poll present, loading, Loading.drop, if_pos held]
      refine .leaves held (Option.bind_eq_some_iff.2 ⟨call, present, quits⟩) ?_ ?_ ?_
      · rw [passed, Loading.line_handOver held]
      · rw [passed, (Loading.handOver_kept _).2.1, unready]
      · apply Loads.inFlight_eq_zero
        rw [poll_of_call? present, settled, callers_put (by simp [present])]
        rintro ⟨j, n, hj⟩
        exact none ⟨j, n, (Callers.of_put_none hj).2⟩

theorem Loads.revived (h : s.Loads loader failed given)
    (unready : s.session.loading.interpreter = none) (ended : s.inFlight = 0)
    (wants : s.loads? j = some c) : ∃ polls : List Nat, polls.length ≤ 2 ∧
      (s.after (polls.map .poll)).session.loading.attempts = s.session.loading.attempts + 1 := by
  cases h.retries unready ended with
  | @front i id first loads begins => exact ⟨[i], by simp, begins⟩
  | anyone empty begins => exact ⟨[j], by simp, begins j c wants⟩
  | @leaves i id first quits line unready' ended' =>
    obtain ⟨call, present, quit⟩ := Option.bind_eq_some_iff.1 quits
    obtain ⟨stopped, vacant, loading, -⟩ := Session.poll_of_quits quit
    have session := session_poll present
    have attempts : (s.poll i).session.loading.attempts = s.session.loading.attempts := by
      rw [session, loading, Loading.drop, if_pos first]
      exact (Loading.handOver_kept _).2.2
    have unstopped : (s.poll i).session.isStopped = false := by
      rw [session, Session.isStopped, vacant]
      rfl
    have other : j ≠ i := by
      rintro rfl
      obtain ⟨call', present', loads⟩ := loads?_eq_some_iff.1 wants
      obtain rfl : call = call' := Option.some.inj (present.symm.trans present')
      rw [Session.quits_of_loads loads] at quit
      cases quit
    have wants' : (s.poll i).loads? j = some c := by
      obtain ⟨call', present', loads⟩ := loads?_eq_some_iff.1 wants
      refine loads?_eq_some_iff.2 ⟨call', ?_, Session.loads_of_stopped stopped loads _⟩
      rw [poll_of_call? present, call?_put_of_ne other, present']
    -- behind the stopped run the slot is free, so the next caller in front is not one that leaves
    cases (h.step (.poll i)).retries unready' ended' with
    | @front k id first loads begins =>
      exact ⟨[i, k], by simp, begins.trans (congrArg (· + 1) attempts)⟩
    | anyone empty begins =>
      exact ⟨[i, j], by simp, (begins j c wants').trans (congrArg (· + 1) attempts)⟩
    | leaves first quits =>
      obtain ⟨call, present, quits⟩ := Option.bind_eq_some_iff.1 quits
      obtain ⟨stopped', -⟩ := Session.poll_of_quits quits
      change (s.poll i).session.isStopped = true at stopped'
      rw [unstopped] at stopped'
      cases stopped'

/-- What holds of the loading in a state of a session, with the attempts that failed and that were
given up so far. -/
structure SharesLoading (loader : Loader) (s : SessionCalls) (failed given : Nat) : Prop where
  single : s.inFlight ≤ 1
  counted : s.session.loading.attempts =
    failed + given + s.inFlight + if s.session.loading.isReady then 1 else 0
  kept : ∀ it, s.session.loading.interpreter = some it → ∀ events,
    (s.after events).session.loading.interpreter = some it ∧
      (s.after events).session.loading.attempts = s.session.loading.attempts
  served : ∀ it, s.session.loading.interpreter = some it → ∀ i c, s.loads? i = some c →
    s.loaded? i = some (.ok it)
  brought : ∀ i it, s.loaded? i = some (.ok it) →
    (s.poll i).session.loading.interpreter = some it ∧ ∃ n, loader.attempt n = .ok it
  own : ∀ i e, s.loaded? i = some (.error e) → s.failures (.poll i) = 1 ∧
    ∃ n, loader.attempt n = .error e ∧
      (s.callers i = some (.attempting n) ∨
        n = s.session.loading.attempts ∧ (s.poll i).session.loading.attempts = n + 1)
  told : ∀ i call, s.call? i = some call →
    ∀ c, call.caller? = some c ∨ s.session.loads call = some c →
      if (s.loads? i).isSome then s.session.Answers (s.session.poll call) call (s.loaded? i)
      else s.reply? i = some (.outcome .stopped)
  vacated : ∀ e, 0 < s.failures e + s.abandonments e →
    (s.step e).session.loading.interpreter = none ∧ (s.step e).inFlight = 0
  retries : s.session.loading.interpreter = none → s.inFlight = 0 → s.Retries
  revived : s.session.loading.interpreter = none → s.inFlight = 0 → ∀ j c, s.loads? j = some c →
    ∃ polls : List Nat, polls.length ≤ 2 ∧
      (s.after (polls.map .poll)).session.loading.attempts = s.session.loading.attempts + 1

theorem kept_after (it : Interpreter) (ready : s.session.loading.interpreter = some it)
    (events : List SessionEvent) :
    (s.after events).session.loading.interpreter = some it ∧
      (s.after events).session.loading.attempts = s.session.loading.attempts := by
  induction events generalizing s with
  | nil => exact ⟨ready, rfl⟩
  | cons e events ih =>
    obtain ⟨ready', attempts⟩ := (s.moves_step e).kept.2 it ready
    obtain ⟨ready'', attempts'⟩ := ih ready'
    exact ⟨ready'', attempts'.trans attempts⟩

theorem loaded?_eq (h : s.loads? i = some c) :
    s.loaded? i = (s.session.loading.poll c).2.result? := by
  rw [loaded?, h]
  rfl

theorem poll_of_loaded? {result : Except RuntimeError Interpreter} (h : s.loaded? i = some result) :
    ∃ c, s.loads? i = some c ∧ (s.session.loading.poll c).2 = .settled result := by
  obtain ⟨c, loads, settled⟩ := Option.bind_eq_some_iff.1 h
  refine ⟨c, loads, ?_⟩
  cases hp : (s.session.loading.poll c).2 with
  | waiting | moved =>
    rw [hp] at settled
    cases settled
  | settled result' =>
    rw [hp] at settled
    exact congrArg Progress.settled (Option.some.inj settled)

theorem Loads.shares (h : s.Loads loader failed given) : SharesLoading loader s failed given := by
  refine ⟨h.inFlight_le_one, h.attempts_eq, kept_after, ?_, ?_, ?_, ?_, ?_, h.retries, ?_⟩
  · intro it ready i c loads
    rw [loaded?_eq loads, Loading.poll_of_ready ready]
    rfl
  · intro i it loaded
    obtain ⟨c, loads, settled⟩ := poll_of_loaded? loaded
    have ready : (s.poll i).session.loading.interpreter = some it := by
      rw [loading_poll loads]
      rcases Loading.poll_settled settled with ⟨it', ready, hi, same⟩ | ⟨-, brings, -⟩
      · cases hi
        rw [same, ready]
      · exact brings it rfl
    have later := h.step (.poll i)
    obtain ⟨n, attempt⟩ := later.genuine it ready
    exact ⟨ready, n, later.loader ▸ attempt⟩
  · intro i e loaded
    obtain ⟨c, loads, settled⟩ := poll_of_loaded? loaded
    rcases Loading.poll_settled settled with ⟨it, ready, hi, same⟩ | ⟨unready, -, n, attempt, mine⟩
    · cases hi
    · refine ⟨?_, n, ?_, ?_⟩
      · rw [failures, loads]
        dsimp only
        rw [settled]
        rfl
      · rw [← h.loader]
        exact attempt
      · rw [loading_poll loads]
        rcases mine with rfl | begun
        · exact Or.inl (callers_of_loads? loads (by simp))
        · exact Or.inr begun
  · intro i call present c caller
    cases loads : s.session.loads call with
    | some c' =>
      have loads? : s.loads? i = some c' := loads?_eq_some_iff.2 ⟨call, present, loads⟩
      rw [if_pos (by simp [loads?]), loaded?_eq loads?]
      exact (Session.poll_of_loads loads).answers
    | none =>
      have loads? : s.loads? i = none := by rw [SessionCalls.loads?, present]; exact loads
      have caller := caller.resolve_right fun hc => by rw [loads] at hc; cases hc
      have quits := (Session.loads_or_quits (s := s.session) caller).resolve_left fun hc => by
        rw [loads] at hc; cases hc
      obtain ⟨-, -, -, settled⟩ := Session.poll_of_quits quits
      rw [if_neg (by simp [loads?]), reply?_of_call? present, settled]
      rfl
  · intro e ended
    obtain ⟨unready, none⟩ := h.fair.vacated_moves (s.moves_step e) ended
    exact ⟨unready, Loads.inFlight_eq_zero none⟩
  · intro unready ended j c wants
    exact h.revived unready ended wants

/-- The interpreter of a session is loaded once for all calls on it, whatever happens and in
whatever order. -/
theorem shares_loading (settings : Settings) (loader : Loader) (launcher : Launcher)
    (events : List SessionEvent) :
    SharesLoading loader ((new (.withLoader settings loader launcher)).after events)
      (total failures (new (.withLoader settings loader launcher)) events)
      (total abandonments (new (.withLoader settings loader launcher)) events) := by
  have loads := (loads_new settings loader launcher).after events
  rw [Nat.zero_add, Nat.zero_add] at loads
  exact loads.shares

end SessionCalls

end SourcePreview
