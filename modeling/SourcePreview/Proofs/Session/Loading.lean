import SourcePreview.Proofs.Loading.Permit
import SourcePreview.Proofs.Session.Event

/-! What a session is to its loading. A poll of a call polls the caller behind it, or drops it when
the run was stopped, or is nothing to the loading; so whatever happens to a session is, for its
loading, a sequence of moves of its callers (`moves_step`). -/

namespace SourcePreview

def SessionCall.caller? : SessionCall → Option Caller
  | .run (.loading caller _ _) => some caller
  | .warmUp caller => some caller
  | _ => none

def Progress.caller? (call : SessionCall) (progress : Progress SessionCall Reply) : Option Caller :=
  (progress.rest call).bind SessionCall.caller?

def RunStage.source? : RunStage → Option Text
  | .created _ source => some source
  | .loading _ _ source => some source
  | _ => none

theorem Dialogue.advance_ne_waiting {α : Type} (d : Dialogue α) (cancelled : Bool) (c : Console)
    (sent : Text) :
    (d.advance cancelled c sent).progress ≠ .waiting := by
  induction d generalizing c sent with
  | done a => simp [advance]
  | say e next ih => exact ih (c.push e) sent
  | send text next ih => exact ih c _
  | check next ih =>
    rw [advance]
    split
    · simp
    · exact ih c sent
  | ask prompt next ih =>
    rw [advance]
    split
    · simp
    · split <;> simp

namespace Session

/-- The caller that the poll of a call polls: that of a run which was not stopped, or of a new one
that finds the slot free. -/
def loads (s : Session) : SessionCall → Option Caller
  | .run (.created language _) =>
    if s.isRunning = false ∧ language = .python ∧ s.settings.pythonBackend = .external then
      some .created else none
  | .run (.loading caller _ _) => if s.isStopped then none else some caller
  | .run _ => none
  | .warmUp caller => some caller

def quits (s : Session) : SessionCall → Option Caller
  | .run (.loading caller _ _) => if s.isStopped then some caller else none
  | _ => none

variable {s : Session} {call : SessionCall} {c : Caller}

theorem caller?_of_loads (h : s.loads call = some c) :
    call.caller? = some c ∨ call.caller? = none ∧ c = .created := by
  cases call with
  | warmUp caller => exact Or.inl h
  | run stage =>
    cases stage with
    | created l source =>
      right
      refine ⟨rfl, ?_⟩
      rw [loads] at h
      split at h
      · exact (Option.some.inj h).symm
      · cases h
    | loading caller announced source =>
      left
      rw [loads] at h
      split at h
      · cases h
      · exact h
    | talking | serving => cases h

theorem quits_of_loads (h : s.loads call = some c) : s.quits call = none := by
  cases call with
  | warmUp caller => rfl
  | run stage =>
    cases stage with
    | created l source => rfl
    | talking | serving => rfl
    | loading caller announced source =>
      rw [loads] at h
      split at h
      · cases h
      · next unstopped => rw [quits, if_neg unstopped]

theorem loads_or_quits (h : call.caller? = some c) :
    s.loads call = some c ∨ s.quits call = some c := by
  cases call with
  | warmUp caller => exact Or.inl h
  | run stage =>
    cases stage with
    | created l source => cases h
    | talking | serving => cases h
    | loading caller announced source =>
      rw [loads, quits]
      cases s.isStopped
      · exact Or.inl h
      · exact Or.inr h

theorem loads_of_stopped (stopped : s.isStopped = true) (h : s.loads call = some c) (s' : Session) :
    s'.loads call = some c := by
  have running : s.isRunning = true := by
    rw [isStopped, beq_iff_eq] at stopped
    rw [isRunning, stopped]
    rfl
  cases call with
  | warmUp caller => exact h
  | run stage =>
    cases stage with
    | created l source => simp [loads, running] at h
    | talking | serving => cases h
    | loading caller announced => simp [loads, stopped] at h

theorem caller?_of_quits (h : s.quits call = some c) : call.caller? = some c := by
  cases call with
  | warmUp caller => cases h
  | run stage =>
    cases stage with
    | created l source => cases h
    | loading caller announced source =>
      rw [quits] at h
      split at h
      · exact h
      · cases h
    | talking | serving => cases h

theorem finish_aside (s : Session) (o : Outcome) (call : SessionCall) :
    (s.finish o).1.loading = s.loading ∧ (s.finish o).2.caller? call = none := by
  unfold finish
  split <;> exact ⟨rfl, rfl⟩

theorem converse_aside {α : Type} {stage : Talk α → RunStage} {refusal : InputError → Text}
    {t : Talk α} {close : Session → α → Session × Progress SessionCall Reply} (s : Session)
    (call : SessionCall) (stays : ∀ t, (SessionCall.run (stage t)).caller? = none)
    (closes : ∀ s a, (close s a).1.loading = s.loading ∧ (close s a).2.caller? call = none)
    (waits : (t.advance s.isStopped s.console []).progress = .waiting → call.caller? = none) :
    (s.converse stage close refusal t).1.loading = s.loading ∧
      (s.converse stage close refusal t).2.caller? call = none := by
  unfold converse
  dsimp only
  split
  · next waiting => exact ⟨rfl, waits waiting⟩
  · exact ⟨rfl, stays _⟩
  · exact closes _ _
  · exact finish_aside _ _ call
  · exact finish_aside _ _ call

theorem talk_aside (s : Session) (t : Talk (Except Overwide Unit)) (call : SessionCall)
    (waits : (t.advance s.isStopped s.console []).progress = .waiting → call.caller? = none) :
    (s.talk t).1.loading = s.loading ∧ (s.talk t).2.caller? call = none := by
  refine s.converse_aside call (fun t => rfl) (fun s a => ?_) waits
  cases a with
  | error e => exact ⟨rfl, rfl⟩
  | ok u => exact finish_aside _ _ call

theorem serve_aside (s : Session) (t : Talk (Except RuntimeError ExitStatus)) (call : SessionCall)
    (waits : (t.advance s.isStopped s.console []).progress = .waiting → call.caller? = none) :
    (s.serve t).1.loading = s.loading ∧ (s.serve t).2.caller? call = none := by
  refine s.converse_aside call (fun t => rfl) (fun s a => ?_) waits
  cases a with
  | error e => exact finish_aside _ _ call
  | ok status =>
    rw [exited]
    split
    · exact finish_aside _ _ call
    · exact finish_aside _ _ call

theorem launch_aside (s : Session) (command source : Text) (call : SessionCall) :
    (s.launch command source).1.loading = s.loading ∧
    (s.launch command source).2.caller? call = none := by
  rw [launch]
  split
  · exact finish_aside _ _ call
  · exact serve_aside _ _ call fun waiting => absurd waiting (Dialogue.advance_ne_waiting _ _ _ _)

/-- What the poll of a call comes to by what its caller settles with, if it does: a run fails with
the reason why there is no interpreter, or its command is started, and a call that loads ahead of a
run settles. -/
inductive Answers (s : Session) (r : Session × Progress SessionCall Reply) :
    SessionCall → Option (Except RuntimeError Interpreter) → Prop where
  | pends {call : SessionCall} (unsettled : r.2.result? = none) : Answers s r call none
  | fails {stage : RunStage} {e : RuntimeError}
      (failed : r.2.result? = some (.outcome (.failed e.message))) :
    Answers s r (.run stage) (some (.error e))
  | launches {s' : Session} {stage : RunStage} {it : Interpreter} {source : Text}
      (given : stage.source? = some source) (same : s'.launcher = s.launcher ∧ s'.starts = s.starts)
      (launched : r = s'.launch it.command source) :
    Answers s r (.run stage) (some (.ok it))
  | tells {caller : Caller} {result : Except RuntimeError Interpreter}
      (told : r.2.result? = some (.loaded result)) :
    Answers s r (.warmUp caller) (some result)

theorem Answers.congr {s s' : Session} {r : Session × Progress SessionCall Reply}
    {result : Option (Except RuntimeError Interpreter)} (h : Answers s r call result)
    (same : s.launcher = s'.launcher ∧ s.starts = s'.starts) : Answers s' r call result := by
  cases h with
  | pends unsettled => exact .pends unsettled
  | fails failed => exact .fails failed
  | launches given eqs launched =>
    exact .launches given ⟨eqs.1.trans same.1, eqs.2.trans same.2⟩ launched
  | tells told => exact .tells told

structure Polls (s : Session) (call : SessionCall) (c : Caller)
    (r : Session × Progress SessionCall Reply) : Prop where
  loading : r.1.loading = (s.loading.poll c).1
  rest : r.2.caller? call = (s.loading.poll c).2.rest c
  answers : Answers s r call (s.loading.poll c).2.result?

theorem Polls.of_poll {s : Session} {c : Caller} {r : Session × Progress SessionCall Reply}
    {loading : Loading} {progress : Progress Caller (Except RuntimeError Interpreter)}
    (hp : s.loading.poll c = (loading, progress)) (same : r.1.loading = loading)
    (rest : r.2.caller? call = progress.rest c) (answers : Answers s r call progress.result?) :
    Polls s call c r :=
  ⟨by rw [hp, same], by rw [hp, rest], by rwa [hp]⟩

theorem load_polls (s : Session) (unstopped : s.isStopped = false) (caller : Caller)
    (announced : Bool) {source : Text} (stage : RunStage) (given : stage.source? = some source)
    (hc : (s.loading.poll caller).2 = .waiting → (SessionCall.run stage).caller? = some caller) :
    Polls s (.run stage) caller (s.load caller announced source) := by
  unfold load
  rw [if_neg (Bool.eq_false_iff.1 unstopped)]
  cases hp : s.loading.poll caller with | mk loading progress
  rw [hp] at hc
  cases progress with
  | waiting => exact .of_poll hp rfl (hc rfl) (.pends rfl)
  | moved caller => exact .of_poll hp rfl rfl (.pends rfl)
  | settled result =>
    cases result with
    | ok it =>
      have launches : ∀ s' : Session, s'.loading = loading → s'.launcher = s.launcher →
          s'.starts = s.starts → Polls s (.run stage) caller (s'.launch it.command source) := by
        intro s' same launcher starts
        obtain ⟨loads, gone⟩ := s'.launch_aside it.command source (.run stage)
        exact .of_poll hp (loads.trans same) gone (.launches given ⟨launcher, starts⟩ rfl)
      cases announced with
      | true => exact launches _ rfl rfl rfl
      | false => exact launches _ rfl rfl rfl
    | error e =>
      obtain ⟨loads, gone⟩ := finish_aside _ (.failed e.message) (.run stage)
      have settles : ∀ s' : Session, s'.isStopped = s.isStopped →
          (s'.finish (.failed e.message)).2.result? = some (.outcome (.failed e.message)) := by
        intro s' same
        rw [finish_of_not_stopped (same.trans unstopped)]
        rfl
      exact .of_poll hp loads gone (.fails (settles _ rfl))

theorem poll_of_loads (h : s.loads call = some c) : Polls s call c (s.poll call) := by
  cases call with
  | warmUp caller =>
    obtain rfl : caller = c := Option.some.inj h
    rw [poll]
    cases hp : s.loading.poll caller with | mk loading progress
    cases progress with
    | waiting => exact .of_poll hp rfl rfl (.pends rfl)
    | moved caller => exact .of_poll hp rfl rfl (.pends rfl)
    | settled result => exact .of_poll hp rfl rfl (.tells rfl)
  | run stage =>
    cases stage with
    | created l source =>
      rw [loads] at h
      split at h
      · next free =>
        obtain ⟨vacant, rfl, external⟩ := free
        obtain rfl : Caller.created = c := Option.some.inj h
        have gets : (s.loading.poll .created).2 = .waiting →
            (SessionCall.run (.created .python source)).caller? = some .created :=
          fun hw => absurd hw (Loading.poll_created_ne_waiting s.loading)
        have begins : ∀ t : Session, ∀ announced, t.loading = s.loading → t.isStopped = false →
            t.launcher = s.launcher → t.starts = s.starts →
            Polls s (.run (.created .python source)) .created
              (t.load .created announced source) := by
          intro t announced loading unstopped launcher starts
          have polls :=
            t.load_polls unstopped .created announced (.created .python source) rfl (loading ▸ gets)
          exact ⟨loading ▸ polls.loading, loading ▸ polls.rest,
            (loading ▸ polls.answers).congr ⟨launcher, starts⟩⟩
        rw [poll, begin, if_neg (Bool.eq_false_iff.1 vacant)]
        dsimp only
        rw [if_pos ⟨rfl, external⟩]
        cases hr : s.loading.isReady with
        | true => exact begins s.taken false rfl rfl rfl rfl
        | false => exact begins (s.taken.push _) true rfl rfl rfl rfl
      · cases h
    | loading caller announced source =>
      rw [loads] at h
      split at h
      · cases h
      · next unstopped =>
        obtain rfl : caller = c := Option.some.inj h
        exact s.load_polls (Bool.eq_false_iff.2 unstopped) caller announced _ rfl fun _ => rfl
    | talking | serving => cases h

theorem poll_of_quits (h : s.quits call = some c) :
    s.isStopped = true ∧ (s.poll call).1.active = none ∧
      (s.poll call).1.loading = s.loading.drop c ∧
      (s.poll call).2 = .settled (.outcome .stopped) := by
  cases call with
  | warmUp caller => cases h
  | run stage =>
    cases stage with
    | created l source => cases h
    | loading caller announced source =>
      rw [quits] at h
      split at h
      · next stopped =>
        obtain rfl : caller = c := Option.some.inj h
        rw [poll, load, if_pos stopped,
          finish_of_stopped (s := { s with loading := s.loading.drop caller }) stopped]
        exact ⟨stopped, rfl, rfl, rfl⟩
      · cases h
    | talking | serving => cases h

theorem poll_of_aside (hl : s.loads call = none) (hq : s.quits call = none) :
    (s.poll call).1.loading = s.loading ∧ call.caller? = none ∧
    (s.poll call).2.caller? call = none := by
  cases call with
  | warmUp caller => cases hl
  | run stage =>
    cases stage with
    | loading caller announced source =>
      rw [loads] at hl
      rw [quits] at hq
      split at hl
      · next stopped =>
        rw [if_pos stopped] at hq
        cases hq
      · cases hl
    | talking t =>
      obtain ⟨loading, gone⟩ := s.talk_aside t (.run (.talking t)) fun _ => rfl
      exact ⟨loading, rfl, gone⟩
    | serving t =>
      obtain ⟨loading, gone⟩ := s.serve_aside t (.run (.serving t)) fun _ => rfl
      exact ⟨loading, rfl, gone⟩
    | created l source =>
      rw [loads] at hl
      split at hl
      · cases hl
      · next busy =>
        rw [poll, begin]
        cases hr : s.isRunning with
        | true =>
          rw [if_pos rfl]
          exact ⟨rfl, rfl, rfl⟩
        | false =>
          rw [if_neg Bool.false_ne_true]
          dsimp only
          rw [if_neg fun he => busy ⟨hr, he⟩]
          split
          · obtain ⟨loading, gone⟩ :=
              s.taken.finish_aside (.document source) (.run (.created l source))
            exact ⟨loading, rfl, gone⟩
          · next d _ =>
            obtain ⟨loading, gone⟩ :=
              s.taken.talk_aside (.ready (preview d s.settings.inputMode source))
              (.run (.created l source)) fun _ => rfl
            exact ⟨loading, rfl, gone⟩

theorem drop_caller (s : Session) (call : SessionCall) :
    (s.drop call).loading =
      match call.caller? with
      | none => s.loading
      | some c => s.loading.drop c := by
  cases call with
  | warmUp caller => rfl
  | run stage => cases stage <;> rfl

end Session

namespace SessionCalls

open Loading (Moves Fair Counted failure underway)

/-- The callers of the loading among the open calls. -/
def callers (s : SessionCalls) : Callers := fun i => (s.call? i).bind SessionCall.caller?

def loads? (s : SessionCalls) (i : Nat) : Option Caller := (s.call? i).bind s.session.loads

def quits? (s : SessionCalls) (i : Nat) : Option Caller := (s.call? i).bind s.session.quits

def failures (s : SessionCalls) : SessionEvent → Nat
  | .poll i =>
    match s.loads? i with
    | some c => failure (s.session.loading.poll c).2
    | none => 0
  | _ => 0

/-- The attempts that are given up by an event: the call is dropped, or polled when its run was
stopped. -/
def abandonments (s : SessionCalls) : SessionEvent → Nat
  | .poll i =>
    match s.quits? i with
    | some c => underway c
    | none => 0
  | .drop i =>
    match s.callers i with
    | some c => underway c
    | none => 0
  | _ => 0

variable {s : SessionCalls} {i : Nat} {call : SessionCall}

theorem callers_eq (s : SessionCalls) (i : Nat) :
    s.callers i = (s.call? i).bind SessionCall.caller? := rfl

theorem callers_put (present : s.call? i ≠ none) (session : Session) (call : Option SessionCall) :
    (s.put session i call).callers = s.callers.put i (call.bind SessionCall.caller?) := by
  funext j
  rw [callers_eq]
  by_cases hj : j = i
  · subst hj
    rw [call?_put_self present, Callers.put_self]
  · rw [call?_put_of_ne hj, Callers.put_of_ne hj, callers_eq]

theorem callers_start (s : SessionCalls) (call : SessionCall) :
    s.callers s.calls.length = none ∧
    (s.start call).2.callers = s.callers.put s.calls.length call.caller? := by
  have free : s.call? s.calls.length = none := by
    apply Classical.byContradiction
    intro hc
    exact Nat.lt_irrefl _ (lt_of_call? hc)
  refine ⟨by rw [callers_eq, free]; rfl, ?_⟩
  funext j
  rw [callers_eq]
  by_cases hj : j = s.calls.length
  · subst hj
    have new : (s.start call).2.call? s.calls.length = some call := Pool.task?_concat_length call
    rw [new, Callers.put_self]
    rfl
  · have old : (s.start call).2.call? j = s.call? j :=
      (Pool.task?_concat s.calls call j).resolve_right fun h => hj h.1
    rw [Callers.put_of_ne hj, old, callers_eq]

theorem moves_poll (s : SessionCalls) (i : Nat) :
    Moves s.session.loading s.callers (s.poll i).session.loading (s.poll i).callers
      (s.failures (.poll i))
      (s.abandonments (.poll i)) := by
  cases hc : s.call? i with
  | none =>
    have still : s.poll i = s := by rw [poll, hc]
    have failures : s.failures (.poll i) = 0 := by simp [SessionCalls.failures, loads?, hc]
    have abandonments : s.abandonments (.poll i) = 0 := by
      simp [SessionCalls.abandonments, quits?, hc]
    rw [still, failures, abandonments]
    exact .refl _ _
  | some call =>
    have present : s.call? i ≠ none := by simp [hc]
    have caller : s.callers i = call.caller? := by rw [callers_eq, hc]; rfl
    rw [poll_of_call? hc, callers_put present]
    change Moves s.session.loading s.callers (s.session.poll call).1.loading
      (s.callers.put i ((s.session.poll call).2.caller? call)) _ _
    cases hl : s.session.loads call with
    | some c =>
      have failures : s.failures (.poll i) = failure (s.session.loading.poll c).2 := by
        simp [SessionCalls.failures, loads?, hc, hl]
      have abandonments : s.abandonments (.poll i) = 0 := by
        simp [SessionCalls.abandonments, quits?, hc, Session.quits_of_loads hl]
      obtain ⟨loading, rest, -⟩ := Session.poll_of_loads hl
      rw [loading, rest, failures, abandonments]
      apply Loading.poll_moves
      rw [caller]
      exact Session.caller?_of_loads hl
    | none =>
      have failures : s.failures (.poll i) = 0 := by simp [SessionCalls.failures, loads?, hc, hl]
      rw [failures]
      cases hq : s.session.quits call with
      | some c =>
        have abandonments : s.abandonments (.poll i) = underway c := by
          simp [SessionCalls.abandonments, quits?, hc, hq]
        obtain ⟨-, -, loading, settled⟩ := Session.poll_of_quits hq
        rw [loading, settled, abandonments]
        exact Loading.drop_moves (caller.trans (Session.caller?_of_quits hq))
      | none =>
        have abandonments : s.abandonments (.poll i) = 0 := by
          simp [SessionCalls.abandonments, quits?, hc, hq]
        obtain ⟨loading, before, rest⟩ := Session.poll_of_aside hl hq
        have still : s.callers.put i none = s.callers := Callers.put_eq_self (caller.trans before)
        rw [loading, rest, abandonments, still]
        exact .refl _ _

/-- Whatever happens to a session is a sequence of moves of the callers of its loading. -/
theorem moves_step (s : SessionCalls) (e : SessionEvent) :
    Moves s.session.loading s.callers (s.step e).session.loading (s.step e).callers (s.failures e)
    (s.abandonments e) := by
  have comes : ∀ call : SessionCall, Callers.Idle call.caller? →
      Moves s.session.loading s.callers (s.start call).2.session.loading (s.start call).2.callers 0
        0 := by
    intro call idle
    obtain ⟨free, new⟩ := s.callers_start call
    rw [new]
    exact (Loading.Move.idles (Or.inl free) idle).moves
  cases e with
  | run language source => exact comes (.run (.created language source)) Callers.idle_none
  | warmUp => exact comes (.warmUp .created) Callers.idle_created
  | submit text => exact .refl _ _
  | stop =>
    have loading : s.session.stop.loading = s.session.loading := by
      unfold Session.stop
      split <;> rfl
    change Moves s.session.loading s.callers s.session.stop.loading s.callers 0 0
    rw [loading]
    exact .refl _ _
  | release => exact (Loading.Move.released _).moves
  | poll i => exact s.moves_poll i
  | drop i =>
    rw [step, drop?_eq]
    cases hc : s.call? i with
    | none =>
      have abandonments : s.abandonments (.drop i) = 0 := by
        simp [SessionCalls.abandonments, callers_eq, hc]
      rw [abandonments]
      exact .refl _ _
    | some call =>
      have present : s.call? i ≠ none := by simp [hc]
      have caller : s.callers i = call.caller? := by rw [callers_eq, hc]; rfl
      dsimp only
      rw [callers_put present]
      change Moves s.session.loading s.callers (s.session.drop call).loading (s.callers.put i none)
        0 _
      rw [Session.drop_caller]
      cases hk : call.caller? with
      | none =>
        have abandonments : s.abandonments (.drop i) = 0 := by
          simp [SessionCalls.abandonments, caller, hk]
        have still : s.callers.put i none = s.callers := Callers.put_eq_self (caller.trans hk)
        rw [abandonments, still]
        exact .refl _ _
      | some c =>
        have abandonments : s.abandonments (.drop i) = underway c := by
          simp [SessionCalls.abandonments, caller, hk]
        rw [abandonments]
        exact Loading.drop_moves (caller.trans hk)

end SessionCalls

end SourcePreview
