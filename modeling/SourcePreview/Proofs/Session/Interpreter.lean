import SourcePreview.Proofs.Session.Sharing
import SourcePreview.Proofs.Session.Steady
import SourcePreview.Proofs.Session.Stop

/-! What a run that needs the interpreter leaves in the transcript. Whether the loading is announced
is decided when the run takes the slot; from then on other calls may load the interpreter, fail to,
or be dropped, and the lines of the run stay in order all the same (`interpreter_told`). -/

namespace SourcePreview

namespace Entry

/-- The line of a run that finds no interpreter loaded. -/
def loadingNotice : Entry := .info ">>> Loading Python runtime...".toList

def loadedNotice : Entry := .info ">>> Python runtime loaded".toList

def retryHint : Entry := .info ">>> Run again to retry loading the Python runtime".toList

/-- The line that tells why no interpreter could be loaded. -/
def unavailable (e : RuntimeError) : Entry :=
  .error ("Error: Python runtime unavailable: ".toList ++ e.message)

/-- The line that tells that the command which was loaded cannot be started, and why. -/
def unstartable (it : Interpreter) (reason : Text) : Entry :=
  .error ("Error: ".toList ++ (RuntimeError.spawn it.command reason).message)

end Entry

namespace Session

variable {s : Session} {caller : Caller}

/-- How the loading goes on for a run that was not stopped, and whose command cannot be started: the
run waits or moves with its caller, or settles by what the caller settled with, and tells so. -/
inductive Told (s : Session) (caller : Caller) (announced : Bool) (source : Text) :
    Session × Progress SessionCall Reply → Prop where
  | waits {loading : Loading} (polled : (s.loading.poll caller).2 = .waiting) :
    Told s caller announced source ({ s with loading }, .waiting)
  | moves {loading : Loading} {caller' : Caller}
      (polled : (s.loading.poll caller).2 = .moved caller') :
    Told s caller announced source
      ({ s with loading }, .moved (.run (.loading caller' announced source)))
  | unavailable {s' : Session} {e : RuntimeError}
      (polled : (s.loading.poll caller).2 = .settled (.error e))
      (told : s'.console.transcript.entries = s.console.transcript.entries ++ [.unavailable e,
        .retryHint]) :
    Told s caller announced source (s', .settled (.outcome (.failed e.message)))
  | unstartable {s' : Session} {it : Interpreter} {reason : Text}
      (polled : (s.loading.poll caller).2 = .settled (.ok it))
      (refused : s.launcher s.starts it.command source = .error reason)
      (told : s'.console.transcript.entries = s.console.transcript.entries ++
        (if announced then [.loadedNotice] else []) ++ [.unstartable it reason]) :
    Told s caller announced source
      (s', .settled (.outcome (.failed (RuntimeError.spawn it.command reason).message)))

theorem launch_of_refused {command source reason : Text} (unstopped : s.isStopped = false)
    (refused : s.launcher s.starts command source = .error reason) :
    s.launch command source =
      ({ s.push (.error ("Error: ".toList ++ (RuntimeError.spawn command reason).message)) with
          starts := s.starts + 1, active := none },
        .settled (.outcome (.failed (RuntimeError.spawn command reason).message))) := by
  have started : Session.isStopped { s with starts := s.starts + 1 } = false := unstopped
  rw [launch, refused]
  exact finish_of_not_stopped (s := push { s with starts := s.starts + 1 } _) started _

theorem load_told (unstopped : s.isStopped = false)
    (writable : s.console.transcript.stopped = false) (caller : Caller) (announced : Bool)
    (source : Text) (refuses : ∀ it, (s.loading.poll caller).2 = .settled (.ok it) →
      ∃ reason, s.launcher s.starts it.command source = .error reason) :
    s.Told caller announced source (s.load caller announced source) := by
  rw [load, if_neg (Bool.eq_false_iff.1 unstopped)]
  cases hp : s.loading.poll caller with | mk loading progress
  have polled : (s.loading.poll caller).2 = progress := by rw [hp]
  cases progress with
  | waiting => exact .waits polled
  | moved caller' => exact .moves polled
  | settled result =>
    cases result with
    | ok it =>
      obtain ⟨reason, refused⟩ := refuses it polled
      cases announced with
      | true =>
        have launched :=
          launch_of_refused (s := push { s with loading } .loadedNotice) unstopped refused
        dsimp only
        rw [if_pos rfl]
        refine launched ▸ .unstartable polled refused ?_
        simp [push, Console.push, writable, Entry.unstartable]
      | false =>
        have launched := launch_of_refused (s := { s with loading }) unstopped refused
        dsimp only
        rw [if_neg Bool.false_ne_true, launched]
        exact .unstartable polled refused
          (by simp [push, Console.push, writable, Entry.unstartable])
    | error e =>
      dsimp only
      rw [finish_of_not_stopped]
      · exact .unavailable polled
          (by simp [push, Console.push, writable, Entry.unavailable, Entry.retryHint])
      · exact unstopped

/-- The session behind the lines with which a run begins that needs the interpreter. -/
def announcing (s : Session) : Session :=
  if s.loading.isReady then s.taken else s.taken.push .loadingNotice

theorem begin_external (free : s.isRunning = false)
    (external : s.settings.pythonBackend = .external) (source : Text) :
    s.begin .python source = s.announcing.load .created (!s.loading.isReady) source := by
  rw [begin, if_neg (Bool.eq_false_iff.1 free)]
  dsimp only
  rw [if_pos ⟨rfl, external⟩, announcing]
  cases s.loading.isReady <;> rfl

/-- What a run begins with that needs the interpreter. -/
structure Announces (s : Session) (ready : Bool) (t : Session) : Prop where
  unstopped : t.isStopped = false
  writable : t.console.transcript.stopped = false
  entries : t.console.transcript.entries = if ready then [] else [.loadingNotice]
  loading : t.loading = s.loading
  launcher : t.launcher = s.launcher
  starts : t.starts = s.starts

theorem announces_announcing (s : Session) : s.Announces s.loading.isReady s.announcing := by
  rw [announcing]
  cases s.loading.isReady with
  | true => exact ⟨rfl, rfl, rfl, rfl, rfl, rfl⟩
  | false => exact ⟨rfl, rfl, rfl, rfl, rfl, rfl⟩

end Session

namespace SessionCalls

variable {start s : SessionCalls} {i : Nat} {source : Text} {loader : Loader} {failed given : Nat}
  {ready : Bool} {since : List SessionEvent}

/-- A session that needs an interpreter for Python, and cannot start any command that it loads. -/
structure Grounded (s : SessionCalls) : Prop where
  sound : s.Sound
  external : s.session.settings.pythonBackend = .external
  refuses : ∀ c it, (s.session.loading.poll c).2 = .settled (.ok it) → ∀ number source,
    ∃ reason, s.session.launcher number it.command source = .error reason

/-- The poll of a call settles its caller with the failure of an attempt to load, which the caller
made itself. -/
structure OwnFailure (loader : Loader) (s : SessionCalls) (i : Nat) (e : RuntimeError) : Prop where
  loaded : s.loaded? i = some (.error e)
  fails : s.failures (.poll i) = 1
  attempt : ∃ n, loader.attempt n = .error e ∧ (s.callers i = some (.attempting n) ∨
    n = s.session.loading.attempts ∧ (s.poll i).session.loading.attempts = n + 1)

/-- How a run ends that needs the interpreter, and the lines of its transcript. The run is settled
by a poll in the state `s`; `ready` tells whether the interpreter was there when the run took the
slot, and `since` what has happened from then on. -/
inductive Story (loader : Loader) (s : SessionCalls) (i : Nat) (source : Text) (ready : Bool)
    (since : List SessionEvent) : Outcome → List Entry → Prop where
  | stopped (stop : .stop ∈ since) :
    Story loader s i source ready since .stopped
      ((if ready then [] else [.loadingNotice]) ++ [.stopMarker])
  | unavailable {e : RuntimeError} (unstopped : .stop ∉ since) (unready : ready = false)
      (own : s.OwnFailure loader i e) :
    Story loader s i source ready since (.failed e.message)
      [.loadingNotice, .unavailable e, .retryHint]
  | unstartable {it : Interpreter} {reason : Text} (unstopped : .stop ∉ since)
      (served : s.loaded? i = some (.ok it))
      (refused : s.session.launcher s.session.starts it.command source = .error reason) :
    Story loader s i source ready since (.failed (RuntimeError.spawn it.command reason).message)
      ((if ready then [] else [.loadingNotice, .loadedNotice]) ++ [.unstartable it reason])

namespace Story

variable {o : Outcome} {lines : List Entry}

theorem unannounced (h : Story loader s i source true since o lines) :
    .loadingNotice ∉ lines ∧ .loadedNotice ∉ lines := by
  cases h with
  | stopped stop => decide
  | unavailable unstopped unready => cases unready
  | unstartable unstopped served =>
    simp [Entry.loadingNotice, Entry.loadedNotice, Entry.unstartable, Entry.info, Entry.error]

theorem bracketed (h : Story loader s i source ready since o lines) {front back : List Entry}
    (told : lines = front ++ .loadedNotice :: back) : .loadingNotice ∈ front := by
  cases ready with
  | true =>
    have member : .loadedNotice ∈ lines := by simp [told]
    exact absurd member h.unannounced.2
  | false =>
    obtain ⟨rest, first⟩ : ∃ rest, lines = .loadingNotice :: rest := by cases h <;> exact ⟨_, rfl⟩
    rw [first] at told
    cases front with
    | nil => exact absurd (List.cons.inj told).1 (by decide)
    | cons entry front =>
      rw [(List.cons.inj told).1]
      exact List.mem_cons_self

end Story

/-- A run that waits for the interpreter. -/
structure Awaits (s : SessionCalls) (i : Nat) (source : Text) (stopped : Bool) : Prop where
  call : ∃ caller, s.call? i = some (.run (.loading caller true source))
  lines : s.lines = [.loadingNotice]
  stopped : s.session.isStopped = stopped

theorem awaits_of_told {call : SessionCall} (hc : s.call? i = some call) {t : Session}
    {caller : Caller} (told : t.Told caller true source (s.session.poll call))
    (waits : (t.loading.poll caller).2 = .waiting → call = .run (.loading caller true source))
    (unstopped : t.isStopped = false) (entries : t.console.transcript.entries = [.loadingNotice]) :
    (s.poll i).Awaits i source false ∨ (s.poll i).Spent i := by
  have present : s.call? i ≠ none := by simp [hc]
  have settles : ∀ reply, (s.session.poll call).2 = .settled reply → (s.poll i).Spent i :=
    fun reply => spent_of_settled hc
  have polled := poll_of_call? hc
  generalize s.session.poll call = r at told settles polled
  have awaits : ∀ {loading : Loading} {caller : Caller},
      s.poll i = s.put { t with loading } i (some (.run (.loading caller true source))) →
        (s.poll i).Awaits i source false := by
    intro loading caller polled
    rw [polled]
    exact ⟨⟨caller, call?_put_self present⟩, entries, unstopped⟩
  cases told with
  | waits still =>
    left
    apply awaits
    rw [polled, waits still]
    rfl
  | moves => exact Or.inl (awaits polled)
  | unavailable | unstartable => exact Or.inr (settles _ rfl)

namespace Grounded

theorem load_told (h : s.Grounded) {t : Session} (announces : s.session.Announces ready t)
    (caller : Caller) (announced : Bool) (source : Text) :
    t.Told caller announced source (t.load caller announced source) := by
  apply Session.load_told announces.unstopped announces.writable
  intro it polled
  rw [announces.loading] at polled
  rw [announces.launcher]
  exact h.refuses caller it polled _ source

theorem begin_told (h : s.Grounded) (free : s.session.isRunning = false) (source : Text) :
    s.session.announcing.Told .created (!s.session.loading.isReady) source
    (s.session.begin .python source) := by
  rw [Session.begin_external free h.external source]
  exact h.load_told s.session.announces_announcing .created _ source

end Grounded

theorem begins_awaiting (h : s.Grounded)
    (created : s.call? i = some (.run (.created .python source)))
    (free : s.session.isRunning = false) :
    s.session.loading.isReady = false ∧ (s.poll i).Awaits i source false ∨ (s.poll i).Spent i := by
  have announces := s.session.announces_announcing
  have told := h.begin_told free source
  cases hr : s.session.loading.isReady with
  | false =>
    rw [hr] at told announces
    have onward := awaits_of_told created told
      (fun waits => absurd waits (Loading.poll_created_ne_waiting _)) announces.unstopped
      announces.entries
    exact onward.imp_left fun awaits => ⟨rfl, awaits⟩
  | true =>
    -- an interpreter that is there settles the caller at once, so the run does not wait
    right
    obtain ⟨it, there⟩ := Option.isSome_iff_exists.1 hr
    have served : (s.session.announcing.loading.poll .created).2 = .settled (.ok it) := by
      rw [announces.loading, Loading.poll_of_ready there]
    have settles : ∀ reply,
        (s.session.begin .python source).2 = .settled reply → (s.poll i).Spent i :=
      fun reply => spent_of_settled created
    generalize s.session.begin .python source = r at told settles
    cases told with
    | waits polled | moves polled =>
      rw [served] at polled
      cases polled
    | unavailable | unstartable => exact settles _ rfl

namespace Awaits

variable {stopped : Bool}

theorem started (h : s.Awaits i source stopped) : s.Started i := by
  obtain ⟨caller, hc⟩ := h.call
  exact ⟨_, hc, rfl⟩

theorem announces (h : s.Awaits i source false) (sound : s.Sound) :
    s.session.Announces false s.session := by
  obtain ⟨caller, hc⟩ := h.call
  exact ⟨h.stopped, (sound.fits i _ hc rfl).unmarked.writable, h.lines, rfl, rfl, rfl⟩

theorem poll (h : s.Awaits i source stopped) (grounded : s.Grounded) :
    stopped = false ∧ (s.poll i).Awaits i source false ∨ (s.poll i).Spent i := by
  obtain ⟨caller, hc⟩ := h.call
  cases stopped with
  | true =>
    obtain ⟨session, settled, -⟩ := Session.poll_stopped (grounded.sound.fits i _ hc rfl) h.stopped
    exact Or.inr (spent_of_settled hc (by rw [settled]))
  | false =>
    have told := grounded.load_told (h.announces grounded.sound) caller true source
    exact (awaits_of_told hc told (fun _ => rfl) h.stopped h.lines).imp_left fun awaits =>
      ⟨rfl, awaits⟩

theorem step (h : s.Awaits i source stopped) (grounded : s.Grounded) (e : SessionEvent) :
    (s.step e).Awaits i source (stopped || decide (e = .stop)) ∨ (s.step e).Spent i := by
  obtain ⟨caller, hc⟩ := h.call
  by_cases hp : e = .poll i
  · subst hp
    refine (h.poll grounded).imp_left fun ⟨unstopped, awaits⟩ => ?_
    rw [unstopped]
    exact awaits
  by_cases hd : e = .drop i
  · subst hd
    exact Or.inr (spent_of_dropped hc)
  · left
    obtain ⟨-, transcript, hs⟩ := step_of_started grounded.sound h.started hp hd
    refine ⟨⟨caller, ?_⟩, ?_, ?_⟩
    · rw [call?_step s (lt_of_call? h.started.call?_ne_none) hp hd, hc]
    · exact (congrArg Transcript.entries transcript).trans h.lines
    · rw [hs, h.stopped]

end Awaits

/-- A run that needs the interpreter took the slot, or takes it when it is polled next: `earlier` is
what happened to the session before, and `since` what has happened from then on. -/
structure Began (start : SessionCalls) (i : Nat) (source : Text)
    (earlier since : List SessionEvent) : Prop where
  created : (start.after earlier).call? i = some (.run (.created .python source))
  free : (start.after earlier).session.isRunning = false
  first : ∀ e ∈ since.head?, e = .poll i

/-- How far a run came that needs the interpreter: it was not polled, it waits since the poll by
which it took the slot, or it is over. -/
inductive Course (start : SessionCalls) (i : Nat) (source : Text) (history : List SessionEvent) :
    Prop where
  | created (created : (start.after history).call? i = some (.run (.created .python source)))
  | awaits {earlier since : List SessionEvent} (split : history = earlier ++ .poll i :: since)
      (began : start.Began i source earlier (.poll i :: since))
      (unready : (start.after earlier).session.loading.isReady = false)
      (awaits : (start.after history).Awaits i source
        (decide (.stop ∈ SessionEvent.poll i :: since)))
  | ended (spent : (start.after history).Spent i)

namespace Course

variable {history : List SessionEvent}

theorem step (h : Course start i source history) (grounded : (start.after history).Grounded)
    (e : SessionEvent) :
    Course start i source (history ++ [e]) := by
  cases h with
  | created created =>
    by_cases hp : e = .poll i
    · subst hp
      cases hn : (start.after history).session.isRunning with
      | true =>
        apply Course.ended
        rw [after_concat]
        exact spent_of_settled created (by rw [Session.poll, Session.begin_of_running hn])
      | false =>
        rcases begins_awaiting grounded created hn with ⟨unready, awaits⟩ | spent
        · refine .awaits rfl ⟨created, hn, by simp⟩ unready ?_
          rw [after_concat, SessionCalls.step]
          simpa using awaits
        · exact .ended (by rw [after_concat]; exact spent)
    by_cases hd : e = .drop i
    · subst hd
      exact .ended (by rw [after_concat]; exact spent_of_dropped created)
    · apply Course.created
      rw [after_concat, call?_step _ (lt_of_call? (by simp [created])) hp hd, created]
  | @awaits earlier since split began unready awaits =>
    rcases awaits.step grounded e with later | spent
    · have split : history ++ [e] = earlier ++ .poll i :: (since ++ [e]) := by
        rw [split, List.append_assoc, List.cons_append]
      refine .awaits split ⟨began.created, began.free, by simp⟩ unready ?_
      rw [after_concat]
      simpa [eq_comm] using later
    · exact .ended (by rw [after_concat]; exact spent)
  | ended spent => exact .ended (by rw [after_concat]; exact spent.step e)

end Course

namespace Story

variable {reply : Reply}

end Story

end SessionCalls

end SourcePreview
