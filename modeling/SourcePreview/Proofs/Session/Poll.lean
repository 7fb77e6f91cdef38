import SourcePreview.Proofs.Pool
import SourcePreview.Proofs.Process
import SourcePreview.Proofs.Run.Silence
import SourcePreview.Session

/-! What one poll of a run does to its session. A run that was not stopped waits, comes to a later
stage, settles with an outcome of its own and frees the slot, or breaks off (`poll_cases`); a run
that was stopped settles as stopped and leaves the marker behind the lines it found
(`poll_stopped`). -/

namespace SourcePreview

def RunStage.isStarted : RunStage → Bool
  | .created _ _ => false
  | _ => true

/-- What a dialogue that was continued needs of the console: it waits at a question of its own. -/
inductive Talk.Fits {α : Type} (c : Console) : Talk α → Prop where
  | asked {ticket : Ticket} {next : Text → Dialogue α} (attends : c.Attends ticket)
      (silent : ∀ answer, (next answer).Silent) :
    Fits c (.asked ticket next)

namespace Talk.Fits

variable {α : Type} {c : Console} {t : Talk α}

theorem console (h : t.Fits c) : c.input.Sound ∧ c.transcript.Unmarked := by
  cases h with
  | asked attends silent => exact ⟨attends.sound, attends.unmarked⟩

theorem submit (h : t.Fits c) (text : Text) :
    t.Fits { c with input := (c.input.submit text).2 } := by
  cases h with
  | asked attends silent => exact .asked (attends.submit text) silent

theorem cancelInput (h : t.Fits c) : t.Fits c.cancelInput := by
  cases h with
  | asked attends silent => exact .asked attends.cancelInput silent

theorem drop (h : t.Fits c) : (t.drop c).input.Sound ∧ (t.drop c).transcript.Unmarked := by
  cases h with
  | @asked ticket next attends silent => exact ⟨attends.sound.abandon ticket, attends.unmarked⟩

end Talk.Fits

def RunStage.Fits (c : Console) : RunStage → Prop
  | .created _ _ => False
  | .loading _ _ _ => c.Quiet
  | .talking t => t.Fits c
  | .serving t => t.Fits c

theorem RunStage.Fits.console {c : Console} {stage : RunStage} (h : stage.Fits c) :
    c.input.Sound ∧ c.transcript.Unmarked := by
  cases stage with
  | created l source => exact h.elim
  | loading caller announced source => exact ⟨h.sound, h.unmarked⟩
  | talking t => exact Talk.Fits.console h
  | serving t => exact Talk.Fits.console h

theorem RunStage.Fits.isStarted {c : Console} {stage : RunStage} (h : stage.Fits c) :
    stage.isStarted = true := by
  cases stage with
  | created l source => exact h.elim
  | loading | talking | serving => rfl

/-- An outcome that neither a stop nor a refused request brings about. -/
def Outcome.Regular (o : Outcome) : Prop :=
  o ≠ .stopped ∧ ∀ e : InputError, o ≠ .failed (refusalText e) ∧ o ≠ .failed e.message

def refusalBeginnings : List Text := ["an ".toList, "inp".toList, "no ".toList]

theorem InputError.take_message (e : InputError) : e.message.take 3 ∈ refusalBeginnings := by
  cases e <;> decide

theorem take_refusalText (e : InputError) : (refusalText e).take 3 ∈ refusalBeginnings := by
  have begins : (refusalText e).take 3 = "input coordinator refused the request: ".toList.take 3 :=
    List.take_append_of_le_length (by decide)
  rw [begins]
  decide

theorem Outcome.regular_failed {reason : Text} (other : reason.take 3 ∉ refusalBeginnings) :
    (failed reason).Regular := by
  refine ⟨by simp, fun e => ⟨fun h => other ?_, fun h => other ?_⟩⟩
  · rw [failed.inj h]
    exact take_refusalText e
  · rw [failed.inj h]
    exact e.take_message

theorem RuntimeError.regular (e : RuntimeError) : (Outcome.failed e.message).Regular := by
  -- the message begins with letters of its own, whatever follows them
  cases e <;> exact Outcome.regular_failed (of_decide_eq_false rfl)

theorem ExitStatus.regular {status : ExitStatus} {reason : Text}
    (h : status.failure? = some reason) : (Outcome.failed reason).Regular := by
  cases status with
  | signal =>
    cases h
    exact Outcome.regular_failed (by decide)
  | code n =>
    rw [failure?] at h
    split at h
    · cases h
    · cases h
      exact Outcome.regular_failed (of_decide_eq_false rfl)

theorem Loading.poll_created_ne_waiting (l : Loading) : (l.poll .created).2 ≠ .waiting := by
  have proceeds :
      ∀ (l : Loading) number caller, (l.proceed number (.moved caller)).2 ≠ .waiting := by
    intro l number caller
    unfold proceed
    split
    · exact fun h => nomatch h
    · dsimp only
      split <;> exact fun h => nomatch h
  unfold poll
  split
  · exact fun h => nomatch h
  · dsimp only
    split
    · exact proceeds _ _ _
    · exact fun h => nomatch h

namespace Session

structure Vacant (s : Session) : Prop where
  free : s.active = none
  idle : s.console.input.pending = none
  sound : s.console.input.Sound
  marked : s.console.transcript.Marked

theorem isRunning_eq_false_iff {s : Session} : s.isRunning = false ↔ s.active = none :=
  Option.isSome_eq_false_iff.trans Option.isNone_iff_eq_none

theorem isRunning_congr {a b : Session} (h : a.active = b.active) : a.isRunning = b.isRunning := by
  rw [isRunning, h]
  rfl

theorem isStopped_congr {a b : Session} (h : a.active = b.active) : a.isStopped = b.isStopped := by
  rw [isStopped, h]
  rfl

theorem isStopped_of_not_running {s : Session} (h : s.isRunning = false) : s.isStopped = false := by
  rw [isStopped, isRunning_eq_false_iff.1 h]
  rfl

theorem active_of_not_stopped {s : Session} (ha : s.active ≠ none) (hs : s.isStopped = false) :
    s.active = some false := by
  obtain ⟨b, hb⟩ := Option.ne_none_iff_exists'.1 ha
  cases b with
  | false => exact hb
  | true =>
    rw [isStopped, hb] at hs
    cases hs

theorem Vacant.not_running {s : Session} (h : s.Vacant) : s.isRunning = false :=
  isRunning_eq_false_iff.2 h.free

/-- How a poll may bring forward a run that was not stopped. -/
inductive Advanced (s : Session) : Session × Progress SessionCall Reply → Prop where
  | moves {s' : Session} {stage : RunStage} (active : s'.active = s.active)
      (fits : stage.Fits s'.console) :
    Advanced s (s', .moved (.run stage))
  | settles {s' : Session} {o : Outcome} (vacant : s'.Vacant) (regular : o.Regular) :
    Advanced s (s', .settled (.outcome o))
  | breaks {s' : Session} {e : Overwide} (active : s'.active = s.active)
      (quiet : s'.console.Quiet) :
    Advanced s (s', .settled (.overwide e))

variable {s : Session}

theorem Advanced.of_active {s' : Session} {r : Session × Progress SessionCall Reply}
    (h : Advanced s r) (same : s.active = s'.active) : Advanced s' r := by
  cases h with
  | moves active fits => exact .moves (active.trans same) fits
  | settles vacant regular => exact .settles vacant regular
  | breaks active quiet => exact .breaks (active.trans same) quiet

theorem finish_of_not_stopped (hs : s.isStopped = false) (o : Outcome) :
    s.finish o = ({ s with active := none }, .settled (.outcome o)) := by
  rw [finish, if_neg (Bool.eq_false_iff.1 hs)]

theorem finish_of_stopped (hs : s.isStopped = true) (o : Outcome) :
    s.finish o = ({ s with active := none }.markStopped, .settled (.outcome .stopped)) := by
  rw [finish, if_pos hs]

theorem vacant_of_quiet (hq : s.console.Quiet) : Vacant { s with active := none } :=
  ⟨rfl, hq.idle, hq.sound, hq.unmarked.marked⟩

theorem quiet_info (hq : s.console.Quiet) (text : Text) : (s.push (.info text)).console.Quiet :=
  hq.push (Entry.info_ne_stopMarker text)

theorem quiet_error (hq : s.console.Quiet) (text : Text) : (s.push (.error text)).console.Quiet :=
  hq.push (Entry.error_ne_stopMarker text)

theorem advanced_finish {a : Session} (hq : a.console.Quiet) (hs : a.isStopped = false)
    {o : Outcome} (ho : o.Regular) : Advanced s (a.finish o) := by
  rw [finish_of_not_stopped hs]
  exact .settles (vacant_of_quiet hq) ho

theorem advanced_fail {a : Session} (hq : a.console.Quiet) (hs : a.isStopped = false)
    (e : RuntimeError) :
    Advanced s (a.fail e.message) :=
  advanced_finish (quiet_error hq _) hs e.regular

/-- A dialogue that a poll leaves in order gets no request refused. -/
theorem advanced_converse {α : Type} {stage : Talk α → RunStage} {refusal : InputError → Text}
    {t : Talk α} {close : Session → α → Session × Progress SessionCall Reply}
    (hs : s.isStopped = false) (fits : ∀ {c t}, t.Fits c → (stage t).Fits c)
    (closes : ∀ c a, c.Quiet → Advanced s (close { s with console := c } a))
    (ho : (t.advance false s.console []).Orderly) :
    Advanced s (s.converse stage close refusal t) := by
  unfold converse
  rw [hs]
  generalize t.advance false s.console [] = stand at ho
  cases ho with
  | result quiet => exact closes _ _ quiet
  | question attends silent => exact .moves rfl (fits (.asked attends silent))

theorem advanced_talk {t : Talk (Except Overwide Unit)} (hs : s.isStopped = false)
    (ho : (t.advance false s.console []).Orderly) : Advanced s (s.talk t) := by
  refine advanced_converse hs id (fun c a quiet => ?_) ho
  cases a with
  | error e => exact .breaks rfl quiet
  | ok u => exact advanced_finish (a := { s with console := c }) quiet hs ⟨by simp, by simp⟩

theorem advanced_serve {t : Talk (Except RuntimeError ExitStatus)} (hs : s.isStopped = false)
    (ho : (t.advance false s.console []).Orderly) : Advanced s (s.serve t) := by
  refine advanced_converse hs id (fun c a quiet => ?_) ho
  have unstopped : Session.isStopped { s with console := c } = false := hs
  cases a with
  | error e => exact advanced_fail quiet unstopped e
  | ok status =>
    rw [exited]
    cases hf : status.failure? with
    | none =>
      have told :=
        quiet_info (s := { s with console := c }) quiet
          ">>> Execution Completed Successfully".toList
      exact advanced_finish told unstopped ⟨by simp, by simp⟩
    | some reason =>
      have told := quiet_error (s := { s with console := c }) quiet reason
      exact advanced_finish told unstopped (ExitStatus.regular hf)

theorem advanced_launch (hq : s.console.Quiet) (hs : s.isStopped = false) (command source : Text) :
    Advanced s (s.launch command source) := by
  rw [launch]
  cases s.launcher s.starts command source with
  | error reason =>
    exact advanced_fail (a := { s with starts := s.starts + 1 }) hq hs (.spawn command reason)
  | ok process =>
    have orderly := Dialogue.advance_orderly (process.silent_dialogue source) hq []
    have served := advanced_serve (s := { s with starts := s.starts + 1 })
      (t := .ready (process.dialogue source)) hs orderly
    exact served.of_active rfl

theorem load_cases (hq : s.console.Quiet) (hs : s.isStopped = false) (caller : Caller)
    (announced : Bool) (source : Text) :
    (s.loading.poll caller).2 = .waiting ∧
      (∃ loading, s.load caller announced source = ({ s with loading }, .waiting)) ∨
      Advanced s (s.load caller announced source) := by
  unfold load
  rw [if_neg (Bool.eq_false_iff.1 hs)]
  generalize s.loading.poll caller = polled
  obtain ⟨loading, progress⟩ := polled
  cases progress with
  | waiting => exact Or.inl ⟨rfl, loading, rfl⟩
  | moved caller => exact Or.inr (.moves rfl hq)
  | settled result =>
    right
    have hl : Console.Quiet (Session.console { s with loading }) := hq
    cases result with
    | ok it =>
      cases announced with
      | false => exact (advanced_launch hl hs it.command source).of_active rfl
      | true => exact (advanced_launch (quiet_info hl _) hs it.command source).of_active rfl
    | error e => exact advanced_finish (quiet_info (quiet_error hl _) _) hs e.regular

/-- A dialogue of the active run waits for its answer, or goes on when the answer is there. -/
theorem converse_waits {α : Type} {stage : Talk α → RunStage} {refusal : InputError → Text}
    {t : Talk α} {close : Session → α → Session × Progress SessionCall Reply}
    (hf : t.Fits s.console) (hs : s.isStopped = false) :
    s.converse stage close refusal t = (s, .waiting) ∨ (t.advance false s.console []).Orderly := by
  cases hf with
  | asked attends silent =>
    refine (Talk.advance_asked attends silent []).imp_left fun h => ?_
    rw [converse, hs, h]

/-- A poll of the active run, which was not stopped: it waits for the interpreter or for its answer,
or gets forward. -/
theorem poll_cases {stage : RunStage} (hf : stage.Fits s.console) (hs : s.isStopped = false) :
    (∃ loading, s.poll (.run stage) = ({ s with loading }, .waiting)) ∨
      Advanced s (s.poll (.run stage)) := by
  cases stage with
  | created l source => exact hf.elim
  | loading caller announced source =>
    exact (load_cases hf hs caller announced source).imp_left And.right
  | talking t => exact (converse_waits hf hs).imp (fun h => ⟨s.loading, h⟩) (advanced_talk hs)
  | serving t => exact (converse_waits hf hs).imp (fun h => ⟨s.loading, h⟩) (advanced_serve hs)

/-- The session behind the first poll of a run that was not refused. -/
def taken (s : Session) : Session :=
  { s with active := some false, console := ⟨s.console.transcript.clear, s.console.input.cancel⟩ }

theorem quiet_taken (h : s.console.input.Sound) : s.taken.console.Quiet :=
  ⟨Coordinator.pending_cancel _, h.cancel, Transcript.unmarked_clear _⟩

/-- The first poll of a run that finds the slot free takes it, and gets forward. -/
theorem advanced_begin (hs : s.isRunning = false) (hc : s.console.input.Sound) (l : Language)
    (source : Text) :
    ∃ s' : Session, s'.active = some false ∧ Advanced s' (s.begin l source) := by
  have quiet := quiet_taken hc
  have load : ∀ (s : Session) (announced : Bool), s.console.Quiet → s.isStopped = false →
      Advanced s (s.load .created announced source) := by
    intro s announced hq hs
    rcases load_cases hq hs .created announced source with ⟨h, -⟩ | h
    · exact absurd h (Loading.poll_created_ne_waiting _)
    · exact h
  unfold begin
  rw [if_neg (Bool.eq_false_iff.1 hs)]
  dsimp only
  split
  · cases s.loading.isReady with
    | true => exact ⟨s.taken, rfl, load s.taken false quiet rfl⟩
    | false =>
      exact ⟨s.taken.push (.info ">>> Loading Python runtime...".toList), rfl,
        load _ true (quiet_info quiet _) rfl⟩
  · refine ⟨s.taken, rfl, ?_⟩
    cases Dialect.ofLanguage? l with
    | none => exact advanced_finish quiet rfl ⟨by simp, by simp⟩
    | some d =>
      exact advanced_talk rfl
        (Dialogue.advance_orderly (silent_preview d s.settings.inputMode source) quiet [])

theorem vacant_markStopped (hq : s.console.Quiet) :
    Vacant (markStopped { s with active := none }) :=
  ⟨rfl, hq.idle, hq.sound, hq.unmarked.markStopped⟩

/-- What a stopped run comes to: it settles as stopped, with the marker behind the lines that it
finds. -/
def Stops (s : Session) (r : Session × Progress SessionCall Reply) : Prop :=
  ∃ s' : Session, r = (s', .settled (.outcome .stopped)) ∧ s'.Vacant ∧
    s'.console.transcript.entries = s.console.transcript.entries ++ [.stopMarker]

theorem stops_finish {a : Session} (hq : a.console.Quiet) (hs : a.isStopped = true) (o : Outcome)
    (same : a.console.transcript = s.console.transcript) : s.Stops (a.finish o) := by
  rw [Stops, finish_of_stopped hs, ← same]
  exact ⟨_, rfl, vacant_markStopped hq, hq.unmarked.entries_markStopped⟩

theorem stops_converse {α : Type} {stage : Talk α → RunStage} {refusal : InputError → Text}
    {t : Talk α} {close : Session → α → Session × Progress SessionCall Reply}
    (hf : t.Fits s.console) (hs : s.isStopped = true) :
    s.Stops (s.converse stage close refusal t) := by
  cases hf with
  | @asked ticket next attends silent =>
    have hq : (s.console.cancelInput.abandon ticket).Quiet :=
      attends.cancelInput.abandon (Coordinator.pending_cancel s.console.input)
    rw [converse, hs]
    exact stops_finish (a := { s with console := s.console.cancelInput.abandon ticket }) hq hs
      .stopped rfl

/-- A run that was stopped settles so when it is polled, and adds the marker to the lines it
finds. -/
theorem poll_stopped {stage : RunStage} (hf : stage.Fits s.console) (hs : s.isStopped = true) :
    s.Stops (s.poll (.run stage)) := by
  cases stage with
  | created l source => exact hf.elim
  | loading caller announced source =>
    rw [poll, load, if_pos hs]
    exact stops_finish (a := { s with loading := s.loading.drop caller }) hf hs .stopped rfl
  | talking t => exact stops_converse hf hs
  | serving t => exact stops_converse hf hs

theorem begin_of_running (hs : s.isRunning = true) (l : Language) (source : Text) :
    s.begin l source = (s, .settled .refused) := by
  rw [begin, if_pos hs]

theorem poll_warmUp (s : Session) (caller : Caller) : ∃ loading progress,
    s.poll (.warmUp caller) = ({ s with loading }, progress) ∧
      (∀ stage, progress.rest (.warmUp caller) ≠ some (.run stage)) ∧
        ∀ reply, progress.result? = some reply → ∃ result, reply = .loaded result := by
  rw [poll]
  generalize s.loading.poll caller = polled
  obtain ⟨loading, progress⟩ := polled
  cases progress with
  | waiting =>
    refine ⟨loading, .waiting, rfl, ?_, ?_⟩
    · exact fun stage hs => nomatch hs
    · exact fun reply hr => nomatch hr
  | moved caller =>
    refine ⟨loading, .moved (.warmUp caller), rfl, ?_, ?_⟩
    · exact fun stage hs => nomatch hs
    · exact fun reply hr => nomatch hr
  | settled result =>
    refine ⟨loading, .settled (.loaded result), rfl, ?_, ?_⟩
    · exact fun stage hs => nomatch hs
    · rintro _ ⟨⟩
      exact ⟨result, rfl⟩

end Session

end SourcePreview
