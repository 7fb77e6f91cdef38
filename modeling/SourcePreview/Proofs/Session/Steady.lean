import SourcePreview.Proofs.Session.Event

/-! What nothing that happens to a session changes: its settings, its launcher, and that the prompt
shown to its watchers is the pending one (`steady_after`). -/

namespace SourcePreview

variable {α : Type}

namespace Coordinator

def Shows (c : Coordinator) : Prop := c.watched = c.prompt?

variable {c : Coordinator}

theorem Shows.submit (h : c.Shows) (text : Text) : (c.submit text).2.Shows := by
  rcases c.submit_cases text with he | ⟨r, -, he⟩
  · rwa [he]
  · rw [he]
    rfl

theorem Shows.cancel (h : c.Shows) : c.cancel.Shows := by
  rcases c.cancel_cases with he | ⟨r, -, he⟩
  · rwa [he]
  · rw [he]
    rfl

theorem Shows.abandon (h : c.Shows) (ticket : Ticket) : (c.abandon ticket).Shows :=
  Eq.trans h (c.prompt?_abandon ticket).symm

end Coordinator

theorem Dialogue.advance_shows (d : Dialogue α) (cancelled : Bool) {c : Console} (h : c.input.Shows)
    (sent : Text) :
    (d.advance cancelled c sent).console.input.Shows := by
  induction d generalizing c sent with
  | done a => exact h
  | say e next ih => exact ih (c := c.push e) h sent
  | send text next ih => exact ih h _
  | check next ih =>
    rw [advance]
    split
    · exact h
    · exact ih h sent
  | ask prompt next ih =>
    rw [advance]
    split
    · exact h.cancel
    · cases hp : c.input.pending with
      | none =>
        rw [Coordinator.request_of_idle hp]
        rfl
      | some r =>
        rw [Coordinator.request, hp]
        exact h

theorem Talk.advance_shows (t : Talk α) (cancelled : Bool) {c : Console} (h : c.input.Shows)
    (sent : Text) :
    (t.advance cancelled c sent).console.input.Shows := by
  cases t with
  | ready d => exact d.advance_shows cancelled h sent
  | asked ticket next =>
    rw [advance]
    split
    · exact h.cancel.abandon ticket
    · split
      · exact h
      · exact Dialogue.advance_shows _ cancelled (c := c.abandon ticket) (h.abandon ticket) sent

namespace Session

/-- A session with given settings and a given launcher, whose watchers are shown what is pending. -/
structure Steady (settings : Settings) (launcher : Launcher) (s : Session) : Prop where
  settings : s.settings = settings
  launcher : s.launcher = launcher
  shows : s.console.input.Shows

namespace Steady

variable {settings : Settings} {launcher : Launcher} {s : Session}

theorem finish (h : s.Steady settings launcher) (o : Outcome) :
    (s.finish o).1.Steady settings launcher := by
  rw [Session.finish]
  split
  · exact ⟨h.settings, h.launcher, h.shows⟩
  · exact ⟨h.settings, h.launcher, h.shows⟩

theorem push (h : s.Steady settings launcher) (e : Entry) : (s.push e).Steady settings launcher :=
  ⟨h.settings, h.launcher, h.shows⟩

theorem converse {α : Type} {stage : Talk α → RunStage} {refusal : InputError → Text}
    {close : Session → α → Session × Progress SessionCall Reply} (h : s.Steady settings launcher)
    (closes : ∀ {s : Session}, s.Steady settings launcher →
      ∀ a, (close s a).1.Steady settings launcher) (t : Talk α) :
    (s.converse stage close refusal t).1.Steady settings launcher := by
  have hs :
    Steady settings launcher { s with console := (t.advance s.isStopped s.console []).console } :=
    ⟨h.settings, h.launcher, t.advance_shows s.isStopped h.shows []⟩
  rw [Session.converse]
  split
  · exact hs
  · exact hs
  · exact closes hs _
  · exact hs.finish .stopped
  · exact (hs.push _).finish _

theorem talk (h : s.Steady settings launcher) (t : Talk (Except Overwide Unit)) :
    (s.talk t).1.Steady settings launcher := by
  refine h.converse (fun hs a => ?_) t
  cases a with
  | error e => exact hs
  | ok u => exact hs.finish .completed

theorem serve (h : s.Steady settings launcher) (t : Talk (Except RuntimeError ExitStatus)) :
    (s.serve t).1.Steady settings launcher := by
  refine h.converse (fun hs a => ?_) t
  cases a with
  | error e => exact (hs.push _).finish _
  | ok status =>
    rw [exited]
    split
    · exact (hs.push _).finish .completed
    · exact (hs.push _).finish _

theorem launch (h : s.Steady settings launcher) (command source : Text) :
    (s.launch command source).1.Steady settings launcher := by
  have started : Steady settings launcher { s with starts := s.starts + 1 } :=
    ⟨h.settings, h.launcher, h.shows⟩
  rw [Session.launch]
  split
  · exact (started.push _).finish _
  · exact started.serve _

theorem load (h : s.Steady settings launcher) (caller : Caller) (announced : Bool) (source : Text) :
    (s.load caller announced source).1.Steady settings launcher := by
  have hl : ∀ loading, Steady settings launcher { s with loading } :=
    fun loading => ⟨h.settings, h.launcher, h.shows⟩
  rw [Session.load]
  split
  · exact (hl _).finish .stopped
  · split
    · exact hl _
    · exact hl _
    · dsimp only
      split
      · exact ((hl _).push _).launch _ _
      · exact (hl _).launch _ _
    · exact (((hl _).push _).push _).finish _

theorem begin (h : s.Steady settings launcher) (l : Language) (source : Text) :
    (s.begin l source).1.Steady settings launcher := by
  have ht : s.taken.Steady settings launcher := ⟨h.settings, h.launcher, h.shows.cancel⟩
  rw [Session.begin]
  split
  · exact h
  · dsimp only
    split
    · split
      · exact (ht.push _).load _ _ _
      · exact ht.load _ _ _
    · cases Dialect.ofLanguage? l with
      | none => exact ht.finish _
      | some d => exact ht.talk _

theorem poll (h : s.Steady settings launcher) (call : SessionCall) :
    (s.poll call).1.Steady settings launcher := by
  cases call with
  | warmUp caller =>
    obtain ⟨loading, progress, hp, -⟩ := s.poll_warmUp caller
    rw [hp]
    exact ⟨h.settings, h.launcher, h.shows⟩
  | run stage =>
    cases stage with
    | created l source => exact h.begin l source
    | loading caller announced source => exact h.load caller announced source
    | talking t => exact h.talk t
    | serving t => exact h.serve t

theorem drop (h : s.Steady settings launcher) (call : SessionCall) :
    (s.drop call).Steady settings launcher := by
  cases call with
  | warmUp caller => exact ⟨h.settings, h.launcher, h.shows⟩
  | run stage =>
    cases stage with
    | created l source => exact h
    | loading caller announced source => exact ⟨h.settings, h.launcher, h.shows⟩
    | talking t | serving t =>
      cases t with
      | ready d => exact ⟨h.settings, h.launcher, h.shows⟩
      | asked ticket next => exact ⟨h.settings, h.launcher, h.shows.abandon ticket⟩

theorem stop (h : s.Steady settings launcher) : s.stop.Steady settings launcher := by
  rw [Session.stop]
  split
  · exact ⟨h.settings, h.launcher, h.shows.cancel⟩
  · exact ⟨h.settings, h.launcher, h.shows⟩

end Steady

end Session

namespace SessionCalls

variable {settings : Settings} {launcher : Launcher} {s : SessionCalls}

theorem steady_step (h : s.session.Steady settings launcher) (e : SessionEvent) :
    (s.step e).session.Steady settings launcher := by
  cases e with
  | run l source => exact h
  | warmUp => exact h
  | submit text => exact ⟨h.settings, h.launcher, h.shows.submit text⟩
  | stop => exact h.stop
  | release => exact ⟨h.settings, h.launcher, h.shows⟩
  | poll i =>
    rw [step, poll]
    split
    · exact h
    · exact h.poll _
  | drop i =>
    rw [step, drop?_eq]
    split
    · exact h
    · exact h.drop _

theorem steady_after (settings : Settings) (loader : Loader) (launcher : Launcher)
    (events : List SessionEvent) :
    ((new (.withLoader settings loader launcher)).after events).session.Steady
      settings launcher := by
  have hs : ∀ {s : SessionCalls}, s.session.Steady settings launcher →
      (s.after events).session.Steady settings launcher := by
    intro s h
    induction events generalizing s with
    | nil => exact h
    | cons e events ih => exact ih (steady_step h e)
  exact hs ⟨rfl, rfl, rfl⟩

end SessionCalls

end SourcePreview
