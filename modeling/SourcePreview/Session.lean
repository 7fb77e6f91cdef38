import SourcePreview.Highlight.Span
import SourcePreview.Process
import SourcePreview.Settings

/-! Sessions. A session has one transcript, one place for input and at most one active run: another
run is refused until the active one has settled. A run that is stopped settles as stopped, and the
marker is the last line of its transcript. Calls on a session are polled; a call that is dropped
leaves the session as it stood. -/

namespace SourcePreview

/-- A session; `starts` counts the processes that were started, and `active` tells of the active run
whether it was stopped. -/
structure Session where
  settings : Settings
  console : Console
  loading : Loading
  launcher : Launcher
  starts : Nat
  active : Option Bool

def runInProgressText : Text := "a run is already in progress".toList

/-- How far a run came: not polled yet, waiting for the interpreter, in dialogue with the console,
or in a dialogue that forwards a process to it. -/
inductive RunStage where
  | created (language : Language) (source : Text)
  | loading (caller : Caller) (announced : Bool) (source : Text)
  | talking (talk : Talk (Except Overwide Unit))
  | serving (talk : Talk (Except RuntimeError ExitStatus))

/-- A call on a session: a run, or the loading of the interpreter ahead of a run. -/
inductive SessionCall where
  | run (stage : RunStage)
  | warmUp (caller : Caller)

/-- What a call settles with. -/
inductive Reply where
  | refused
  | outcome (o : Outcome)
  | overwide (e : Overwide)
  | loaded (result : Except RuntimeError Interpreter)

namespace Session

def withLoader (settings : Settings) (loader : Loader) (launcher : Launcher) : Session :=
  ⟨settings, .empty, .start loader, launcher, 0, none⟩

def new (host : Host) (settings : Settings) : Session :=
  withLoader settings (host.loader settings.pythonCommand settings.initTimeoutSecs) host.launcher

def isRunning (s : Session) : Bool := s.active.isSome

def isStopped (s : Session) : Bool := s.active == some true

def highlight (s : Session) (l : Language) (source : Text) : List Span :=
  Span.classify (s.settings.profile l) source

/-- Writes a line into the transcript. -/
def push (s : Session) (e : Entry) : Session := { s with console := s.console.push e }

def markStopped (s : Session) : Session :=
  { s with console := { s.console with transcript := s.console.transcript.markStopped } }

/-- Answers the pending request. -/
def submit (s : Session) (text : Text) : Except InputError Unit × Session :=
  let (result, input) := s.console.input.submit text
  (result, { s with console := { s.console with input } })

def stop (s : Session) : Session :=
  match s.active with
  | some _ => { s with active := some true, console := s.console.cancelInput }
  | none => s.markStopped

/-- Lets one gated attempt to load go on. -/
def release (s : Session) : Session := { s with loading := s.loading.release }

/-- Ends the active run: when it was stopped, with the marker, and otherwise with its outcome. -/
def finish (s : Session) (o : Outcome) : Session × Progress SessionCall Reply :=
  if s.isStopped then ({ s with active := none }.markStopped, .settled (.outcome .stopped))
  else ({ s with active := none }, .settled (.outcome o))

/-- Ends the active run with a failure, which the transcript tells. -/
def fail (s : Session) (reason : Text) : Session × Progress SessionCall Reply :=
  (s.push (.error ("Error: ".toList ++ reason))).finish (.failed reason)

/-- Goes on with a dialogue of the active run: `stage` is the run at a question of the dialogue,
`close` what is made of the result, and `refusal` what is said of a refused question. -/
def converse {α : Type} (s : Session) (stage : Talk α → RunStage)
    (close : Session → α → Session × Progress SessionCall Reply) (refusal : InputError → Text)
    (t : Talk α) : Session × Progress SessionCall Reply :=
  let stand := t.advance s.isStopped s.console []
  let s := { s with console := stand.console }
  match stand.progress with
  | .waiting => (s, .waiting)
  | .moved t => (s, .moved (.run (stage t)))
  | .settled (.result a) => close s a
  | .settled .cancelled => s.finish .stopped
  | .settled (.refused e) => s.fail (refusal e)

def previewed (s : Session) : Except Overwide Unit → Session × Progress SessionCall Reply
  | .ok () => s.finish .completed
  | .error e => (s, .settled (.overwide e))

/-- Goes on with the preview of the active run. -/
def talk (s : Session) : Talk (Except Overwide Unit) → Session × Progress SessionCall Reply :=
  s.converse .talking previewed refusalText

/-- What is made of the end of a process. -/
def exited (s : Session) : Except RuntimeError ExitStatus → Session × Progress SessionCall Reply
  | .error e => s.fail e.message
  | .ok status =>
    match status.failure? with
    | none => (s.push (.info ">>> Execution Completed Successfully".toList)).finish .completed
    | some reason => (s.push (.error reason)).finish (.failed reason)

/-- Goes on with the forwarding of a process to the console of the active run. -/
def serve (s : Session) :
    Talk (Except RuntimeError ExitStatus) → Session × Progress SessionCall Reply :=
  s.converse .serving exited InputError.message

/-- Starts the command that was loaded, for the active run, and goes on with the process. -/
def launch (s : Session) (command source : Text) : Session × Progress SessionCall Reply :=
  let started := { s with starts := s.starts + 1 }
  match s.launcher s.starts command source with
  | .error reason => started.fail (RuntimeError.spawn command reason).message
  | .ok process => started.serve (.ready (process.dialogue source))

/-- Goes on with the loading of the interpreter for the active run, and then with the
interpreter. -/
def load (s : Session) (caller : Caller) (announced : Bool) (source : Text) :
    Session × Progress SessionCall Reply :=
  if s.isStopped then { s with loading := s.loading.drop caller }.finish .stopped
  else
    match s.loading.poll caller with
    | (loading, .waiting) => ({ s with loading }, .waiting)
    | (loading, .moved caller) =>
      ({ s with loading }, .moved (.run (.loading caller announced source)))
    | (loading, .settled (.ok it)) =>
      let s := { s with loading }
      let s := if announced then s.push (.info ">>> Python runtime loaded".toList) else s
      s.launch it.command source
    | (loading, .settled (.error e)) =>
      let s := { s with loading }
      let s := s.push (.error ("Error: Python runtime unavailable: ".toList ++ e.message))
      (s.push (.info ">>> Run again to retry loading the Python runtime".toList)).finish
        (.failed e.message)

/-- Begins a run, on an empty transcript and without a pending request, unless another one is
active. -/
def begin (s : Session) (l : Language) (source : Text) : Session × Progress SessionCall Reply :=
  if s.isRunning then (s, .settled .refused)
  else
    let console : Console := ⟨s.console.transcript.clear, s.console.input.cancel⟩
    let s := { s with active := some false, console }
    if l = .python ∧ s.settings.pythonBackend = .external then
      let announced := !s.loading.isReady
      let s := if announced then s.push (.info ">>> Loading Python runtime...".toList) else s
      s.load .created announced source
    else
      match Dialect.ofLanguage? l with
      | none => s.finish (.document source)
      | some d => s.talk (.ready (preview d s.settings.inputMode source))

def poll (s : Session) : SessionCall → Session × Progress SessionCall Reply
  | .run (.created l source) => s.begin l source
  | .run (.loading caller announced source) => s.load caller announced source
  | .run (.talking t) => s.talk t
  | .run (.serving t) => s.serve t
  | .warmUp caller =>
    match s.loading.poll caller with
    | (loading, .waiting) => ({ s with loading }, .waiting)
    | (loading, .moved caller) => ({ s with loading }, .moved (.warmUp caller))
    | (loading, .settled result) => ({ s with loading }, .settled (.loaded result))

/-- What remains of a session when a call is dropped. A run that was active stays active. -/
def drop (s : Session) : SessionCall → Session
  | .run (.created _ _) => s
  | .run (.loading caller _ _) => { s with loading := s.loading.drop caller }
  | .run (.talking t) => { s with console := t.drop s.console }
  | .run (.serving t) => { s with console := t.drop s.console }
  | .warmUp caller => { s with loading := s.loading.drop caller }

end Session

structure SessionCalls where
  session : Session
  calls : Pool SessionCall

namespace SessionCalls

def new (session : Session) : SessionCalls := ⟨session, []⟩

/-- Makes a call, which gets the next number. -/
def start (s : SessionCalls) (call : SessionCall) : Nat × SessionCalls :=
  (s.calls.length, { s with calls := s.calls ++ [some call] })

def drop? (s : SessionCalls) (i : Nat) : Option SessionCalls :=
  (s.calls.take? i).map fun (call, calls) => ⟨s.session.drop call, calls⟩

def settle (s : SessionCalls) : SessionCalls × List (Nat × Reply) :=
  let sweep := s.calls.settle Session.poll s.session
  (⟨sweep.state, sweep.pool⟩, sweep.settled)

end SessionCalls

end SourcePreview
