import SourcePreview.Session

/-! A run on the command line: a session with one run, whose transcript is shown line by line and
whose prompts are answered by lines of input. A blank line has the prompt shown again, and the end
of the input stops the run. -/

namespace SourcePreview

/-- What is shown while a run goes on. -/
inductive Shown where
  | line (e : Entry)
  | prompt (text : Text)
  deriving DecidableEq, Repr

/-- A session, its only call, and how many lines of the transcript were shown. -/
structure Conversation where
  session : Session
  call : SessionCall
  shown : Nat

/-- What a step of a conversation shows, and whether the conversation goes on. -/
structure Turn where
  shown : List Shown
  next : Conversation ⊕ Reply

namespace Conversation

def start (session : Session) (l : Language) (source : Text) : Conversation :=
  ⟨session, .run (.created l source), 0⟩

def prompt (c : Conversation) : List Shown :=
  (c.session.console.input.prompt?.map Shown.prompt).toList

def advance (c : Conversation) : Turn :=
  let (session, progress) := c.session.poll c.call
  let sent := session.console.transcript.sent
  let lines := (sent.drop c.shown).map Shown.line
  let goOn (call : SessionCall) : Turn :=
    let next : Conversation := ⟨session, call, sent.length⟩
    ⟨lines ++ next.prompt, .inl next⟩
  match progress with
  | .waiting => goOn c.call
  | .moved call => goOn call
  | .settled reply => ⟨lines, .inr reply⟩

def answer (c : Conversation) (line : Text) : Turn :=
  match c.session.submit line with
  | (.error .emptySubmission, session) => ⟨c.prompt, .inl { c with session }⟩
  | (_, session) => { c with session }.advance

/-- Takes the end of the input. -/
def close (c : Conversation) : Turn := { c with session := c.session.stop }.advance

/-- Takes all lines of input, and shows what is shown up to the end. -/
def takeAll (c : Conversation) : List Text → List Shown × Reply
  | [] =>
    let turn := c.close
    (turn.shown, match turn.next with
      | .inl _ => .outcome .stopped
      | .inr reply => reply)
  | line :: rest =>
    let turn := c.answer line
    match turn.next with
    | .inl c =>
      let (shown, reply) := c.takeAll rest
      (turn.shown ++ shown, reply)
    | .inr reply => (turn.shown, reply)

def run (session : Session) (l : Language) (source : Text) (input : List Text) :
    List Shown × Reply :=
  let turn := (start session l source).advance
  match turn.next with
  | .inl c =>
    let (shown, reply) := c.takeAll input
    (turn.shown ++ shown, reply)
  | .inr reply => (turn.shown, reply)

end Conversation

end SourcePreview
