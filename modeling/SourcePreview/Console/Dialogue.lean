import SourcePreview.Console.Coordinator
import SourcePreview.Console.Transcript
import SourcePreview.Pool

/-! Dialogues: what a program does to its console. A dialogue writes lines, asks for answers, and
looks at some points whether it was cancelled; between two points it runs to the next question or to
its end. A dialogue that waits for an answer is data, so it can be kept, continued and dropped. -/

namespace SourcePreview

inductive Dialogue (α : Type) where
  /-- The end of the program. -/
  | done (result : α)
  /-- Writes a line into the transcript. -/
  | say (entry : Entry) (next : Dialogue α)
  /-- Writes a text to the process at the other end. -/
  | send (text : Text) (next : Dialogue α)
  /-- Ends here when cancelled. -/
  | check (next : Dialogue α)
  /-- Asks for an answer; ends here when cancelled. -/
  | ask (prompt : Text) (next : Text → Dialogue α)

/-- How a dialogue ended: with its result, cancelled, or because its question was refused. -/
inductive Ending (α : Type) where
  | result (a : α)
  | cancelled
  | refused (e : InputError)

/-- A dialogue that is not at its end: not continued yet, or waiting for the answer to its
question. -/
inductive Talk (α : Type) where
  | ready (d : Dialogue α)
  | asked (ticket : Ticket) (next : Text → Dialogue α)

structure Console where
  transcript : Transcript
  input : Coordinator

def Console.empty : Console := ⟨.empty, .idle⟩

namespace Console

def push (c : Console) (e : Entry) : Console := { c with transcript := c.transcript.push e }

def cancelInput (c : Console) : Console := { c with input := c.input.cancel }

def abandon (c : Console) (ticket : Ticket) : Console := { c with input := c.input.abandon ticket }

end Console

/-- Where a continued talk stands: the console, what was sent, and how far it came. -/
structure Stand (α : Type) where
  console : Console
  sent : Text
  progress : Progress (Talk α) (Ending α)

def Dialogue.sayAll {α : Type} (entries : List Entry) (next : Dialogue α) : Dialogue α :=
  entries.foldr .say next

/-- Goes on with what the result tells. -/
def Dialogue.bind {α β : Type} (f : α → Dialogue β) : Dialogue α → Dialogue β
  | .done a => f a
  | .say e next => .say e (next.bind f)
  | .send text next => .send text (next.bind f)
  | .check next => .check (next.bind f)
  | .ask prompt next => .ask prompt fun answer => (next answer).bind f

/-- A dialogue with a process that takes so many texts; in place of sending the next one, it ends
with `a`. -/
def Dialogue.cap {α : Type} (a : α) : Dialogue α → Nat → Dialogue α
  | .done a, _ => .done a
  | .say e next, room => .say e (next.cap a room)
  | .send _ _, 0 => .done a
  | .send text next, room + 1 => .send text (next.cap a room)
  | .check next, room => .check (next.cap a room)
  | .ask prompt next, room => .ask prompt fun answer => (next answer).cap a room

/-- Runs a dialogue up to its next question or its end. -/
def Dialogue.advance {α : Type} (cancelled : Bool) (console : Console) (sent : Text) :
    Dialogue α → Stand α
  | .done a => ⟨console, sent, .settled (.result a)⟩
  | .say e next => next.advance cancelled (console.push e) sent
  | .send text next => next.advance cancelled console (sent ++ text)
  | .check next =>
    if cancelled then ⟨console, sent, .settled .cancelled⟩ else next.advance cancelled console sent
  | .ask prompt next =>
    if cancelled then ⟨console.cancelInput, sent, .settled .cancelled⟩
    else match console.input.request prompt with
      | .error e => ⟨console, sent, .settled (.refused e)⟩
      | .ok (ticket, input) => ⟨{ console with input }, sent, .moved (.asked ticket next)⟩

/-- Continues a talk: a question ends when cancelled, and is followed up once its answer is
there. -/
def Talk.advance {α : Type} (cancelled : Bool) (console : Console) (sent : Text) : Talk α → Stand α
  | .ready d => d.advance cancelled console sent
  | .asked ticket next =>
    if cancelled then ⟨console.cancelInput.abandon ticket, sent, .settled .cancelled⟩
    else match console.input.answer? ticket with
      | none => ⟨console, sent, .waiting⟩
      | some answer => (next answer).advance cancelled (console.abandon ticket) sent

def Talk.drop {α : Type} (console : Console) : Talk α → Console
  | .ready _ => console
  | .asked ticket _ => console.abandon ticket

namespace Dialogue

variable {α : Type} (cancelled : Bool) (console : Console) (sent : Text)

@[simp] theorem advance_say (e : Entry) (next : Dialogue α) :
    (say e next).advance cancelled console sent = next.advance cancelled (console.push e) sent :=
    rfl

@[simp] theorem advance_done (a : α) :
    (done a).advance cancelled console sent = ⟨console, sent, .settled (.result a)⟩ := rfl

theorem advance_sayAll (entries : List Entry) (next : Dialogue α) :
    (sayAll entries next).advance cancelled console sent =
      next.advance cancelled (entries.foldl Console.push console) sent := by
  induction entries generalizing console with
  | nil => rfl
  | cons e es ih => exact ih (console.push e)

end Dialogue

end SourcePreview
