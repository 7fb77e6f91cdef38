import SourcePreview.Text.Basic

/-! Requests for input. At most one is pending; it is answered by a submission, or by a cancel with
the empty text. Each request has a ticket, under which its answer waits until the one who asked
takes it. A request whose asker is gone stays pending, and the submission that meets it is
refused. -/

namespace SourcePreview

inductive InputError where
  | requestPending
  | emptySubmission
  | notAwaiting
  deriving DecidableEq, Repr

def InputError.message : InputError → Text
  | .requestPending => "an input request is already pending".toList
  | .emptySubmission => "input must not be empty".toList
  | .notAwaiting => "no input request is pending".toList

abbrev Ticket := Nat

/-- A pending request, and whether its asker still waits for it. -/
structure Request where
  ticket : Ticket
  prompt : Text
  attended : Bool
  deriving DecidableEq, Repr

/-- The pending request, the prompt shown to watchers, the answers not yet taken, and the next free
ticket. -/
structure Coordinator where
  pending : Option Request
  watched : Option Text
  answers : List (Ticket × Text)
  fresh : Ticket
  deriving DecidableEq, Repr

namespace Coordinator

def idle : Coordinator := ⟨none, none, [], 0⟩

def isIdle (c : Coordinator) : Bool := c.pending.isNone

def prompt? (c : Coordinator) : Option Text := c.pending.map Request.prompt

def request (c : Coordinator) (prompt : Text) : Except InputError (Ticket × Coordinator) :=
  match c.pending with
  | some _ => .error .requestPending
  | none =>
    .ok (c.fresh, { c with
      pending := some ⟨c.fresh, prompt, true⟩, watched := some prompt, fresh := c.fresh + 1 })

def resolve (c : Coordinator) (r : Request) (answer : Text) : Coordinator :=
  { c with
    pending := none
    watched := none
    answers := if r.attended then (r.ticket, answer) :: c.answers else c.answers }

/-- Answers the pending request with a text without the blanks around it; an answer of blanks leaves
it pending. -/
def submit (c : Coordinator) (text : Text) : Except InputError Unit × Coordinator :=
  match c.pending with
  | none => (.error .notAwaiting, c)
  | some r =>
    let answer := Text.trim text
    if answer.isEmpty then (.error .emptySubmission, c)
    else (if r.attended then .ok () else .error .notAwaiting, c.resolve r answer)

/-- Answers the pending request, if there is one, with the empty text. -/
def cancel (c : Coordinator) : Coordinator :=
  match c.pending with
  | none => c
  | some r => c.resolve r []

def answer? (c : Coordinator) (ticket : Ticket) : Option Text := c.answers.lookup ticket

/-- Gives up a ticket: its answer is dropped, its request stays pending and is not attended any
more. -/
def abandon (c : Coordinator) (ticket : Ticket) : Coordinator :=
  { c with
    pending := c.pending.map fun r => if r.ticket = ticket then { r with attended := false } else r
    answers := c.answers.filter fun a => a.1 != ticket }

@[simp] theorem pending_resolve (c : Coordinator) (r : Request) (answer : Text) :
    (c.resolve r answer).pending = none := rfl

@[simp] theorem pending_cancel (c : Coordinator) : c.cancel.pending = none := by
  simp only [cancel]
  split <;> simp_all

@[simp] theorem prompt?_abandon (c : Coordinator) (ticket : Ticket) :
    (c.abandon ticket).prompt? = c.prompt? := by
  simp only [prompt?, abandon, Option.map_map]
  congr 1
  funext r
  simp only [Function.comp]
  split <;> rfl

end Coordinator

end SourcePreview
