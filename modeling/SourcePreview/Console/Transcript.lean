import SourcePreview.Text.Basic

/-! The transcript of a run: lines in the order they were written, sent to every listener as well.
The stop marker ends a transcript: what is written behind it is dropped, until the transcript is
cleared. -/

namespace SourcePreview

inductive LineKind where
  | info
  | output
  | error
  | warning
  | inputEcho
  deriving DecidableEq, Repr

structure Entry where
  text : Text
  kind : LineKind
  deriving DecidableEq, Repr

namespace Entry

def info (text : Text) : Entry := ⟨text, .info⟩

def output (text : Text) : Entry := ⟨text, .output⟩

def error (text : Text) : Entry := ⟨text, .error⟩

def warning (text : Text) : Entry := ⟨text, .warning⟩

/-- A prompt and its answer on one line, a space between them unless the prompt ends in a blank. -/
def echoText (prompt answer : Text) : Text :=
  match prompt.getLast? with
  | none => answer
  | some c => if Text.isBlank c then prompt ++ answer else prompt ++ ' ' :: answer

def echo (prompt answer : Text) : Entry := ⟨echoText prompt answer, .inputEcho⟩

/-- The line that ends the transcript of a stopped run. -/
def stopMarker : Entry := warning ">>> Execution stopped".toList

end Entry

/-- A transcript: its lines, whether the stop marker is among them, and every line ever sent to
listeners. -/
structure Transcript where
  entries : List Entry
  stopped : Bool
  sent : List Entry
  deriving DecidableEq, Repr

namespace Transcript

def empty : Transcript := ⟨[], false, []⟩

/-- Writes a line, without regard to the marker. -/
def append (t : Transcript) (e : Entry) : Transcript :=
  { t with entries := t.entries ++ [e], sent := t.sent ++ [e] }

/-- Writes a line, unless the transcript is stopped. -/
def push (t : Transcript) (e : Entry) : Transcript := if t.stopped then t else t.append e

def markStopped (t : Transcript) : Transcript :=
  if t.stopped then t else { t.append .stopMarker with stopped := true }

/-- Ends the transcript with the stop marker, and tells whether this wrote it. -/
def mark (t : Transcript) : Bool × Transcript :=
  if t.stopped then (false, t) else (true, t.markStopped)

/-- Drops all lines and the marker; what listeners were sent remains sent. -/
def clear (t : Transcript) : Transcript := { t with entries := [], stopped := false }

/-- The number of lines kept for a listener that falls behind. -/
def window : Nat := 256

/-- What a listener that has been given `seen` lines hears next: how many lines it missed, and those
kept for it. -/
def heardSince (t : Transcript) (seen : Nat) : Nat × List Entry :=
  let fresh := t.sent.drop seen
  let missed := fresh.length - window
  (missed, fresh.drop missed)

@[simp] theorem push_of_stopped {t : Transcript} (h : t.stopped = true) (e : Entry) :
    t.push e = t := by
  simp [push, h]

@[simp] theorem entries_push_of_not_stopped {t : Transcript} (h : t.stopped = false) (e : Entry) :
    (t.push e).entries = t.entries ++ [e] := by
  simp [push, h, append]

@[simp] theorem stopped_push (t : Transcript) (e : Entry) : (t.push e).stopped = t.stopped := by
  simp only [push, append]
  split <;> rfl

@[simp] theorem stopped_markStopped (t : Transcript) : t.markStopped.stopped = true := by
  simp only [markStopped]
  split <;> simp_all

@[simp] theorem fst_mark (t : Transcript) : t.mark.1 = !t.stopped := by
  cases h : t.stopped <;> simp [mark, h]

@[simp] theorem snd_mark (t : Transcript) : t.mark.2 = t.markStopped := by
  cases h : t.stopped <;> simp [mark, markStopped, h]

end Transcript

end SourcePreview
