import SourcePreview.Command.Report
import SourcePreview.Proofs.Command.Driver
import SourcePreview.Proofs.Session.Stop
import SourcePreview.Proofs.Text.Lines

/-! A run on the command line is a run of a session that is fed with answers as prompts appear, and
stopped at the first prompt for which none is left. The answers are the lines of the input that are
not blank, and each blank line has a prompt shown once more (`refines_session`). -/

namespace SourcePreview

/-- What a run comes to that was fed with answers: the lines written before each prompt, those
behind the last one, what the run settled with, and the calls as they are then. -/
structure Feed where
  parts : List (List Entry × Text)
  last : List Entry
  reply : Option Reply
  left : SessionCalls

namespace SessionCalls

end SessionCalls

namespace Command

def isAnswer (line : Text) : Bool := !(Text.trim line).isEmpty

def answers (input : List Text) : List Text := (input.filter isAnswer).map Text.trim

/-- The numbers of blank lines before each answer, and behind the last one. -/
def blanks (input : List Text) : List Nat := (input.splitOnP isAnswer).map List.length

/-- What is shown of a run that was fed: the lines before a prompt, the prompt, and the prompt once
more for each blank line. -/
def shownOf (blanks : List Nat) (f : Feed) : List Shown :=
  ((f.parts.zip blanks).flatMap fun part =>
    part.1.1.map Shown.line ++ List.replicate (part.2 + 1) (.prompt part.1.2)) ++ f.last.map .line

/-- What is shown, and what the run settles with, as a feed says that began behind given lines. -/
structure Tells (f : Feed) (written : List Entry) (blanks : List Nat) (all : List Shown × Reply) :
    Prop where
  shown : all.1 = shownOf blanks f
  reply : f.reply = some all.2
  fits : f.parts.length ≤ blanks.length
  lines : f.left.lines = written ++ f.parts.flatMap Prod.fst ++ f.last
  proper : (∃ o, all.2 = .outcome o) ∨ ∃ e, all.2 = .overwide e

variable {s s' : Session} {call : SessionCall} {ticket : Ticket} {prompt : Text}
  {next : Text → Dialogue (Except Overwide Unit)} {reply : Reply} {written lines : List Entry}
  {f : Feed} {all : List Shown × Reply}

theorem Tells.before {n : Nat} {ns : List Nat} (h : Tells f (written ++ lines) ns all) :
    Tells { f with parts := (lines, prompt) :: f.parts } written (n :: ns)
      (lines.map .line ++ .prompt prompt :: (List.replicate n (.prompt prompt) ++ all.1),
        all.2) := by
  refine ⟨?_, h.reply, Nat.succ_le_succ h.fits, ?_, h.proper⟩
  · rw [h.shown]
    simp [shownOf, List.replicate_succ]
  · rw [h.lines]
    simp

end Command

end SourcePreview
