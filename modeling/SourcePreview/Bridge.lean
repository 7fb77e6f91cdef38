import SourcePreview.Bridge.Frame
import SourcePreview.Console.Dialogue
import SourcePreview.Text.Lines

/-! The bridge between the streams of a process and the console. Each line of output becomes an
output line of the transcript, each frame a question whose answer is sent back as a line, and each
line of the error stream an error line. Output is handled before errors. -/

namespace SourcePreview.Bridge

/-- Why a stream cannot be forwarded. -/
inductive StreamError where
  | malformedFrame
  | undecodable
  deriving DecidableEq, Repr

/-- The lines of a stream of bytes; `none` stands for a line that is not UTF-8. -/
def linesOf (bytes : List UInt8) : List (Option Text) :=
  let (full, rest) := cut bytes
  full.map (fun l => (decode l).map Text.dropReturn) ++ (if rest.isEmpty then [] else [decode rest])
where
  /-- The text of bytes in UTF-8. -/
  decode (bytes : List UInt8) : Option Text := (String.fromUTF8? ⟨bytes.toArray⟩).map String.toList
  /-- The pieces between line feeds, and the rest after the last one. -/
  cut : List UInt8 → List (List UInt8) × List UInt8
    | [] => ([], [])
    | b :: r =>
      match cut r with
      | (full, rest) =>
        if b == 10 then ([] :: full, rest)
        else match full with
          | [] => ([], b :: rest)
          | l :: ls => ((b :: l) :: ls, rest)

abbrev BridgeDialogue := Dialogue (Except StreamError Unit)

def forwardErrors : List (Option Text) → BridgeDialogue
  | [] => .check (.done (.ok ()))
  | none :: _ => .check (.done (.error .undecodable))
  | some line :: rest => .check (.say (.error line) (forwardErrors rest))

/-- Forwards the lines of the output stream, and then those of the error stream. -/
def forward (errors : List (Option Text)) : List (Option Text) → BridgeDialogue
  | [] => .check (forwardErrors errors)
  | none :: _ => .check (.done (.error .undecodable))
  | some line :: rest =>
    .check (match Frame.Line.ofText line with
      | .plain text => .say (.output text) (forward errors rest)
      | .request none => .done (.error .malformedFrame)
      | .request (some prompt) =>
        .ask prompt fun answer =>
        .say (.echo prompt answer) (.send (answer ++ ['\n']) (forward errors rest)))

end SourcePreview.Bridge
