import SourcePreview.Json

/-! Frames: the line by which a process asks for input. Behind the marker stands the prompt as a
JSON string; the text before the marker is what the process left on its open line. -/

namespace SourcePreview.Frame

/-- The character that makes a line of output a frame. -/
def marker : Char := '\x1e'

/-- A line of output: plain, or a request with its prompt, which is missing when it is malformed. -/
inductive Line where
  | plain (text : Text)
  | request (prompt : Option Text)
  deriving DecidableEq, Repr

def Line.ofText (line : Text) : Line :=
  match Text.splitOnce marker line with
  | none => .plain line
  | some (openLine, encoded) => .request ((Json.string? encoded).map (openLine ++ ·))

end SourcePreview.Frame
