import SourcePreview.Command.Report

/-! The command line program: it reads the files and variables that a command may ask for, writes
the report, and carries on the conversation of a run, a line of input at a time. -/

namespace SourcePreview.Command

def readText? (path : Text) : IO (Option Text) := do
  try
    let text ← IO.FS.readFile (String.ofList path)
    return some text.toList
  catch _ => return none

/-- The variables of the environment: all of them where the system lists them in a file, and
otherwise those that settings know by name. -/
def environment : IO Settings.Variables := do
  if let some listed ← readText? "/proc/self/environ".toList then
    return (Text.splitAll '\x00' listed).filterMap (Text.splitOnce '=')
  let mut found : Settings.Variables := []
  for name in Settings.knownVariables do
    if let some value ← IO.getEnv name then found := found ++ [(name.toList, value.toList)]
  return found

/-- The files that an invocation may read, and the variables; no processes are started. -/
def surroundings (i : Invocation) : IO Surroundings := do
  let vars ← environment
  let assignments ← readText? assignmentFile
  let mut files : List (Text × Text) := []
  for path in pathsOf i (withAssignments vars assignments) do
    if let some text ← readText? path then files := files ++ [(path, text)]
  let read := files
  return ⟨fun path => if path = assignmentFile then assignments else read.lookup path, vars, .bare⟩

def write (w : Written) : IO Unit := do
  let out ← IO.getStdout
  out.putStr (String.ofList w.out)
  out.flush
  let err ← IO.getStderr
  err.putStr (String.ofList w.err)
  err.flush

/-- Carries on a conversation to its end. -/
partial def carryOn (json : Bool) (turn : Turn) : IO Reply := do
  write (writtenAll json turn.shown)
  match turn.next with
  | .inr reply => return reply
  | .inl c =>
    let line ← (← IO.getStdin).getLine
    carryOn json (if line.isEmpty then c.close else c.answer ((Text.lines line.toList).headD []))

/-- Does what a plan says, and gives the exit code. -/
def execute : Plan → IO UInt32
  | .finished r => do
    write r.written
    return r.code.toUInt32
  | .converse json session l source => do
    let reply ← carryOn json (Conversation.start session l source).advance
    match replyReport json reply with
    | .ok r =>
      write r.written
      return r.code.toUInt32
    | .error _ => return 101

end SourcePreview.Command

open SourcePreview in
def main (arguments : List String) : IO UInt32 := do
  match Invocation.ofArguments? (arguments.map String.toList) with
  | none =>
    Command.write (.toErr Command.usage)
    return 2
  | some i =>
    match Command.plan (← Command.surroundings i) i with
    | .ok plan => Command.execute plan
    | .error _ => return 101
