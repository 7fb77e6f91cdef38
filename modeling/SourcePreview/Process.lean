import SourcePreview.Bridge
import SourcePreview.Json
import SourcePreview.Loading

/-! Processes. The command that was loaded is started anew for every run that needs it; whether it
starts, and what the process does, is up to the system. The process gets the source text as its
first line, its streams are forwarded to the console, and then its end is waited for. -/

namespace SourcePreview

/-- How a process ended: with a code, or by a signal. -/
inductive ExitStatus where
  | code (n : Int)
  | signal
  deriving DecidableEq, Repr

/-- What is said of a process that did not end well. -/
def ExitStatus.failure? : ExitStatus → Option Text
  | .code n =>
    if n = 0 then none else some ("Process exited with status ".toList ++ Number.numeral n)
  | .signal => some "Process exited with status terminated by signal".toList

/-- A process: the bytes on its two streams, how many of the texts sent to it it takes (all of them
unless there is a number), and how it ends, if that can be told. `fault` is what is said of the
first thing that goes wrong between it and the run: a malformed question, a line that is not UTF-8,
a text that is not taken, an end that cannot be told. -/
structure Process where
  output : List UInt8
  errors : List UInt8
  takes : Option Nat
  status : Option ExitStatus
  fault : Text
  deriving DecidableEq, Repr

namespace Process

def streamError (p : Process) : Bridge.StreamError → RuntimeError
  | .malformedFrame => .frame p.fault
  | .undecodable => .io p.fault

def wait (p : Process) : Dialogue (Except RuntimeError ExitStatus) :=
  .check (.done (match p.status with
    | none => .error (.io p.fault)
    | some status => .ok status))

def exchange (p : Process) (source : Text) : Dialogue (Except RuntimeError ExitStatus) :=
  .send (Json.quote source ++ ['\n'])
    ((Bridge.forward (Bridge.linesOf p.errors) (Bridge.linesOf p.output)).bind fun
    | .error e => .done (.error (p.streamError e))
    | .ok () => p.wait)

def dialogue (p : Process) (source : Text) : Dialogue (Except RuntimeError ExitStatus) :=
  match p.takes with
  | none => p.exchange source
  | some room => (p.exchange source).cap (.error (.io p.fault)) room

end Process

/-- What comes of each start of a command for a source text, by the number of the start from 0: a
process, or why there is none. -/
abbrev Launcher := Nat → (command source : Text) → Except Text Process

/-- Starts of commands that do not exist. -/
def Launcher.missing : Launcher := fun _ _ _ => .error noSuchFile

/-- What a machine does with the command of an interpreter: what loading it comes to, by the seconds
it is given, and what comes of starting it. -/
structure Host where
  loader : (command : Text) → (seconds : Nat) → Loader
  launcher : Launcher

def Host.bare : Host := ⟨fun command _ => .missing command, .missing⟩

end SourcePreview
