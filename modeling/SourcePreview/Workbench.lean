import SourcePreview.Bridge
import SourcePreview.Run

/-! A workbench: one console and one cancellation shared by any number of tasks, which are runs,
bridges, single requests and waits for the next prompt. -/

namespace SourcePreview

inductive Task where
  | run (talk : Talk (Except Overwide Unit))
  | request (talk : Talk Text)
  | nextPrompt
  | bridge (talk : Talk (Except Bridge.StreamError Unit)) (sent : Text)

/-- What a task settled with. -/
inductive Settlement where
  | run (ending : Ending (Except Overwide Unit))
  | request (ending : Ending Text)
  | nextPrompt (prompt : Text)
  | bridge (ending : Ending (Except Bridge.StreamError Unit)) (sent : Text)

namespace Task

def ofSource (d : Dialect) (mode : InputMode) (source : Text) : Task :=
  .run (.ready (preview d mode source))

def ofPrompt (prompt : Text) : Task := .request (.ready (.ask prompt .done))

def ofStreams (output errors : List UInt8) : Task :=
  .bridge (.ready (Bridge.forward (Bridge.linesOf errors) (Bridge.linesOf output))) []

def poll (cancelled : Bool) (console : Console) : Task → Console × Progress Task Settlement
  | .run talk =>
    let stand := talk.advance cancelled console []
    (stand.console, match stand.progress with
      | .waiting => .waiting
      | .moved talk => .moved (.run talk)
      | .settled ending => .settled (.run ending))
  | .request talk =>
    let stand := talk.advance false console []
    (stand.console, match stand.progress with
      | .waiting => .waiting
      | .moved talk => .moved (.request talk)
      | .settled ending => .settled (.request ending))
  | .nextPrompt =>
    (console, match console.input.watched with
      | none => .waiting
      | some prompt => .settled (.nextPrompt prompt))
  | .bridge talk sent =>
    let stand := talk.advance cancelled console sent
    (stand.console, match stand.progress with
      | .waiting => .waiting
      | .moved talk => .moved (.bridge talk stand.sent)
      | .settled ending => .settled (.bridge ending stand.sent))

def drop (console : Console) : Task → Console
  | .run talk => talk.drop console
  | .request talk => talk.drop console
  | .nextPrompt => console
  | .bridge talk _ => talk.drop console

end Task

structure Workbench where
  console : Console
  cancelled : Bool
  tasks : Pool Task

namespace Workbench

def empty : Workbench := ⟨.empty, false, []⟩

/-- Starts a task, which gets the next number. -/
def start (w : Workbench) (task : Task) : Nat × Workbench :=
  (w.tasks.length, { w with tasks := w.tasks ++ [some task] })

def drop? (w : Workbench) (i : Nat) : Option Workbench :=
  (w.tasks.take? i).map fun (task, tasks) => { w with console := task.drop w.console, tasks }

def cancel (w : Workbench) : Workbench := { w with cancelled := true }

def settle (w : Workbench) : Workbench × List (Nat × Settlement) :=
  let sweep := w.tasks.settle (Task.poll w.cancelled) w.console
  ({ w with console := sweep.state, tasks := sweep.pool }, sweep.settled)

end Workbench

end SourcePreview
