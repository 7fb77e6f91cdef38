import SourcePreview.Number.Digits
import SourcePreview.Pool

/-! Loading the interpreter. Any number of callers may want it; one of them holds the attempt and
the others queue for it. An attempt that succeeds serves all callers, now and later. When the
holder's attempt fails, or the holder is dropped, the next caller in the queue makes an attempt of
its own. The attempts of a gated loader wait for one release each. -/

namespace SourcePreview

structure Interpreter where
  command : Text
  version : Text
  deriving DecidableEq, Repr

/-- Why an interpreter cannot be loaded, started or talked to: its command cannot be started, no
answer came in time, its check failed, it asked in a malformed way, or a stream to or from it
broke. -/
inductive RuntimeError where
  | spawn (command reason : Text)
  | timeout (seconds : Nat)
  | check (reason : Text)
  | frame (reason : Text)
  | io (reason : Text)
  deriving DecidableEq, Repr

def RuntimeError.message : RuntimeError → Text
  | .spawn command reason => "failed to start '".toList ++ command ++ "': ".toList ++ reason
  | .timeout seconds => "interpreter did not start within ".toList ++ Number.digits seconds ++ ['s']
  | .check reason => "interpreter check failed: ".toList ++ reason
  | .frame reason => "malformed input request: ".toList ++ reason
  | .io reason => "I/O error talking to the interpreter: ".toList ++ reason

/-- What the system says of a command that does not exist. -/
def noSuchFile : Text := "No such file or directory (os error 2)".toList

/-- What each attempt, by its number from 0, comes to, and whether it waits for a release. -/
structure Loader where
  gated : Bool
  attempt : Nat → Except RuntimeError Interpreter

namespace Loader

def missing (command : Text) : Loader := ⟨false, fun _ => .error (.spawn command noSuchFile)⟩

def failingFirst (failures : Nat) (reason : Text) (interpreter : Interpreter) (gated : Bool) :
    Loader :=
  ⟨gated, fun n => if n < failures then .error (.check reason) else .ok interpreter⟩

end Loader

abbrev CallerId := Nat

/-- The interpreter once it is there, the attempts so far, the releases not used, the caller that
holds the attempt, the callers behind it, and the next free number. -/
structure Loading where
  loader : Loader
  interpreter : Option Interpreter
  attempts : Nat
  releases : Nat
  holder : Option CallerId
  queue : List CallerId
  fresh : CallerId

/-- A caller: not polled yet, in the queue, or with an attempt of a given number under way. -/
inductive Caller where
  | created
  | queued (id : CallerId)
  | attempting (number : Nat)
  deriving DecidableEq, Repr

namespace Loading

def start (loader : Loader) : Loading := ⟨loader, none, 0, 0, none, [], 0⟩

def isReady (l : Loading) : Bool := l.interpreter.isSome

/-- Lets one gated attempt go on. -/
def release (l : Loading) : Loading := { l with releases := l.releases + 1 }

/-- Gives the attempt to the next caller in the queue. -/
def handOver (l : Loading) : Loading :=
  match l.queue with
  | [] => { l with holder := none }
  | id :: rest => { l with holder := some id, queue := rest }

def proceed (l : Loading) (number : Nat)
    (waits : Progress Caller (Except RuntimeError Interpreter)) :
    Loading × Progress Caller (Except RuntimeError Interpreter) :=
  if l.loader.gated && l.releases == 0 then (l, waits)
  else
    let l := if l.loader.gated then { l with releases := l.releases - 1 } else l
    match l.loader.attempt number with
    | .ok i => ({ l with interpreter := some i, holder := none, queue := [] }, .settled (.ok i))
    | .error e => (l.handOver, .settled (.error e))

def attempt (l : Loading) : Loading × Progress Caller (Except RuntimeError Interpreter) :=
  { l with attempts := l.attempts + 1 }.proceed l.attempts (.moved (.attempting l.attempts))

def poll (l : Loading) (c : Caller) : Loading × Progress Caller (Except RuntimeError Interpreter) :=
  match l.interpreter with
  | some i => (l, .settled (.ok i))
  | none =>
    match c with
    | .created =>
      match l.holder with
      | none => { l with holder := some l.fresh, fresh := l.fresh + 1 }.attempt
      | some _ =>
        ({ l with queue := l.queue ++ [l.fresh], fresh := l.fresh + 1 }, .moved (.queued l.fresh))
    | .queued id => if l.holder = some id then l.attempt else (l, .waiting)
    | .attempting number => l.proceed number .waiting

/-- What remains when a caller is dropped: an attempt under way is given up and the next caller in
the queue may begin one. -/
def drop (l : Loading) : Caller → Loading
  | .created => l
  | .queued id =>
    if l.holder = some id then l.handOver else { l with queue := l.queue.filter (· != id) }
  | .attempting _ => l.handOver

end Loading

end SourcePreview
