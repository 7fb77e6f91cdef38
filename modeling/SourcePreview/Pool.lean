/-! Pools of tasks that share a state. A task is polled: it goes on as far as it can, and either
waits, or stands somewhere else, or settles with a result. A pool is settled by polling its open
tasks in their order, pass after pass, until a pass brings none of them forward. -/

namespace SourcePreview

inductive Progress (τ ρ : Type) where
  | waiting
  | moved (task : τ)
  | settled (result : ρ)

/-- Tasks by their numbers; a task that settled or was dropped has left its place. -/
abbrev Pool (τ : Type) := List (Option τ)

namespace Pool

variable {σ τ ρ : Type}

def take? (pool : Pool τ) (i : Nat) : Option (τ × Pool τ) :=
  (pool[i]?.join).map fun task => (task, pool.set i none)

/-- The outcome of polling a pool: the shared state, the tasks that remain, the results by task in
the order they came, and whether any task got forward. -/
structure Sweep (σ τ ρ : Type) where
  state : σ
  pool : Pool τ
  settled : List (Nat × ρ)
  progressed : Bool

/-- Polls each open task once, the first one being number `number`. -/
def pass (poll : σ → τ → σ × Progress τ ρ) (state : σ) (number : Nat) : Pool τ → Sweep σ τ ρ
  | [] => ⟨state, [], [], false⟩
  | none :: rest =>
    let r := pass poll state (number + 1) rest
    { r with pool := none :: r.pool }
  | some task :: rest =>
    match poll state task with
    | (state, .waiting) =>
      let r := pass poll state (number + 1) rest
      { r with pool := some task :: r.pool }
    | (state, .moved task) =>
      let r := pass poll state (number + 1) rest
      { r with pool := some task :: r.pool, progressed := true }
    | (state, .settled result) =>
      let r := pass poll state (number + 1) rest
      { r with pool := none :: r.pool, settled := (number, result) :: r.settled, progressed :=
        true }

/-- Passes over a pool until one brings no task forward, at most `rounds` of them. -/
def passes (poll : σ → τ → σ × Progress τ ρ) : Nat → σ → Pool τ → Sweep σ τ ρ
  | 0, state, pool => ⟨state, pool, [], false⟩
  | rounds + 1, state, pool =>
    let first := pass poll state 0 pool
    if first.progressed then
      let later := passes poll rounds first.state first.pool
      ⟨later.state, later.pool, first.settled ++ later.settled, true⟩
    else first

/-- Settles a pool. The rounds suffice when, behind the first pass, a task moves at most once before
it settles. -/
def settle (poll : σ → τ → σ × Progress τ ρ) (state : σ) (pool : Pool τ) : Sweep σ τ ρ :=
  passes poll (2 * pool.length + 2) state pool

end Pool

end SourcePreview
