import SourcePreview.Loading
import SourcePreview.Proofs.Pool

/-! What callers do to a loading, one small move at a time: to stand in line, to begin an attempt,
to end it or give it up, and to leave. Each poll and each drop of a caller is a sequence of such
moves (`poll_moves`, `drop_moves`), so what a move keeps holds of all histories. -/

namespace SourcePreview

/-- The callers of a loading by their places; one that is served or gone has left its place. -/
def Callers := Nat → Option Caller

namespace Callers

variable {callers : Callers} {i j : Nat} {c c' : Option Caller}

def put (callers : Callers) (i : Nat) (c : Option Caller) : Callers :=
  fun j => if j = i then c else callers j

@[simp] theorem put_self : callers.put i c i = c := if_pos rfl

theorem put_of_ne (h : j ≠ i) : callers.put i c j = callers j := if_neg h

@[simp] theorem put_put : (callers.put i c).put i c' = callers.put i c' := by
  funext j
  by_cases hj : j = i
  · subst hj
    rw [put_self, put_self]
  · rw [put_of_ne hj, put_of_ne hj, put_of_ne hj]

theorem put_eq_self (h : callers i = c) : callers.put i c = callers := by
  funext j
  by_cases hj : j = i
  · subst hj
    rw [put_self, h]
  · exact put_of_ne hj

theorem put_eq_some_iff {x : Caller} :
    callers.put i c j = some x ↔ j = i ∧ c = some x ∨ j ≠ i ∧ callers j = some x := by
  by_cases hj : j = i
  · subst hj
    simp
  · simp [put_of_ne hj, hj]

theorem of_put_none {x : Caller} (h : callers.put i none j = some x) :
    j ≠ i ∧ callers j = some x := by
  rcases put_eq_some_iff.1 h with ⟨-, hc⟩ | h
  · cases hc
  · exact h

def Idle (c : Option Caller) : Prop := c = none ∨ c = some .created

theorem idle_none : Idle none := Or.inl rfl

theorem idle_created : Idle (some .created) := Or.inr rfl

theorem Idle.ne_queued (h : Idle c) (id : CallerId) : c ≠ some (.queued id) := by
  rintro rfl
  rcases h with h | h <;> cases h

theorem Idle.ne_attempting (h : Idle c) (n : Nat) : c ≠ some (.attempting n) := by
  rintro rfl
  rcases h with h | h <;> cases h

end Callers

open Callers (Idle)

namespace Loading

/-- What one caller does, with the numbers of attempts that fail and that are given up by it. -/
inductive Move (l : Loading) (callers : Callers) : Loading → Callers → Nat → Nat → Prop where
  | takes {i : Nat} (idle : Idle (callers i)) (unready : l.interpreter = none)
      (free : l.holder = none) :
    Move l callers { l with holder := some l.fresh, fresh := l.fresh + 1 }
      (callers.put i (some (.queued l.fresh))) 0 0
  | queues {i : Nat} {id : CallerId} (idle : Idle (callers i)) (unready : l.interpreter = none)
      (held : l.holder = some id) :
    Move l callers { l with queue := l.queue ++ [l.fresh], fresh := l.fresh + 1 }
      (callers.put i (some (.queued l.fresh))) 0 0
  | begins {i : Nat} {id : CallerId} (caller : callers i = some (.queued id))
      (unready : l.interpreter = none) (held : l.holder = some id) :
    Move l callers { l with attempts := l.attempts + 1 }
      (callers.put i (some (.attempting l.attempts))) 0 0
  | succeeds {i n : Nat} {it : Interpreter} (caller : callers i = some (.attempting n))
      (unready : l.interpreter = none) (success : l.loader.attempt n = .ok it) :
    Move l callers { l with interpreter := some it, holder := none, queue := [] }
      (callers.put i none) 0 0
  | fails {i n : Nat} {e : RuntimeError} (caller : callers i = some (.attempting n))
      (unready : l.interpreter = none) (failure : l.loader.attempt n = .error e) :
    Move l callers l.handOver (callers.put i none) 1 0
  | givesUp {i n : Nat} (caller : callers i = some (.attempting n)) :
    Move l callers l.handOver (callers.put i none) 0 1
  | passes {i : Nat} {id : CallerId} (caller : callers i = some (.queued id))
      (held : l.holder = some id) :
    Move l callers l.handOver (callers.put i none) 0 0
  | leaves {i : Nat} {id : CallerId} (caller : callers i = some (.queued id))
      (behind : l.holder ≠ some id) :
    Move l callers { l with queue := l.queue.filter (· != id) } (callers.put i none) 0 0
  | served {i : Nat} (ready : l.interpreter ≠ none) : Move l callers l (callers.put i none) 0 0
  | released (n : Nat) : Move l callers { l with releases := n } callers 0 0
  | idles {i : Nat} {c : Option Caller} (before : Idle (callers i)) (behind : Idle c) :
    Move l callers l (callers.put i c) 0 0

/-- One move after the other; only the last one ends an attempt without the interpreter. -/
inductive Moves : Loading → Callers → Loading → Callers → Nat → Nat → Prop where
  | refl (l : Loading) (callers : Callers) : Moves l callers l callers 0 0
  | tail {l l' l'' : Loading} {callers callers' callers'' : Callers} {failed given : Nat}
      (first : Moves l callers l' callers' 0 0)
      (last : Move l' callers' l'' callers'' failed given) :
    Moves l callers l'' callers'' failed given

variable {l l' l'' : Loading} {callers callers' callers'' : Callers} {failed given i n : Nat}
  {c : Caller}

theorem Move.moves (h : Move l callers l' callers' failed given) :
    Moves l callers l' callers' failed given :=
  (Moves.refl l callers).tail h

theorem Moves.trans (h : Moves l callers l' callers' 0 0)
    (h' : Moves l' callers' l'' callers'' failed given) :
    Moves l callers l'' callers'' failed given := by
  induction h' with
  | refl => exact h
  | tail _ last ih => exact (ih h).tail last

theorem poll_of_ready {it : Interpreter} (ready : l.interpreter = some it) (c : Caller) :
    l.poll c = (l, .settled (.ok it)) := by
  rw [poll.eq_def, ready]

theorem poll_created_of_free (unready : l.interpreter = none) (free : l.holder = none) :
    l.poll .created = attempt { l with holder := some l.fresh, fresh := l.fresh + 1 } := by
  unfold poll
  split
  · next it hi => rw [unready] at hi; cases hi
  · dsimp only
    split
    · rfl
    · next id hh => rw [free] at hh; cases hh

theorem poll_created_of_held (unready : l.interpreter = none) {id : CallerId}
    (held : l.holder = some id) :
    l.poll .created = ({ l with queue := l.queue ++ [l.fresh], fresh := l.fresh + 1 },
      .moved (.queued l.fresh)) := by
  unfold poll
  split
  · next it hi => rw [unready] at hi; cases hi
  · dsimp only
    split
    · next hh => rw [held] at hh; cases hh
    · rfl

theorem poll_queued (unready : l.interpreter = none) (id : CallerId) :
    l.poll (.queued id) = if l.holder = some id then l.attempt else (l, .waiting) := by
  rw [poll.eq_def, unready]

theorem poll_attempting (unready : l.interpreter = none) (n : Nat) :
    l.poll (.attempting n) = l.proceed n .waiting := by
  rw [poll.eq_def, unready]

/-- Whether a poll ends with a failed attempt. -/
def failure (progress : Progress Caller (Except RuntimeError Interpreter)) : Nat :=
  match progress with
  | .settled (.error _) => 1
  | _ => 0

def underway : Caller → Nat
  | .attempting _ => 1
  | _ => 0

theorem proceed_moves (caller : callers i = some (.attempting n)) (unready : l.interpreter = none)
    (waits : Progress Caller (Except RuntimeError Interpreter))
    (stands : waits.rest c = some (.attempting n) ∧ failure waits = 0) :
    Moves l callers (l.proceed n waits).1 (callers.put i ((l.proceed n waits).2.rest c))
    (failure (l.proceed n waits).2) 0 := by
  unfold proceed
  by_cases hg : (l.loader.gated && l.releases == 0) = true
  · rw [if_pos hg, stands.1, stands.2, Callers.put_eq_self caller]
    exact .refl l callers
  · rw [if_neg hg]
    -- the release that the attempt uses up
    obtain ⟨r, hr⟩ : ∃ r, (if l.loader.gated then { l with releases := l.releases - 1 } else l) =
        { l with releases := r } := by
      cases l.loader.gated
      · exact ⟨l.releases, rfl⟩
      · exact ⟨l.releases - 1, rfl⟩
    have released : Moves l callers { l with releases := r } callers 0 0 := (Move.released r).moves
    rw [hr]
    dsimp only
    cases ha : l.loader.attempt n with
    | ok it => exact released.tail (.succeeds caller unready ha)
    | error e => exact released.tail (.fails caller unready ha)

theorem attempt_moves {id : CallerId} (caller : callers i = some (.queued id))
    (unready : l.interpreter = none) (held : l.holder = some id) :
    Moves l callers l.attempt.1 (callers.put i (l.attempt.2.rest c)) (failure l.attempt.2) 0 := by
  have begun : Moves l callers { l with attempts := l.attempts + 1 }
    (callers.put i (some (.attempting l.attempts))) 0 0 :=
    (Move.begins caller unready held).moves
  have attempting :
    callers.put i (some (.attempting l.attempts)) i = some (.attempting l.attempts) :=
    Callers.put_self
  have rest :=
    begun.trans (proceed_moves (l := { l with attempts := l.attempts + 1 }) (c := c) attempting
      unready
    (.moved (.attempting l.attempts)) ⟨rfl, rfl⟩)
  rwa [Callers.put_put] at rest

/-- A poll of a caller, or the first poll of one that comes with it. -/
theorem poll_moves (caller : callers i = some c ∨ callers i = none ∧ c = .created) :
    Moves l callers (l.poll c).1 (callers.put i ((l.poll c).2.rest c)) (failure (l.poll c).2)
    0 := by
  cases hi : l.interpreter with
  | some it =>
    rw [poll_of_ready hi]
    exact (Move.served (by simp [hi])).moves
  | none =>
    cases c with
    | created =>
      have idle : Idle (callers i) := caller.elim Or.inr fun h => Or.inl h.1
      cases hh : l.holder with
      | some id =>
        rw [poll_created_of_held hi hh]
        exact (Move.queues idle hi hh).moves
      | none =>
        rw [poll_created_of_free hi hh]
        have taken := (Move.takes idle hi hh).moves
        have stands : callers.put i (some (.queued l.fresh)) i = some (.queued l.fresh) :=
          Callers.put_self
        have rest := taken.trans (attempt_moves (c := .created) stands hi rfl)
        rwa [Callers.put_put] at rest
    | queued id =>
      have caller : callers i = some (.queued id) := caller.resolve_right fun h => nomatch h.2
      rw [poll_queued hi]
      by_cases hh : l.holder = some id
      · rw [if_pos hh]
        exact attempt_moves caller hi hh
      · rw [if_neg hh]
        have stays : callers.put i (some (.queued id)) = callers := Callers.put_eq_self caller
        change Moves l callers l (callers.put i (some (.queued id))) 0 0
        rw [stays]
        exact .refl l callers
    | attempting n =>
      have caller : callers i = some (.attempting n) := caller.resolve_right fun h => nomatch h.2
      rw [poll_attempting hi]
      exact proceed_moves caller hi .waiting ⟨rfl, rfl⟩

theorem drop_moves (caller : callers i = some c) :
    Moves l callers (l.drop c) (callers.put i none) 0 (underway c) := by
  cases c with
  | created =>
    exact (Move.idles (by rw [caller]; exact Callers.idle_created) Callers.idle_none).moves
  | attempting n => exact (Move.givesUp caller).moves
  | queued id =>
    by_cases held : l.holder = some id
    · rw [drop, if_pos held]
      exact (Move.passes caller held).moves
    · rw [drop, if_neg held]
      exact (Move.leaves caller held).moves

theorem handOver_kept (l : Loading) :
    l.handOver.loader = l.loader ∧ l.handOver.interpreter = l.interpreter ∧
    l.handOver.attempts = l.attempts := by
  unfold handOver
  split <;> exact ⟨rfl, rfl, rfl⟩

theorem attempts_proceed (l : Loading) (n : Nat)
    (waits : Progress Caller (Except RuntimeError Interpreter)) :
    (l.proceed n waits).1.attempts = l.attempts := by
  unfold proceed
  split
  · rfl
  · have used :
        (if l.loader.gated then { l with releases := l.releases - 1 } else l).attempts =
          l.attempts := by
      cases l.loader.gated <;> rfl
    dsimp only
    split
    · exact used
    · exact (handOver_kept _).2.2.trans used

theorem attempts_attempt (l : Loading) : l.attempt.1.attempts = l.attempts + 1 :=
  attempts_proceed _ _ _

theorem proceed_settled {waits : Progress Caller (Except RuntimeError Interpreter)}
    {result : Except RuntimeError Interpreter} (pending : ∀ result, waits ≠ .settled result)
    (h : (l.proceed n waits).2 = .settled result) :
    l.loader.attempt n = result ∧ ∀ it, result = .ok it →
    (l.proceed n waits).1.interpreter = some it := by
  unfold proceed at h ⊢
  by_cases hg : (l.loader.gated && l.releases == 0) = true
  · rw [if_pos hg] at h
    exact absurd h (pending result)
  · rw [if_neg hg] at h ⊢
    obtain ⟨r, hr⟩ : ∃ r, (if l.loader.gated then { l with releases := l.releases - 1 } else l) =
        { l with releases := r } := by
      cases l.loader.gated
      · exact ⟨l.releases, rfl⟩
      · exact ⟨l.releases - 1, rfl⟩
    rw [hr] at h ⊢
    dsimp only at h ⊢
    cases ha : l.loader.attempt n with
    | ok it =>
      rw [ha] at h
      cases h
      refine ⟨rfl, ?_⟩
      rintro it ⟨⟩
      rfl
    | error e =>
      rw [ha] at h
      cases h
      exact ⟨rfl, fun it hi => nomatch hi⟩

theorem poll_settled {result : Except RuntimeError Interpreter}
    (h : (l.poll c).2 = .settled result) :
    (∃ it, l.interpreter = some it ∧ result = .ok it ∧ (l.poll c).1 = l) ∨
      (l.interpreter = none ∧ (∀ it, result = .ok it → (l.poll c).1.interpreter = some it) ∧
        ∃ n, l.loader.attempt n = result ∧
          (c = .attempting n ∨ n = l.attempts ∧ (l.poll c).1.attempts = n + 1)) := by
  cases hi : l.interpreter with
  | some it =>
    rw [poll_of_ready hi] at h ⊢
    cases h
    exact Or.inl ⟨it, rfl, rfl, rfl⟩
  | none =>
    right
    have begun : ∀ {l : Loading}, l.attempt.2 = .settled result →
        (∀ it, result = .ok it → l.attempt.1.interpreter = some it) ∧
        l.loader.attempt l.attempts = result ∧ l.attempt.1.attempts = l.attempts + 1 := by
      intro l h
      obtain ⟨own, interpreter⟩ := proceed_settled (by simp) h
      exact ⟨interpreter, own, l.attempts_attempt⟩
    cases c with
    | created =>
      cases hh : l.holder with
      | some id =>
        rw [poll_created_of_held hi hh] at h
        cases h
      | none =>
        rw [poll_created_of_free hi hh] at h ⊢
        obtain ⟨interpreter, own, attempts⟩ := begun h
        exact ⟨rfl, interpreter, l.attempts, own, Or.inr ⟨rfl, attempts⟩⟩
    | queued id =>
      rw [poll_queued hi] at h ⊢
      by_cases hh : l.holder = some id
      · rw [if_pos hh] at h ⊢
        obtain ⟨interpreter, own, attempts⟩ := begun h
        exact ⟨rfl, interpreter, l.attempts, own, Or.inr ⟨rfl, attempts⟩⟩
      · rw [if_neg hh] at h
        cases h
    | attempting n =>
      rw [poll_attempting hi] at h ⊢
      obtain ⟨own, interpreter⟩ := proceed_settled (by simp) h
      exact ⟨rfl, interpreter, n, own, Or.inl rfl⟩

end Loading
end SourcePreview
