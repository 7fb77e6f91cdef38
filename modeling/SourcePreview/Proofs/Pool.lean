import SourcePreview.Pool

/-! The places of a pool. A task keeps its place and a place its number, whatever happens in the
other ones: what is read behind a task that was put or added is what was put there, or what was
there before. -/

namespace SourcePreview

namespace Progress

variable {τ ρ : Type}

def rest (task : τ) : Progress τ ρ → Option τ
  | waiting => some task
  | moved task => some task
  | settled _ => none

def result? : Progress τ ρ → Option ρ
  | settled result => some result
  | _ => none

def map {τ' ρ' : Type} (f : τ → τ') (g : ρ → ρ') : Progress τ ρ → Progress τ' ρ'
  | waiting => waiting
  | moved task => moved (f task)
  | settled result => settled (g result)

end Progress

namespace Pool

variable {τ : Type} {pool : Pool τ} {i j : Nat}

def task? (pool : Pool τ) (i : Nat) : Option τ := pool[i]?.join

theorem lt_of_task? (h : pool.task? i ≠ none) : i < pool.length := by
  apply Nat.lt_of_not_le
  intro hi
  apply h
  rw [task?, List.getElem?_eq_none hi]
  rfl

theorem task?_set_self (h : pool.task? i ≠ none) (task : Option τ) :
    task? (pool.set i task) i = task := by
  simp [task?, List.getElem?_set_self (lt_of_task? h)]

theorem task?_set_of_ne (h : j ≠ i) (task : Option τ) :
    task? (pool.set i task) j = pool.task? j := by
  simp [task?, List.getElem?_set_ne h.symm]

theorem task?_concat_of_lt (h : i < pool.length) (task : τ) :
    task? (pool ++ [some task]) i = pool.task? i := by
  simp [task?, List.getElem?_append_left h]

theorem task?_concat_length (task : τ) : task? (pool ++ [some task]) pool.length = some task := by
  simp [task?]

theorem task?_concat (pool : Pool τ) (task : τ) (i : Nat) :
    task? (pool ++ [some task]) i = pool.task? i ∨
    i = pool.length ∧ task? (pool ++ [some task]) i = some task := by
  rcases Nat.lt_trichotomy i pool.length with h | rfl | h
  · exact Or.inl (task?_concat_of_lt h task)
  · exact Or.inr ⟨rfl, task?_concat_length task⟩
  · left
    unfold task?
    rw [List.getElem?_eq_none (by rw [List.length_append]; exact h),
      List.getElem?_eq_none (by omega)]

theorem take?_eq (pool : Pool τ) (i : Nat) :
    pool.take? i = (pool.task? i).map fun task => (task, pool.set i none) := rfl

end Pool

end SourcePreview
