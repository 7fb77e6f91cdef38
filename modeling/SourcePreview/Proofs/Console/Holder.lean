import SourcePreview.Proofs.Console.Ticket

/-! Who holds which ticket. A holder is one who asked and still waits: no ticket has two holders,
the pending request is attended as long as its ticket has one, and a ticket that is held is pending
or has its answer waiting. Each operation of a coordinator keeps this, with one holder more for a
request and one less for a ticket that is given up. -/

namespace SourcePreview.Coordinator

/-- The tickets in use, with the numbers of those who hold them. -/
structure Serves (c : Coordinator) (holds : Nat → Ticket → Prop) : Prop where
  sound : c.Sound
  given : ∀ i k, holds i k → k < c.fresh
  apart : ∀ i j k, holds i k → holds j k → i = j
  attended : ∀ r, c.pending = some r → (r.attended = true ↔ ∃ i, holds i r.ticket)
  owed : ∀ i k, holds i k → (∃ r, c.pending = some r ∧ r.ticket = k) ∨
      ∃ answer, c.answer? k = some answer
  watched : c.watched = c.prompt?

variable {c : Coordinator} {holds holds' : Nat → Ticket → Prop} {r : Request} {ticket k : Ticket}
  {answer : Text}

theorem serves_idle : Serves idle fun _ _ => False :=
  ⟨sound_idle, by simp, by simp, by simp [idle], by simp, rfl⟩

theorem answer?_resolve_self (ha : r.attended = true) :
    (c.resolve r answer).answer? r.ticket = some answer := by
  simp [answer?, resolve, ha]

theorem answer?_resolve_of_ne (hk : k ≠ r.ticket) :
    (c.resolve r answer).answer? k = c.answer? k := by
  have hb : (k == r.ticket) = false := by simpa using hk
  unfold answer? resolve
  dsimp only
  split
  · simp [List.lookup_cons, hb]
  · rfl

theorem answer?_abandon_of_ne (hk : k ≠ ticket) : (c.abandon ticket).answer? k = c.answer? k := by
  unfold answer? abandon
  dsimp only
  induction c.answers with
  | nil => rfl
  | cons a as ih =>
    obtain ⟨key, text⟩ := a
    by_cases ha : key = ticket
    · have hb : (k == ticket) = false := by simpa using hk
      simp [List.lookup_cons, ih, ha, hb]
    · rw [List.filter_cons_of_pos (by simpa using ha), List.lookup_cons, List.lookup_cons, ih]

theorem Serves.awaiting (h : c.Serves holds) (hc : c.pending = none) (prompt : Text) {i : Nat}
    (he : ∀ j k, holds' j k ↔ holds j k ∨ j = i ∧ k = c.fresh) :
    (c.awaiting prompt).Serves holds' := by
  have old : ∀ {j k}, holds j k → k ≠ c.fresh := fun hj => Nat.ne_of_lt (h.given _ _ hj)
  refine ⟨h.sound.awaiting prompt, ?_, ?_, ?_, ?_, rfl⟩
  · intro j k hj
    rcases (he j k).1 hj with hj | ⟨-, rfl⟩
    · exact Nat.lt_succ_of_lt (h.given j k hj)
    · exact Nat.lt_succ_self _
  · intro j l k hj hl
    rcases (he j k).1 hj with hj | ⟨rfl, hk⟩
    · rcases (he l k).1 hl with hl | ⟨-, rfl⟩
      · exact h.apart j l k hj hl
      · exact absurd rfl (old hj)
    · rcases (he l k).1 hl with hl | ⟨rfl, -⟩
      · exact absurd hk (old hl)
      · rfl
  · rintro r ⟨⟩
    exact iff_of_true rfl ⟨i, (he i _).2 (Or.inr ⟨rfl, rfl⟩)⟩
  · intro j k hj
    rcases (he j k).1 hj with hj | ⟨-, rfl⟩
    · rcases h.owed j k hj with ⟨r, hr, -⟩ | ha
      · rw [hc] at hr
        cases hr
      · exact Or.inr ha
    · exact Or.inl ⟨_, rfl, rfl⟩

theorem Serves.resolve (h : c.Serves holds) (hr : c.pending = some r) (answer : Text) :
    (c.resolve r answer).Serves holds := by
  refine ⟨h.sound.resolve hr answer, h.given, h.apart, by simp, ?_, rfl⟩
  intro i k hi
  right
  by_cases hk : k = r.ticket
  · subst hk
    exact ⟨answer, answer?_resolve_self ((h.attended r hr).2 ⟨i, hi⟩)⟩
  · rw [answer?_resolve_of_ne hk]
    rcases h.owed i k hi with ⟨r', hr', rfl⟩ | ha
    · rw [hr] at hr'
      exact absurd (congrArg Request.ticket (Option.some.inj hr')).symm hk
    · exact ha

theorem Serves.abandon (h : c.Serves holds) {i : Nat} (hi : holds i ticket)
    (he : ∀ j k, holds' j k ↔ holds j k ∧ j ≠ i) (alone : ∀ k, holds i k → k = ticket) :
    (c.abandon ticket).Serves holds' := by
  have kept : ∀ {j k}, holds' j k → k ≠ ticket := by
    rintro j k hj rfl
    exact ((he j k).1 hj).2 (h.apart j i k ((he j k).1 hj).1 hi)
  refine ⟨h.sound.abandon ticket, ?_, ?_, ?_, ?_, ?_⟩
  · intro j k hj
    exact h.given j k ((he j k).1 hj).1
  · intro j l k hj hl
    exact h.apart j l k ((he j k).1 hj).1 ((he l k).1 hl).1
  · intro r' hr'
    obtain ⟨r, hr, rfl⟩ := Option.map_eq_some_iff.1 hr'
    by_cases ht : r.ticket = ticket
    · rw [if_pos ht]
      refine iff_of_false Bool.false_ne_true ?_
      rintro ⟨j, hj⟩
      exact kept hj ht
    · rw [if_neg ht, h.attended r hr]
      constructor
      · rintro ⟨j, hj⟩
        refine ⟨j, (he j _).2 ⟨hj, ?_⟩⟩
        rintro rfl
        exact ht (alone _ hj)
      · rintro ⟨j, hj⟩
        exact ⟨j, ((he j _).1 hj).1⟩
  · intro j k hj
    rcases h.owed j k ((he j k).1 hj).1 with ⟨r, hr, rfl⟩ | ⟨answer, ha⟩
    · exact Or.inl ⟨r, by simp [Coordinator.abandon, hr, kept hj], rfl⟩
    · exact Or.inr ⟨answer, by rw [answer?_abandon_of_ne (kept hj), ha]⟩
  · rw [prompt?_abandon, ← h.watched]
    rfl

theorem submit_eq_ok_iff (text : Text) :
    (c.submit text).1 = .ok () ↔ (∃ r, c.pending = some r ∧ r.attended = true) ∧
    Text.trim text ≠ [] := by
  unfold submit
  cases hc : c.pending with
  | none => simp
  | some r =>
    by_cases ht : Text.trim text = []
    · simp [ht]
    · cases ha : r.attended <;> simp [ht, ha]

theorem submit_of_idle (hc : c.pending = none) (text : Text) :
    c.submit text = (.error .notAwaiting, c) := by
  rw [submit, hc]

theorem submit_of_blank {text : Text} (hc : c.pending ≠ none) (ht : Text.trim text = []) :
    c.submit text = (.error .emptySubmission, c) := by
  obtain ⟨r, hr⟩ := Option.ne_none_iff_exists'.1 hc
  rw [submit, hr]
  simp [ht]

/-- A submission that is not blank resolves the pending request, and is refused when nobody waits
for it. -/
theorem submit_of_filled {text : Text} (hr : c.pending = some r) (ht : Text.trim text ≠ []) :
    c.submit text = (if r.attended then .ok () else .error .notAwaiting,
      c.resolve r (Text.trim text)) := by
  rw [submit, hr]
  simp [ht]

end SourcePreview.Coordinator
