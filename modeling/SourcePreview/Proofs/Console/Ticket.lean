import SourcePreview.Console.Coordinator

/-! Tickets in use: each was given out before, and no answer waits under the ticket of the pending
request. Every operation of a coordinator keeps this, so a request that is answered is a request
that is no longer pending. -/

namespace SourcePreview.Coordinator

structure Sound (c : Coordinator) : Prop where
  answered : ∀ a ∈ c.answers, a.1 < c.fresh
  pending : ∀ r, c.pending = some r → r.ticket < c.fresh
  unanswered : ∀ r, c.pending = some r → ∀ a ∈ c.answers, a.1 ≠ r.ticket

variable {c : Coordinator} {r : Request} {ticket : Ticket} {answer : Text}

theorem sound_idle : Sound idle := ⟨by simp [idle], by simp [idle], by simp [idle]⟩

def awaiting (c : Coordinator) (prompt : Text) : Coordinator :=
  { c with pending := some ⟨c.fresh, prompt, true⟩, watched := some prompt, fresh := c.fresh + 1 }

theorem request_of_idle (h : c.pending = none) (prompt : Text) :
    c.request prompt = .ok (c.fresh, c.awaiting prompt) := by
  simp [request, h, awaiting]

theorem Sound.awaiting (h : c.Sound) (prompt : Text) : (c.awaiting prompt).Sound := by
  refine ⟨fun a ha => Nat.lt_succ_of_lt (h.answered a ha), ?_, ?_⟩
  · rintro r ⟨⟩
    exact Nat.lt_succ_self _
  · rintro r ⟨⟩ a ha
    exact Nat.ne_of_lt (h.answered a ha)

theorem Sound.resolve (h : c.Sound) (hr : c.pending = some r) (answer : Text) :
    (c.resolve r answer).Sound := by
  refine ⟨fun a ha => ?_, by simp, by simp⟩
  simp only [Coordinator.resolve] at ha
  split at ha
  · rcases List.mem_cons.1 ha with rfl | ha
    · exact h.pending r hr
    · exact h.answered a ha
  · exact h.answered a ha

theorem submit_cases (c : Coordinator) (text : Text) :
    (c.submit text).2 = c ∨ ∃ r, c.pending = some r ∧
    (c.submit text).2 = c.resolve r (Text.trim text) := by
  unfold submit
  split
  · exact Or.inl rfl
  · next r hr =>
    dsimp only
    split
    · exact Or.inl rfl
    · exact Or.inr ⟨r, hr, rfl⟩

theorem cancel_cases (c : Coordinator) :
    c.cancel = c ∨ ∃ r, c.pending = some r ∧ c.cancel = c.resolve r [] := by
  unfold cancel
  split
  · exact Or.inl rfl
  · next r hr => exact Or.inr ⟨r, hr, rfl⟩

theorem Sound.submit (h : c.Sound) (text : Text) : (c.submit text).2.Sound := by
  rcases submit_cases c text with he | ⟨r, hr, he⟩
  · rwa [he]
  · rw [he]; exact h.resolve hr _

theorem Sound.cancel (h : c.Sound) : c.cancel.Sound := by
  rcases cancel_cases c with he | ⟨r, hr, he⟩
  · rwa [he]
  · rw [he]; exact h.resolve hr _

theorem Sound.abandon (h : c.Sound) (ticket : Ticket) : (c.abandon ticket).Sound := by
  -- the request keeps its ticket when it is no longer attended
  have key : ∀ r, (c.abandon ticket).pending = some r → ∃ r', c.pending = some r' ∧
      r'.ticket = r.ticket := by
    intro r hr
    obtain ⟨r', hr', rfl⟩ := Option.map_eq_some_iff.1 hr
    exact ⟨r', hr', by split <;> rfl⟩
  refine ⟨fun a ha => h.answered a (List.mem_filter.1 ha).1, fun r hr => ?_, fun r hr a ha => ?_⟩
  · obtain ⟨r', hr', ht⟩ := key r hr
    exact ht ▸ h.pending r' hr'
  · obtain ⟨r', hr', ht⟩ := key r hr
    exact ht ▸ h.unanswered r' hr' a (List.mem_filter.1 ha).1

theorem Sound.ticket_ne (h : c.Sound) (ha : c.answer? ticket = some answer)
    (hr : c.pending = some r) :
    r.ticket ≠ ticket := by
  obtain ⟨as, bs, hc, -⟩ := List.lookup_eq_some_iff.1 ha
  exact fun he => h.unanswered r hr (ticket, answer) (by simp [hc]) he.symm

end SourcePreview.Coordinator
