import SourcePreview.Proofs.Session.Event

/-! Settling the calls of a session is polling them one by one: what is true of every history of
events is true of the states that passes over the calls go through, and a pass replies what the
single polls do (`settle_eq_after`). -/

namespace SourcePreview.SessionCalls

/-- What calls settle with when they are polled in turn, each with its number. -/
def replies (s : SessionCalls) : List Nat → List (Nat × Reply)
  | [] => []
  | i :: is => ((s.reply? i).map (i, ·)).toList ++ (s.poll i).replies is

def polled (s : SessionCalls) (is : List Nat) : SessionCalls := s.after (is.map .poll)

theorem polled_append (s : SessionCalls) (is js : List Nat) :
    s.polled (is ++ js) = (s.polled is).polled js := by
  rw [polled, List.map_append, after_append]
  rfl

theorem replies_append (s : SessionCalls) (is js : List Nat) :
    s.replies (is ++ js) = s.replies is ++ (s.polled is).replies js := by
  induction is generalizing s with
  | nil => rfl
  | cons i is ih =>
    rw [List.cons_append, replies, replies, ih, List.append_assoc]
    rfl

/-- A sweep over calls does what polls of them in turn do; the calls in front of them stay. -/
structure Sweeps (s : SessionCalls) (front : Pool SessionCall)
    (sweep : Pool.Sweep Session SessionCall Reply) (is : List Nat) : Prop where
  state : (⟨sweep.state, front ++ sweep.pool⟩ : SessionCalls) = s.polled is
  settled : sweep.settled = s.replies is

variable {front rest : Pool SessionCall} {session : Session}

theorem call?_mid (call : Option SessionCall) :
    call? ⟨session, front ++ call :: rest⟩ front.length = call := by
  rw [call?, List.getElem?_append_right (Nat.le_refl _), Nat.sub_self]
  rfl

theorem put_mid (call call' : Option SessionCall) (session' : Session) :
    put ⟨session, front ++ call :: rest⟩ session' front.length call' =
      ⟨session', front ++ call' :: rest⟩ := by
  rw [put, List.set_append_right _ _ (Nat.le_refl _), Nat.sub_self]
  rfl

theorem Sweeps.cons {call call' : Option SessionCall} {r : Pool.Sweep Session SessionCall Reply}
    {session' : Session} {is : List Nat} (now : List (Nat × Reply)) (progressed : Bool)
    (hp : poll ⟨session, front ++ call :: rest⟩ front.length = ⟨session', front ++ call' :: rest⟩)
    (hs : now = ((reply? ⟨session, front ++ call :: rest⟩ front.length).map (front.length,
      ·)).toList)
    (h : Sweeps ⟨session', front ++ call' :: rest⟩ (front ++ [call']) r is) :
    Sweeps ⟨session, front ++ call :: rest⟩ front ⟨r.state, call' :: r.pool, now ++ r.settled,
        progressed⟩
      (front.length :: is) := by
  refine ⟨?_, ?_⟩
  · rw [List.append_cons]
    refine h.state.trans ?_
    rw [← hp]
    rfl
  · rw [replies, hp, ← hs, ← h.settled]

theorem sweeps_pass (session : Session) (front rest : Pool SessionCall) :
    ∃ is, Sweeps ⟨session, front ++ rest⟩ front (Pool.pass Session.poll session front.length rest)
      is ∧
      ∀ i, front.length ≤ i → call? ⟨session, front ++ rest⟩ i ≠ none → i ∈ is := by
  induction rest generalizing session front with
  | nil =>
    refine ⟨[], ⟨rfl, rfl⟩, fun i outside present => absurd (lt_of_call? present) ?_⟩
    simpa using outside
  | cons call rest ih =>
    have next : ∀ session' call', ∃ is, Sweeps ⟨session', front ++ call' :: rest⟩ (front ++ [call'])
        (Pool.pass Session.poll session' (front.length + 1) rest) is ∧
          ∀ i, front.length ≤ i → call? ⟨session, front ++ call :: rest⟩ i ≠ none →
            i ∈ front.length :: is := by
      intro session' call'
      obtain ⟨is, h, covers⟩ := ih session' (front ++ [call'])
      rw [List.length_append, ← List.append_cons] at h covers
      refine ⟨is, h, fun i inside present => ?_⟩
      rcases Nat.eq_or_lt_of_le inside with rfl | behind
      · exact List.mem_cons_self
      · have same : (put ⟨session, front ++ call :: rest⟩ session' front.length call').call? i =
            call? ⟨session, front ++ call :: rest⟩ i := call?_put_of_ne (Nat.ne_of_gt behind)
        rw [put_mid] at same
        apply List.mem_cons_of_mem
        apply covers i behind
        rw [same]
        exact present
    cases call with
    | none =>
      obtain ⟨is, h, covers⟩ := next session none
      refine ⟨_, Sweeps.cons [] _ ?_ ?_ h, covers⟩
      · rw [poll, call?_mid]
      · rw [reply?, call?_mid]
        rfl
    | some call =>
      rw [Pool.pass]
      have hp : poll ⟨session, front ++ some call :: rest⟩ front.length =
          ⟨(session.poll call).1, front ++ (session.poll call).2.rest call :: rest⟩ := by
        rw [poll, call?_mid]
        exact put_mid ..
      have hs : reply? ⟨session, front ++ some call :: rest⟩ front.length =
          (session.poll call).2.result? := by
        rw [reply?, call?_mid, Option.bind_some]
      generalize session.poll call = polled at hp hs
      obtain ⟨session', progress⟩ := polled
      obtain ⟨is, h, covers⟩ := next session' (progress.rest call)
      refine ⟨front.length :: is, ?_, covers⟩
      cases progress with
      | waiting => exact Sweeps.cons [] _ hp (by rw [hs]; rfl) h
      | moved task => exact Sweeps.cons [] _ hp (by rw [hs]; rfl) h
      | settled result => exact Sweeps.cons [(front.length, result)] _ hp (by rw [hs]; rfl) h

theorem sweeps_passes (rounds : Nat) (session : Session) (calls : Pool SessionCall) :
    ∃ is, Sweeps ⟨session, calls⟩ [] (Pool.passes Session.poll rounds session calls) is ∧
      (0 < rounds → ∀ i, call? ⟨session, calls⟩ i ≠ none → i ∈ is) := by
  induction rounds generalizing session calls with
  | zero => exact ⟨[], ⟨rfl, rfl⟩, fun h => absurd h (Nat.lt_irrefl 0)⟩
  | succ rounds ih =>
    obtain ⟨is, h, covers⟩ :
        ∃ is, Sweeps ⟨session, calls⟩ [] (Pool.pass Session.poll session 0 calls) is ∧
        ∀ i, 0 ≤ i → call? ⟨session, calls⟩ i ≠ none → i ∈ is :=
      sweeps_pass session [] calls
    have covers : ∀ i, call? ⟨session, calls⟩ i ≠ none → i ∈ is := fun i => covers i (Nat.zero_le i)
    rw [Pool.passes]
    generalize Pool.pass Session.poll session 0 calls = first at h
    split
    · obtain ⟨js, h', -⟩ := ih first.state first.pool
      have hs : ⟨first.state, first.pool⟩ = polled ⟨session, calls⟩ is := h.state
      rw [hs] at h'
      refine ⟨is ++ js, ⟨?_, ?_⟩, fun _ i present => List.mem_append_left js (covers i present)⟩
      · rw [polled_append]
        exact h'.state
      · rw [replies_append, ← h.settled, ← h'.settled]
    · exact ⟨is, h, fun _ => covers⟩

/-- Settling the calls is polling them in some order, each open one at least once. -/
theorem settle_eq_after (s : SessionCalls) :
    ∃ is, s.settle.1 = s.polled is ∧ s.settle.2 = s.replies is ∧ ∀ i, s.call? i ≠ none →
      i ∈ is := by
  obtain ⟨is, h, covers⟩ := sweeps_passes (2 * s.calls.length + 2) s.session s.calls
  exact ⟨is, h.state, h.settled, covers (Nat.succ_pos _)⟩

end SourcePreview.SessionCalls
