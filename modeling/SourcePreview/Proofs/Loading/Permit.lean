import SourcePreview.Proofs.Loading.Moves

/-! Who stands in line for an attempt. Each place in the line has one caller, the first of them
holds the attempt, and nobody else has one under way; the line is empty once the interpreter is
there (`Fair`). An attempt ends with the interpreter, with a failure, or by being given up, so the
attempts are counted by how they ended (`Counted`). -/

namespace SourcePreview

def Callers.Attempting (callers : Callers) : Prop := ∃ i n, callers i = some (.attempting n)

open Callers (Idle)

namespace Loading

def line (l : Loading) : List CallerId := l.holder.toList ++ l.queue

/-- A caller stands in line under a number, or has the attempt of the holder under way. -/
def Stands (l : Loading) (callers : Callers) (i : Nat) (id : CallerId) : Prop :=
  callers i = some (.queued id) ∨ (∃ n, callers i = some (.attempting n)) ∧ l.holder = some id

structure Fair (l : Loading) (callers : Callers) : Prop where
  vacant : l.holder = none → l.queue = []
  nodup : l.line.Nodup
  below : ∀ id ∈ l.line, id < l.fresh
  known : ∀ i id, callers i = some (.queued id) → id < l.fresh
  own : ∀ i j id, l.Stands callers i id → l.Stands callers j id → i = j
  manned : ∀ id ∈ l.line, ∃ i, l.Stands callers i id
  placed : l.interpreter = none → ∀ i id, callers i = some (.queued id) → id ∈ l.line
  attempted : ∀ i n, callers i = some (.attempting n) → l.holder ≠ none ∧ n + 1 = l.attempts
  ready : l.interpreter ≠ none → l.line = []

variable {l l' : Loading} {callers callers' : Callers} {failed given failed' given' i j n : Nat}
  {id : CallerId} {c : Option Caller}

theorem mem_line_of_holder (h : l.holder = some id) : id ∈ l.line := by
  rw [line, h]
  exact List.mem_cons_self

theorem line_of_holder (h : l.holder = some id) : l.line = id :: l.queue := by
  rw [line, h]
  rfl

theorem line_handOver (h : l.holder = some id) : l.handOver.line = l.line.tail := by
  rw [line_of_holder h, handOver]
  split
  · next hq =>
    rw [List.tail_cons, hq]
    rfl
  · next next rest hq =>
    rw [List.tail_cons, hq]
    rfl

theorem stands_put_of_ne (hj : j ≠ i) (holder : l'.holder = l.holder) :
    l'.Stands (callers.put i c) j id ↔ l.Stands callers j id := by
  unfold Stands
  rw [Callers.put_of_ne hj, holder]

theorem Stands.ne_of_idle (h : l.Stands callers j id) (idle : Idle (callers i)) : j ≠ i := by
  rintro rfl
  rcases h with h | ⟨⟨n, h⟩, -⟩
  · exact idle.ne_queued id h
  · exact idle.ne_attempting n h

namespace Fair

theorem holder_eq_none (h : l.Fair callers) (ready : l.interpreter ≠ none) : l.holder = none := by
  cases hh : l.holder with
  | none => rfl
  | some id =>
    have empty := h.ready ready
    rw [line_of_holder hh] at empty
    cases empty

theorem unready (h : l.Fair callers) (caller : callers i = some (.attempting n)) :
    l.interpreter = none := by
  apply Classical.byContradiction
  intro ready
  exact (h.attempted i n caller).1 (h.holder_eq_none ready)

theorem single (h : l.Fair callers) {m : Nat} (hi : callers i = some (.attempting m))
    (hj : callers j = some (.attempting n)) :
    i = j := by
  obtain ⟨id, hh⟩ := Option.ne_none_iff_exists'.1 (h.attempted i m hi).1
  exact h.own i j id (Or.inr ⟨⟨m, hi⟩, hh⟩) (Or.inr ⟨⟨n, hj⟩, hh⟩)

theorem not_attempting (h : l.Fair callers) (caller : callers i = some (.queued id))
    (held : l.holder = some id) :
    ¬ callers.Attempting := by
  rintro ⟨j, n, hj⟩
  obtain rfl := h.own i j id (Or.inl caller) (Or.inr ⟨⟨n, hj⟩, held⟩)
  rw [caller] at hj
  cases hj

theorem lt_of_stands (h : l.Fair callers) (stands : l.Stands callers i id) : id < l.fresh := by
  rcases stands with caller | ⟨-, held⟩
  · exact h.known i id caller
  · exact h.below id (mem_line_of_holder held)

theorem shrinks (h : l.Fair callers) (fresh : l'.fresh = l.fresh) (line : l'.line.Sublist l.line)
    (stands : ∀ {j k}, l'.Stands callers' j k → l.Stands callers j k)
    (vacant : l'.holder = none → l'.queue = [])
    (manned : ∀ k ∈ l'.line, ∃ j, l'.Stands callers' j k)
    (placed : l'.interpreter = none → ∀ j k, callers' j = some (.queued k) → k ∈ l'.line)
    (attempted : ∀ j n, callers' j = some (.attempting n) → l'.holder ≠ none ∧ n + 1 = l'.attempts)
    (ready : l'.interpreter ≠ none → l'.line = []) : l'.Fair callers' := by
  refine ⟨vacant, h.nodup.sublist line, ?_, ?_, ?_, manned, placed, attempted, ready⟩
  · intro k hk
    rw [fresh]
    exact h.below k (line.subset hk)
  · intro j k hj
    rw [fresh]
    exact h.lt_of_stands (stands (Or.inl hj))
  · intro i j k hi hj
    exact h.own i j k (stands hi) (stands hj)

theorem idles (h : l.Fair callers) (before : Idle (callers i) ∨ l.interpreter ≠ none)
    (behind : Idle c) :
    l.Fair (callers.put i c) := by
  have queued :
      ∀ {j id}, callers.put i c j = some (.queued id) → callers j = some (.queued id) := by
    intro j id hj
    rcases Callers.put_eq_some_iff.1 hj with ⟨-, hc⟩ | ⟨-, hj⟩
    · exact absurd hc (behind.ne_queued id)
    · exact hj
  have attempting :
      ∀ {j n}, callers.put i c j = some (.attempting n) → callers j = some (.attempting n) := by
    intro j n hj
    rcases Callers.put_eq_some_iff.1 hj with ⟨-, hc⟩ | ⟨-, hj⟩
    · exact absurd hc (behind.ne_attempting n)
    · exact hj
  have stands : ∀ {j id}, l.Stands (callers.put i c) j id → l.Stands callers j id := by
    rintro j id (hj | ⟨⟨n, hj⟩, hh⟩)
    · exact Or.inl (queued hj)
    · exact Or.inr ⟨⟨n, attempting hj⟩, hh⟩
  refine h.shrinks rfl (List.Sublist.refl _) stands h.vacant ?_ ?_ ?_ h.ready
  · intro id hid
    rcases before with before | before
    · obtain ⟨j, hj⟩ := h.manned id hid
      exact ⟨j, (stands_put_of_ne (hj.ne_of_idle before) rfl).2 hj⟩
    · rw [h.ready before] at hid
      cases hid
  · intro unready j id hj
    exact h.placed unready j id (queued hj)
  · intro j n hj
    exact h.attempted j n (attempting hj)

theorem joins (h : l.Fair callers) (idle : Idle (callers i)) (unready : l.interpreter = none)
    (kept : l'.interpreter = l.interpreter ∧ l'.attempts = l.attempts ∧ l'.fresh = l.fresh + 1)
    (line : l'.line = l.line ++ [l.fresh]) (vacant : l'.holder ≠ none)
    (holder : l.holder ≠ none → l'.holder = l.holder) :
    l'.Fair (callers.put i (some (.queued l.fresh))) := by
  obtain ⟨interpreter, attempts, fresh⟩ := kept
  have new : l.fresh ∉ l.line := fun hm => Nat.lt_irrefl _ (h.below _ hm)
  have member : ∀ id, id ∈ l'.line ↔ id ∈ l.line ∨ id = l.fresh := by
    intro id
    rw [line, List.mem_append, List.mem_singleton]
  have queued : ∀ {j id}, callers.put i (some (.queued l.fresh)) j = some (.queued id) →
      j = i ∧ id = l.fresh ∨ id < l.fresh ∧ callers j = some (.queued id) := by
    intro j id hj
    rcases Callers.put_eq_some_iff.1 hj with ⟨rfl, hc⟩ | ⟨-, hj⟩
    · cases hc
      exact Or.inl ⟨rfl, rfl⟩
    · exact Or.inr ⟨h.known j id hj, hj⟩
  have attempting : ∀ {j n}, callers.put i (some (.queued l.fresh)) j = some (.attempting n) →
      callers j = some (.attempting n) := by
    intro j n hj
    rcases Callers.put_eq_some_iff.1 hj with ⟨-, hc⟩ | ⟨-, hj⟩
    · cases hc
    · exact hj
  have stands : ∀ {j id}, l'.Stands (callers.put i (some (.queued l.fresh))) j id →
      j = i ∧ id = l.fresh ∨ id < l.fresh ∧ l.Stands callers j id := by
    rintro j id (hj | ⟨⟨n, hj⟩, hh⟩)
    · exact (queued hj).imp_right fun hj => ⟨hj.1, Or.inl hj.2⟩
    · have hj := attempting hj
      rw [holder (h.attempted j n hj).1] at hh
      exact Or.inr ⟨h.below id (mem_line_of_holder hh), Or.inr ⟨⟨n, hj⟩, hh⟩⟩
  refine ⟨fun hn => absurd hn vacant, ?_, ?_, ?_, ?_, ?_, ?_, ?_, ?_⟩
  · rw [line, List.nodup_append]
    refine ⟨h.nodup, by simp, ?_⟩
    rintro a ha b hb rfl
    rw [List.mem_singleton] at hb
    exact new (hb ▸ ha)
  · intro id hid
    rw [fresh]
    rcases (member id).1 hid with hid | rfl
    · exact Nat.lt_succ_of_lt (h.below id hid)
    · exact Nat.lt_succ_self _
  · intro j id hj
    rw [fresh]
    rcases queued hj with ⟨-, rfl⟩ | ⟨hlt, -⟩
    · exact Nat.lt_succ_self _
    · exact Nat.lt_succ_of_lt hlt
  · intro j k id hj hk
    rcases stands hj with ⟨rfl, rfl⟩ | ⟨hlt, hj⟩
    · rcases stands hk with ⟨rfl, -⟩ | ⟨hlt, -⟩
      · rfl
      · exact absurd hlt (Nat.lt_irrefl _)
    · rcases stands hk with ⟨-, rfl⟩ | ⟨-, hk⟩
      · exact absurd hlt (Nat.lt_irrefl _)
      · exact h.own j k id hj hk
  · intro id hid
    rcases (member id).1 hid with hid | rfl
    · obtain ⟨j, hj⟩ := h.manned id hid
      have hne := hj.ne_of_idle idle
      refine ⟨j, ?_⟩
      rcases hj with hj | ⟨⟨n, hj⟩, hh⟩
      · exact Or.inl (by rw [Callers.put_of_ne hne, hj])
      · exact Or.inr ⟨⟨n, by rw [Callers.put_of_ne hne, hj]⟩,
          by rw [holder (h.attempted j n hj).1, hh]⟩
    · exact ⟨i, Or.inl Callers.put_self⟩
  · intro _ j id hj
    rw [member]
    rcases queued hj with ⟨-, rfl⟩ | ⟨-, hj⟩
    · exact Or.inr rfl
    · exact Or.inl (h.placed unready j id hj)
  · intro j n hj
    rw [attempts]
    exact ⟨vacant, (h.attempted j n (attempting hj)).2⟩
  · intro ready
    rw [interpreter] at ready
    exact absurd unready ready

theorem begins (h : l.Fair callers) (caller : callers i = some (.queued id))
    (held : l.holder = some id) (unready : l.interpreter = none) :
    Fair { l with attempts := l.attempts + 1 } (callers.put i (some (.attempting l.attempts))) := by
  have none := h.not_attempting caller held
  have queued : ∀ {j k}, callers.put i (some (.attempting l.attempts)) j = some (.queued k) →
      callers j = some (.queued k) := by
    intro j k hj
    rcases Callers.put_eq_some_iff.1 hj with ⟨-, hc⟩ | ⟨-, hj⟩
    · cases hc
    · exact hj
  have attempting :
      ∀ {j n}, callers.put i (some (.attempting l.attempts)) j = some (.attempting n) →
      j = i ∧ n = l.attempts := by
    intro j n hj
    rcases Callers.put_eq_some_iff.1 hj with ⟨rfl, hc⟩ | ⟨-, hj⟩
    · cases hc
      exact ⟨rfl, rfl⟩
    · exact absurd ⟨j, n, hj⟩ none
  have stands :
      ∀ {j k}, Stands { l with attempts := l.attempts + 1 }
      (callers.put i (some (.attempting l.attempts))) j k →
      l.Stands callers j k := by
    rintro j k (hj | ⟨⟨n, hj⟩, hh⟩)
    · exact Or.inl (queued hj)
    · obtain ⟨rfl, -⟩ := attempting hj
      obtain rfl : id = k := Option.some.inj (held.symm.trans hh)
      exact Or.inl caller
  refine h.shrinks rfl (List.Sublist.refl _) stands h.vacant ?_ ?_ ?_ fun ready =>
    absurd unready ready
  · intro k hk
    obtain ⟨j, hj⟩ := h.manned k hk
    refine ⟨j, ?_⟩
    rcases hj with hj | ⟨⟨n, hj⟩, -⟩
    · by_cases hi : j = i
      · subst hi
        rw [caller] at hj
        cases hj
        exact Or.inr ⟨⟨_, Callers.put_self⟩, held⟩
      · exact Or.inl (by rw [Callers.put_of_ne hi, hj])
    · exact absurd ⟨j, n, hj⟩ none
  · intro _ j k hj
    exact h.placed unready j k (queued hj)
  · intro j n hj
    obtain ⟨-, rfl⟩ := attempting hj
    exact ⟨by rw [held]; exact Option.some_ne_none id, rfl⟩

theorem handOver (h : l.Fair callers) (stands : l.Stands callers i id) (held : l.holder = some id) :
    l.handOver.Fair (callers.put i none) := by
  -- nobody else has the attempt of the holder under way
  have queued : ∀ {j k}, l.Stands callers j k → j ≠ i → callers j = some (.queued k) := by
    rintro j k (hj | ⟨hn, hh⟩) hne
    · exact hj
    · obtain rfl : id = k := Option.some.inj (held.symm.trans hh)
      exact absurd (h.own j i id (Or.inr ⟨hn, hh⟩) stands) hne
  have attempting : ∀ {j n}, callers.put i none j ≠ some (.attempting n) := by
    intro j n hj
    obtain ⟨hne, hj⟩ := Callers.of_put_none hj
    exact hne (h.own j i id (Or.inr ⟨⟨n, hj⟩, held⟩) stands)
  have line := line_handOver held
  have rest : l.line = id :: l.handOver.line := by
    rw [line, line_of_holder held]
    rfl
  have nodup := h.nodup
  rw [rest, List.nodup_cons] at nodup
  have kept : l.handOver.fresh = l.fresh ∧ l.handOver.interpreter = l.interpreter ∧
      (l.handOver.holder = none → l.handOver.queue = []) := by
    unfold Loading.handOver
    split
    · next hq => exact ⟨rfl, rfl, fun _ => hq⟩
    · exact ⟨rfl, rfl, fun hn => nomatch hn⟩
  have stood : ∀ {j k}, l.handOver.Stands (callers.put i none) j k → l.Stands callers j k := by
    rintro j k (hj | ⟨⟨n, hj⟩, -⟩)
    · exact Or.inl (Callers.of_put_none hj).2
    · exact absurd hj attempting
  refine h.shrinks kept.1 (line ▸ List.tail_sublist _) stood kept.2.2 ?_ ?_ ?_ ?_
  · intro k hk
    obtain ⟨j, hj⟩ := h.manned k (by rw [rest]; exact List.mem_cons_of_mem id hk)
    have hne : j ≠ i := by
      rintro rfl
      -- the caller that goes stands under the number of the holder alone
      have same : k = id := by
        rcases hj with hj | ⟨-, hh⟩
        · rcases stands with hs | ⟨⟨n, hs⟩, -⟩
          · rw [hj] at hs
            cases hs
            rfl
          · rw [hj] at hs
            cases hs
        · exact Option.some.inj (hh.symm.trans held)
      exact nodup.1 (same ▸ hk)
    exact ⟨j, Or.inl (by rw [Callers.put_of_ne hne, queued hj hne])⟩
  · intro unready j k hj
    rw [kept.2.1] at unready
    obtain ⟨hne, hj⟩ := Callers.of_put_none hj
    have member := h.placed unready j k hj
    rw [rest, List.mem_cons] at member
    rcases member with rfl | member
    · exact absurd (h.own j i k (Or.inl hj) stands) hne
    · exact member
  · intro j n hj
    exact absurd hj attempting
  · intro ready
    rw [kept.2.1] at ready
    have empty := h.ready ready
    rw [rest] at empty
    cases empty

theorem leaves (h : l.Fair callers) (caller : callers i = some (.queued id))
    (behind : l.holder ≠ some id) :
    Fair { l with queue := l.queue.filter (· != id) } (callers.put i none) := by
  have stands :
      ∀ {j k}, Stands { l with queue := l.queue.filter (· != id) } (callers.put i none) j k →
      l.Stands callers j k := by
    rintro j k (hj | ⟨⟨n, hj⟩, hh⟩)
    · exact Or.inl (Callers.of_put_none hj).2
    · exact Or.inr ⟨⟨n, (Callers.of_put_none hj).2⟩, hh⟩
  have line :
      ({ l with queue := l.queue.filter (· != id) } : Loading).line = l.line.filter (· != id) := by
    unfold Loading.line
    dsimp only
    rw [List.filter_append]
    congr 1
    cases hh : l.holder with
    | none => rfl
    | some k =>
      have hne : (k != id) = true := by
        rw [bne_iff_ne]
        rintro rfl
        exact behind hh
      simp [hne]
  have member : ∀ {k}, k ∈ ({ l with queue := l.queue.filter (· != id) } : Loading).line ↔
      k ∈ l.line ∧ k ≠ id := by
    intro k
    rw [line, List.mem_filter, bne_iff_ne]
  refine h.shrinks rfl (line ▸ List.filter_sublist) stands ?_ ?_ ?_ ?_ ?_
  · intro hn
    change l.queue.filter (· != id) = []
    rw [h.vacant hn]
    rfl
  · intro k hk
    obtain ⟨hk, hne⟩ := member.1 hk
    obtain ⟨j, hj⟩ := h.manned k hk
    have hji : j ≠ i := by
      rintro rfl
      rcases hj with hj | ⟨⟨n, hj⟩, -⟩
      · rw [caller] at hj
        cases hj
        exact hne rfl
      · rw [caller] at hj
        cases hj
    exact ⟨j, (stands_put_of_ne hji rfl).2 hj⟩
  · intro unready j k hj
    obtain ⟨hne, hj⟩ := Callers.of_put_none hj
    refine member.2 ⟨h.placed unready j k hj, ?_⟩
    rintro rfl
    exact hne (h.own j i k (Or.inl hj) (Or.inl caller))
  · intro j n hj
    exact h.attempted j n (Callers.of_put_none hj).2
  · intro ready
    rw [line, h.ready ready]
    rfl

theorem succeeds (h : l.Fair callers) (caller : callers i = some (.attempting n))
    (it : Interpreter) :
    Fair { l with interpreter := some it, holder := none, queue := [] } (callers.put i none) := by
  have stood : ∀ {j k},
      Stands { l with interpreter := some it, holder := none, queue := [] } (callers.put i none) j
      k →
      l.Stands callers j k := by
    rintro j k (hj | ⟨-, hh⟩)
    · exact Or.inl (Callers.of_put_none hj).2
    · cases hh
  refine h.shrinks rfl (List.nil_sublist _) stood (fun _ => rfl) ?_ ?_ ?_ fun _ => rfl
  · intro k hk
    cases hk
  · intro unready
    cases unready
  · intro j n hj
    obtain ⟨hne, hj⟩ := Callers.of_put_none hj
    exact absurd (h.single hj caller) hne

theorem move (h : l.Fair callers) (m : l.Move callers l' callers' failed given) :
    l'.Fair callers' := by
  cases m with
  | takes idle unready free =>
    refine h.joins idle unready ⟨rfl, rfl, rfl⟩ ?_ (Option.some_ne_none _) fun hh => absurd free hh
    rw [line, line, free, h.vacant free]
    rfl
  | queues idle unready held =>
    refine h.joins idle unready ⟨rfl, rfl, rfl⟩ (List.append_assoc _ _ _).symm ?_ fun _ => rfl
    rw [held]
    exact Option.some_ne_none _
  | begins caller unready held => exact h.begins caller held unready
  | succeeds caller unready success => exact h.succeeds caller _
  | fails caller unready failure =>
    obtain ⟨id, held⟩ := Option.ne_none_iff_exists'.1 (h.attempted _ _ caller).1
    exact h.handOver (Or.inr ⟨⟨_, caller⟩, held⟩) held
  | givesUp caller =>
    obtain ⟨id, held⟩ := Option.ne_none_iff_exists'.1 (h.attempted _ _ caller).1
    exact h.handOver (Or.inr ⟨⟨_, caller⟩, held⟩) held
  | passes caller held => exact h.handOver (Or.inl caller) held
  | leaves caller behind => exact h.leaves caller behind
  | served ready => exact h.idles (Or.inr ready) Callers.idle_none
  | released n =>
    exact ⟨h.vacant, h.nodup, h.below, h.known, h.own, h.manned, h.placed, h.attempted, h.ready⟩
  | idles before behind => exact h.idles (Or.inl before) behind

theorem moves (h : l.Fair callers) (ms : l.Moves callers l' callers' failed given) :
    l'.Fair callers' := by
  induction ms with
  | refl => exact h
  | tail _ last ih => exact (ih h).move last

end Fair

/-- The attempts so far are those that failed, those that were given up, the one under way, and the
one that brought the interpreter. -/
def Counted (l : Loading) (callers : Callers) (failed given : Nat) : Prop :=
  callers.Attempting ∧ l.attempts = failed + given + 1 ∨
    ¬ callers.Attempting ∧ l.attempts = failed + given + if l.isReady then 1 else 0

theorem attempting_put_of_ne {c' : Option Caller} (before : ∀ n, callers i ≠ some (.attempting n))
    (behind : ∀ n, c' ≠ some (.attempting n)) :
    (callers.put i c').Attempting ↔ callers.Attempting := by
  constructor
  · rintro ⟨j, n, hj⟩
    rcases Callers.put_eq_some_iff.1 hj with ⟨-, hc⟩ | ⟨-, hj⟩
    · exact absurd hc (behind n)
    · exact ⟨j, n, hj⟩
  · rintro ⟨j, n, hj⟩
    have hne : j ≠ i := by
      rintro rfl
      exact before n hj
    exact ⟨j, n, by rw [Callers.put_of_ne hne, hj]⟩

namespace Fair

theorem not_attempting_put_none (h : l.Fair callers) (caller : callers i = some (.attempting n)) :
    ¬ (callers.put i none).Attempting := by
  rintro ⟨j, m, hj⟩
  obtain ⟨hne, hj⟩ := Callers.of_put_none hj
  exact hne (h.single hj caller)

theorem counted_handOver (h : l.Fair callers) (counted : l.Counted callers failed given)
    (caller : callers i = some (.attempting n)) (once : failed' + given' = failed + given + 1) :
    l.handOver.Counted (callers.put i none) failed' given' := by
  right
  have unready : l.isReady = false := by rw [isReady, h.unready caller]; rfl
  obtain ⟨-, interpreter, attempts⟩ := handOver_kept l
  refine ⟨h.not_attempting_put_none caller, ?_⟩
  rcases counted with ⟨-, count⟩ | ⟨none, -⟩
  · rw [isReady, interpreter, attempts, ← isReady, unready, count]
    simp [once]
  · exact absurd ⟨i, n, caller⟩ none

theorem counted_congr (counted : l.Counted callers failed given)
    (interpreter : l'.interpreter = l.interpreter) (attempts : l'.attempts = l.attempts)
    (attempting : callers'.Attempting ↔ callers.Attempting) :
    l'.Counted callers' failed given := by
  unfold Counted isReady
  rw [interpreter, attempts, attempting]
  exact counted

theorem counted_move (h : l.Fair callers) (counted : l.Counted callers failed given)
    (m : l.Move callers l' callers' failed' given') :
    l'.Counted callers' (failed + failed') (given + given') := by
  cases m with
  | takes idle unready free =>
    exact counted_congr counted rfl rfl (attempting_put_of_ne idle.ne_attempting fun n hn =>
      nomatch hn)
  | queues idle unready held =>
    exact counted_congr counted rfl rfl (attempting_put_of_ne idle.ne_attempting fun n hn =>
      nomatch hn)
  | @begins i id caller unready held =>
    left
    refine ⟨⟨i, l.attempts, Callers.put_self⟩, ?_⟩
    rcases counted with ⟨attempting, -⟩ | ⟨-, count⟩
    · exact absurd attempting (h.not_attempting caller held)
    · rw [isReady, unready] at count
      simpa using count
  | succeeds caller unready success =>
    right
    refine ⟨h.not_attempting_put_none caller, ?_⟩
    rcases counted with ⟨-, count⟩ | ⟨none, -⟩
    · exact count
    · exact absurd ⟨_, _, caller⟩ none
  | fails caller unready failure => exact h.counted_handOver counted caller (by omega)
  | givesUp caller => exact h.counted_handOver counted caller (by omega)
  | passes caller held =>
    obtain ⟨-, interpreter, attempts⟩ := handOver_kept l
    refine counted_congr counted interpreter attempts (attempting_put_of_ne ?_ fun n hn =>
      nomatch hn)
    rw [caller]
    exact fun n hn => nomatch hn
  | leaves caller behind =>
    refine counted_congr counted rfl rfl (attempting_put_of_ne ?_ fun n hn => nomatch hn)
    rw [caller]
    exact fun n hn => nomatch hn
  | served ready =>
    refine counted_congr counted rfl rfl (attempting_put_of_ne ?_ fun n hn => nomatch hn)
    intro n hn
    exact ready (h.unready hn)
  | released n => exact counted_congr counted rfl rfl Iff.rfl
  | idles before behind =>
    exact counted_congr counted rfl rfl
      (attempting_put_of_ne before.ne_attempting behind.ne_attempting)

theorem counted_moves (h : l.Fair callers) (counted : l.Counted callers failed given)
    (ms : l.Moves callers l' callers' failed' given') :
    l'.Counted callers' (failed + failed') (given + given') := by
  induction ms with
  | refl => exact counted
  | tail first last ih => exact (h.moves first).counted_move (ih h counted) last

theorem vacated_move (h : l.Fair callers) (m : l.Move callers l' callers' failed given)
    (ended : 0 < failed + given) :
    l'.interpreter = none ∧ ¬ callers'.Attempting := by
  obtain ⟨-, interpreter, -⟩ := handOver_kept l
  cases m with
  | fails caller unready failure =>
    exact ⟨interpreter.trans unready, h.not_attempting_put_none caller⟩
  | givesUp caller => exact ⟨interpreter.trans (h.unready caller), h.not_attempting_put_none caller⟩
  | takes | queues | begins | succeeds | passes | leaves | served | released | idles =>
    exact absurd ended (Nat.lt_irrefl 0)

theorem vacated_moves (h : l.Fair callers) (ms : l.Moves callers l' callers' failed given)
    (ended : 0 < failed + given) :
    l'.interpreter = none ∧ ¬ callers'.Attempting := by
  cases ms with
  | refl => exact absurd ended (Nat.lt_irrefl 0)
  | tail first last => exact (h.moves first).vacated_move last ended

end Fair

theorem Move.kept (m : l.Move callers l' callers' failed given) : l'.loader = l.loader ∧
    ∀ it, l.interpreter = some it → l'.interpreter = some it ∧ l'.attempts = l.attempts := by
  have early : ∀ {it}, l.interpreter = none → l.interpreter ≠ some it := by
    intro it unready ready
    rw [unready] at ready
    cases ready
  obtain ⟨loader, interpreter, attempts⟩ := handOver_kept l
  cases m with
  | takes idle unready free => exact ⟨rfl, fun it ready => absurd ready (early unready)⟩
  | queues idle unready held => exact ⟨rfl, fun it ready => absurd ready (early unready)⟩
  | begins caller unready held => exact ⟨rfl, fun it ready => absurd ready (early unready)⟩
  | succeeds caller unready success => exact ⟨rfl, fun it ready => absurd ready (early unready)⟩
  | fails caller unready failure => exact ⟨loader, fun it ready => absurd ready (early unready)⟩
  | givesUp caller => exact ⟨loader, fun it ready => ⟨interpreter.trans ready, attempts⟩⟩
  | passes caller held => exact ⟨loader, fun it ready => ⟨interpreter.trans ready, attempts⟩⟩
  | leaves caller behind => exact ⟨rfl, fun it ready => ⟨ready, rfl⟩⟩
  | served ready => exact ⟨rfl, fun it ready => ⟨ready, rfl⟩⟩
  | released n => exact ⟨rfl, fun it ready => ⟨ready, rfl⟩⟩
  | idles before behind => exact ⟨rfl, fun it ready => ⟨ready, rfl⟩⟩

theorem Moves.kept (ms : l.Moves callers l' callers' failed given) : l'.loader = l.loader ∧
    ∀ it, l.interpreter = some it → l'.interpreter = some it ∧ l'.attempts = l.attempts := by
  induction ms with
  | refl => exact ⟨rfl, fun it ready => ⟨ready, rfl⟩⟩
  | tail _ last ih =>
    obtain ⟨loader, same⟩ := ih
    obtain ⟨loader', same'⟩ := last.kept
    refine ⟨loader'.trans loader, fun it ready => ?_⟩
    obtain ⟨ready, attempts⟩ := same it ready
    obtain ⟨ready, attempts'⟩ := same' it ready
    exact ⟨ready, attempts'.trans attempts⟩

def Genuine (l : Loading) : Prop := ∀ it, l.interpreter = some it → ∃ n, l.loader.attempt n = .ok it

theorem Genuine.move (h : l.Genuine) (m : l.Move callers l' callers' failed given) :
    l'.Genuine := by
  have same :
      ∀ {l' : Loading}, l'.loader = l.loader → l'.interpreter = l.interpreter → l'.Genuine := by
    intro l' loader interpreter it ready
    rw [loader]
    exact h it (interpreter.symm.trans ready)
  obtain ⟨loader, interpreter, -⟩ := handOver_kept l
  cases m with
  | succeeds caller unready success =>
    rintro it ⟨⟩
    exact ⟨_, success⟩
  | fails | givesUp | passes => exact same loader interpreter
  | takes | queues | begins | leaves | served | released | idles => exact same rfl rfl

theorem Genuine.moves (h : l.Genuine) (ms : l.Moves callers l' callers' failed given) :
    l'.Genuine := by
  induction ms with
  | refl => exact h
  | tail _ last ih => exact ih.move last

end Loading
end SourcePreview
