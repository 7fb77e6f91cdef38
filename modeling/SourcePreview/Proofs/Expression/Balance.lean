import SourcePreview.Proofs.Expression.Closed
import SourcePreview.Proofs.Expression.Quotation

/-! Texts whose brackets and quotes are balanced. Such a text is closed (`Balanced.closed`), and at
the top level a closed text in parentheses or a text in quotes hides whatever operators it holds
(`Hidden`). -/

namespace SourcePreview

namespace Nesting

/-- Balanced texts: plain characters, quotations, and balanced texts in parentheses, one behind the
other. -/
inductive Balanced : Text → Prop where
  | nil : Balanced []
  | plain {c : Char} {s : Text} (hc : isPlain c = true) (hs : Balanced s) : Balanced (c :: s)
  | quotation (singles : Bool) (body : Text) {s : Text} (hs : Balanced s) :
    Balanced (quotation singles body ++ s)
  | group {s r : Text} (hs : Balanced s) (hr : Balanced r) : Balanced ('(' :: (s ++ ')' :: r))

namespace Balanced

variable {s t : Text}

theorem append (hs : Balanced s) (ht : Balanced t) : Balanced (s ++ t) := by
  induction hs with
  | nil => exact ht
  | plain hc _ ih => exact .plain hc ih
  | quotation singles body _ ih =>
    rw [List.append_assoc]
    exact .quotation singles body ih
  | @group s r hs _ _ ih =>
    have := Balanced.group hs ih
    rwa [List.cons_append, List.append_assoc, List.cons_append]

theorem of_plain (h : ∀ c ∈ s, isPlain c = true) : Balanced s := by
  induction s with
  | nil => exact .nil
  | cons c s ih =>
    rw [List.forall_mem_cons] at h
    exact .plain h.1 (ih h.2)

theorem parens (hs : Balanced s) : Balanced ('(' :: (s ++ [')'])) := .group hs .nil

end Balanced

theorem Balanced.walk {s : Text} (h : Balanced s) (k : Nat) :
    (level k).after s = level k ∧ ∀ p ∈ (level k).path s, Above k p := by
  -- inside of a group one more bracket is open
  induction h generalizing k with
  | nil => exact ⟨rfl, fun _ hp => nomatch hp⟩
  | @plain c s hc _ ih =>
    rw [after_cons, path, step_of_isPlain hc]
    refine ⟨(ih k).1, List.forall_mem_cons.2 ⟨Or.inr ⟨Nat.le_refl k, fun h => ?_⟩, (ih k).2⟩⟩
    simp [isPlain, h] at hc
  | @quotation singles body s _ ih =>
    obtain ⟨h1, h2⟩ := path_quotation singles k body
    rw [after_append, path_append, h1]
    refine ⟨(ih k).1, fun p hp => ?_⟩
    rcases List.mem_append.1 hp with hp | hp
    · rcases h2 p hp with rfl | hq
      · exact Or.inr ⟨Nat.le_refl k, fun h => by cases h⟩
      · exact Or.inl (by rw [hq]; rfl)
    · exact (ih k).2 p hp
  | @group s r _ _ ihs ihr =>
    have hopen : (level k).step '(' = level (k + 1) := rfl
    have hclose : (level (k + 1)).step ')' = level k := rfl
    rw [after_cons, path, hopen, after_append, path_append, (ihs (k + 1)).1, after_cons, path,
      hclose]
    refine ⟨(ihr k).1,
      List.forall_mem_cons.2 ⟨Or.inr ⟨Nat.le_refl k, fun h => by cases h⟩, fun p hp => ?_⟩⟩
    rcases List.mem_append.1 hp with hp | hp
    · exact ((ihs (k + 1)).2 p hp).mono (Nat.le_succ k)
    rcases List.mem_cons.1 hp with rfl | hp
    · exact Or.inr ⟨Nat.le_succ k, fun _ => Nat.lt_succ_self k⟩
    · exact (ihr k).2 p hp

theorem Balanced.closed {s : Text} (h : Balanced s) : Closed s := .of_walk (h.walk 0)

theorem enclosed?_group_append {s r : Text} (h : Balanced s) (hr : r ≠ []) :
    enclosed? ('(' :: (s ++ ')' :: r)) = none := by
  obtain ⟨c, r, rfl⟩ := List.exists_cons_of_ne_nil hr
  have hc : isClosing ')' = true := rfl
  simp only [enclosed?, h.closed.closing?_eq hc]

theorem enclosed?_of_head?_ne {s : Text} (h : s.head? ≠ some '(') : enclosed? s = none := by
  unfold enclosed?
  split
  · exact absurd rfl h
  · rfl

/-- A text that a scan at the top level passes over without an operator. -/
structure Hidden (s : Text) : Prop where
  after : start.after s = start
  top : ∀ p ∈ start.path s, p.1.isTop p.2 = true → Operator.ofChar? p.2 = none

namespace Hidden

variable {s t : Text}

theorem append (hs : Hidden s) (ht : Hidden t) : Hidden (s ++ t) := by
  constructor
  · rw [after_append, hs.after, ht.after]
  · intro p hp
    rw [path_append, hs.after] at hp
    rcases List.mem_append.1 hp with hp | hp
    · exact hs.top p hp
    · exact ht.top p hp

theorem nil : Hidden [] := ⟨rfl, fun _ hp => nomatch hp⟩

theorem singleton {c : Char} (hc : isPlain c = true) (ho : Operator.ofChar? c = none) :
    Hidden [c] := by
  refine ⟨step_of_isPlain hc 0, fun p hp _ => ?_⟩
  rw [List.mem_singleton.1 hp]
  exact ho

theorem of_plain (h : ∀ c ∈ s, isPlain c = true ∧ Operator.ofChar? c = none) : Hidden s := by
  induction s with
  | nil => exact nil
  | cons c s ih =>
    rw [List.forall_mem_cons] at h
    exact (singleton h.1.1 h.1.2).append (ih h.2)

theorem quotation (singles : Bool) (body : Text) : Hidden (quotation singles body) := by
  obtain ⟨h1, h2⟩ := path_quotation singles 0 body
  refine ⟨h1, fun p hp ht => ?_⟩
  rcases h2 p hp with rfl | hq
  · cases ht
  · simp [isTop, hq] at ht

theorem group (hs : Closed s) : Hidden ('(' :: (s ++ [')'])) := by
  refine ⟨(hs.group rfl rfl).after, fun p hp ht => ?_⟩
  rw [hs.isTop_group rfl rfl p hp] at ht
  cases ht

end Hidden

end Nesting

theorem Cut.scan_hidden {s : Text} (h : Nesting.Hidden s) (before : Text) (found : Candidates)
    (r : Text) :
    scan .start before found (s ++ r) = scan .start (s.reverse ++ before) found r := by
  rw [scan_append h.top, h.after]

end SourcePreview
