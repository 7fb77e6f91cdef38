import Mathlib.Tactic.SplitIfs
import SourcePreview.Proofs.Expression.Walk

/-! Texts that close what they open: behind them a scan stands where it stood before, and on the way
it never closes a bracket that was open before (`Closed.walk`). In parentheses such a text is found
again (`Closed.enclosed?_eq`), and whatever the parentheses around a whole text enclose is such a
text (`closed_of_enclosed?`). -/

namespace SourcePreview

namespace Nesting

variable {n : Nesting} {c sep : Char} {s t : Text}

def isPlain (c : Char) : Bool := !isQuote c && !isOpening c && !isClosing c

theorem isQuote_of_isPlain (h : isPlain c = true) : isQuote c = false := by
  simp only [isPlain, Bool.and_eq_true, Bool.not_eq_true'] at h
  exact h.1.1

theorem step_of_isPlain (h : isPlain c = true) (k : Nat) : (level k).step c = level k := by
  simp only [isPlain, Bool.and_eq_true, Bool.not_eq_true'] at h
  obtain ⟨⟨h1, h2⟩, h3⟩ := h
  simp [step, level, h1, h2, h3]

/-- Where a walk through a balanced text from `k` open brackets may stand. -/
def Above (k : Nat) (p : Nesting × Char) : Prop :=
  p.1.quote.isSome = true ∨ k ≤ p.1.depth ∧ (isClosing p.2 = true → k < p.1.depth)

theorem Above.mono {k m : Nat} {p : Nesting × Char} (h : Above m p) (hk : k ≤ m) : Above k p := by
  rcases h with h | ⟨h1, h2⟩
  · exact Or.inl h
  · exact Or.inr ⟨Nat.le_trans hk h1, fun hc => Nat.lt_of_le_of_lt hk (h2 hc)⟩

theorem Above.closes_eq_false {p : Nesting × Char} (h : Above 1 p) : p.1.closes p.2 = false := by
  unfold closes
  rcases h with h | ⟨-, h⟩
  · rw [Option.isSome_iff_ne_none] at h
    simp [h]
  · cases hc : isClosing p.2 with
    | false => simp
    | true =>
      have := h hc
      simp only [Bool.and_true, Bool.and_eq_false_iff, decide_eq_false_iff_not]
      exact Or.inr (by omega)

theorem Above.isTop_eq_false {p : Nesting × Char} (h : Above 1 p) : p.1.isTop p.2 = false := by
  unfold isTop
  rcases h with h | ⟨h, -⟩
  · rw [Option.isSome_iff_ne_none] at h
    simp [h]
  · have : (p.1.depth == 0) = false := by simpa using Nat.ne_of_gt h
    simp [this]

theorem isQuote_of_isOpening (opening : isOpening c = true) : isQuote c = false := by
  simp only [isOpening, Bool.or_eq_true, beq_iff_eq] at opening
  rcases opening with (rfl | rfl) | rfl <;> rfl

theorem isQuote_of_after {q : Char} (h : (start.after s).quote = some q) : isQuote q = true := by
  have kept : ∀ {n : Nesting} (s : Text), (∀ q, n.quote = some q → isQuote q = true) →
      ∀ q, (n.after s).quote = some q → isQuote q = true := by
    intro n s
    induction s generalizing n with
    | nil => exact id
    | cons c s ih =>
      intro hn
      rw [after_cons]
      refine ih fun q hq => ?_
      unfold step at hq
      split at hq <;> split_ifs at hq <;> simp_all
  exact kept s (fun q hq => by cases hq) q h

theorem quote_after_plain {q : Char} (quote : isQuote q = true) (h : n.quote = some q)
    (plain : s.all isPlain = true) :
    (n.after s).quote = some q := by
  induction s generalizing n with
  | nil => exact h
  | cons c s ih =>
    rw [List.all_cons, Bool.and_eq_true] at plain
    have other : (c == q) = false := by
      rw [beq_eq_false_iff_ne]
      rintro rfl
      rw [isQuote_of_isPlain plain.1] at quote
      cases quote
    have kept : (n.step c).quote = some q := by
      rw [step, h]
      simp only [other, Bool.false_eq_true, if_false]
      split_ifs <;> simp only [h]
    exact ih kept plain.2

theorem after_plain (h : n.quote = none) (plain : s.all isPlain = true) : n.after s = n := by
  induction s with
  | nil => rfl
  | cons c s ih =>
    rw [List.all_cons, Bool.and_eq_true] at plain
    have same : n.step c = n := by
      have := plain.1
      simp only [isPlain, Bool.and_eq_true, Bool.not_eq_true'] at this
      simp [step, h, this]
    rw [after_cons, same, ih plain.2]

/-- A text that closes all its quotes and brackets, and no bracket but its own. -/
structure Closed (s : Text) : Prop where
  after : start.after s = start
  above : ∀ p ∈ start.path s, p.1.quote = none → isClosing p.2 = true → 0 < p.1.depth

instance (s : Text) : Decidable (Closed s) :=
  decidable_of_iff (start.after s = start ∧ ∀ p ∈ start.path s, p.1.quote = none →
    isClosing p.2 = true → 0 < p.1.depth)
    ⟨fun h => ⟨h.1, h.2⟩, fun h => ⟨h.1, h.2⟩⟩

def raise (k : Nat) (n : Nesting) : Nesting := { n with depth := n.depth + k }

theorem step_raise (k : Nat) (own : n.quote = none → isClosing c = true → 0 < n.depth) :
    (n.raise k).step c = (n.step c).raise k := by
  unfold step raise
  cases hq : n.quote with
  | some q =>
    dsimp only
    split_ifs <;> simp [hq]
  | none =>
    dsimp only
    split_ifs with _ opening closing
    · rfl
    · simp only [Nat.add_right_comm]
    · have := own hq closing
      simp only [Nesting.mk.injEq, and_true]
      omega
    · rw [hq]

/-- A text that closes no bracket but its own is walked through alike behind any number of
brackets. -/
theorem walk_raise (k : Nat)
    (own : ∀ p ∈ n.path s, p.1.quote = none → isClosing p.2 = true → 0 < p.1.depth) :
    (n.raise k).after s = (n.after s).raise k ∧ (n.raise k).path s = (n.path s).map fun p =>
    (p.1.raise k, p.2) := by
  induction s generalizing n with
  | nil => exact ⟨rfl, rfl⟩
  | cons c s ih =>
    rw [path, List.forall_mem_cons] at own
    obtain ⟨hafter, hpath⟩ := ih own.2
    rw [after_cons, after_cons, path, path, step_raise k own.1, hafter, hpath]
    exact ⟨rfl, rfl⟩

theorem after_level (k : Nat) (hs : start.after s = start)
    (own : ∀ p ∈ start.path s, p.1.quote = none → isClosing p.2 = true → 0 < p.1.depth) :
    (level k).after s = level k := by
  have raised : level k = start.raise k := by simp [level, raise, start]
  rw [raised, (walk_raise k own).1, hs]

namespace Closed

/-- A walk through a closed text stays above the brackets that were open before, and ends where it
began. -/
theorem walk (h : Closed s) (k : Nat) :
    (level k).after s = level k ∧ ∀ p ∈ (level k).path s, Above k p := by
  have raised : level k = start.raise k := by simp [level, raise, start]
  refine ⟨after_level k h.after h.above, fun p hp => ?_⟩
  rw [raised, (walk_raise k h.above).2] at hp
  obtain ⟨⟨m, c⟩, hm, rfl⟩ := List.mem_map.1 hp
  have own := h.above (m, c) hm
  cases hq : m.quote with
  | some q => exact Or.inl (by simp [raise, hq])
  | none =>
    refine Or.inr ⟨Nat.le_add_left k m.depth, fun hc => ?_⟩
    have : 0 < m.depth := own hq hc
    simp only [raise]
    omega

theorem of_walk (h : start.after s = start ∧ ∀ p ∈ start.path s, Above 0 p) : Closed s := by
  refine ⟨h.1, fun p hp hq hc => ?_⟩
  rcases h.2 p hp with quoted | ⟨-, own⟩
  · rw [hq] at quoted
    cases quoted
  · exact own hc

theorem nil : Closed [] := ⟨rfl, fun _ hp => nomatch hp⟩

theorem append (hs : Closed s) (ht : Closed t) : Closed (s ++ t) := by
  constructor
  · rw [after_append, hs.after, ht.after]
  · intro p hp
    rw [path_append, hs.after] at hp
    rcases List.mem_append.1 hp with hp | hp
    · exact hs.above p hp
    · exact ht.above p hp

theorem singleton (plain : isPlain c = true) : Closed [c] := by
  refine ⟨step_of_isPlain plain 0, fun p hp _ hc => ?_⟩
  rw [List.mem_singleton.1 hp] at hc
  simp [isPlain, hc] at plain

theorem of_plain (plain : s.all isPlain = true) : Closed s := by
  induction s with
  | nil => exact nil
  | cons c s ih =>
    rw [List.all_cons, Bool.and_eq_true] at plain
    exact (singleton plain.1).append (ih plain.2)

theorem of_plain_append (plain : s.all isPlain = true) (h : Closed (s ++ t)) : Closed t := by
  have front := (of_plain plain).after
  have whole := h.after
  rw [after_append, front] at whole
  refine ⟨whole, fun p hp => h.above p ?_⟩
  rw [path_append, front]
  exact List.mem_append_right _ hp

theorem of_append_plain (plain : t.all isPlain = true) (h : Closed (s ++ t)) : Closed s := by
  have whole := h.after
  rw [after_append] at whole
  have outside : (start.after s).quote = none := by
    cases hq : (start.after s).quote with
    | none => rfl
    | some q =>
      have kept := quote_after_plain (isQuote_of_after hq) hq plain
      rw [whole] at kept
      cases kept
  refine ⟨(after_plain outside plain).symm.trans whole, fun p hp => h.above p ?_⟩
  rw [path_append]
  exact List.mem_append_left _ hp

theorem join {sep : Text} {parts : List Text} (between : Closed sep) (h : ∀ s ∈ parts, Closed s) :
    Closed (Text.join sep parts) := by
  unfold Text.join
  induction parts with
  | nil => exact nil
  | cons first others ih =>
    rw [List.forall_mem_cons] at h
    cases others with
    | nil =>
      rw [List.intercalate_singleton]
      exact h.1
    | cons second others =>
      rw [List.intercalate_cons_cons]
      exact (h.1.append between).append (ih h.2)

theorem group (h : Closed s) {opening closing : Char} (ho : isOpening opening = true)
    (hc : isClosing closing = true) :
    Closed (opening :: (s ++ [closing])) := by
  obtain ⟨hafter, above⟩ := h.walk 1
  have opened : start.step opening = level 1 := by
    simp [step, start, level, isQuote_of_isOpening ho, ho]
  have shut : (level 1).step closing = start := by
    simp only [isClosing, Bool.or_eq_true, beq_iff_eq] at hc
    rcases hc with (rfl | rfl) | rfl <;> rfl
  have unclosing : isClosing opening = false := by
    simp only [isOpening, Bool.or_eq_true, beq_iff_eq] at ho
    rcases ho with (rfl | rfl) | rfl <;> rfl
  refine of_walk ⟨by rw [after_cons, opened, after_append, hafter, after_cons, shut, after_nil],
    fun p hp => ?_⟩
  rw [path, opened, path_append, hafter] at hp
  rcases List.mem_cons.1 hp with rfl | hp
  · exact Or.inr ⟨Nat.le_refl 0, fun h => by rw [unclosing] at h; cases h⟩
  rcases List.mem_append.1 hp with hp | hp
  · exact (above p hp).mono (Nat.zero_le 1)
  · rw [List.mem_singleton.1 hp]
    exact Or.inr ⟨Nat.zero_le 1, fun _ => Nat.zero_lt_one⟩

theorem isTop_group (h : Closed s) {opening closing : Char} (ho : isOpening opening = true)
    (hc : isClosing closing = true) :
    ∀ p ∈ start.path (opening :: (s ++ [closing])), p.1.isTop p.2 = false := by
  obtain ⟨hafter, above⟩ := h.walk 1
  have opened : start.step opening = level 1 := by
    simp [step, start, level, isQuote_of_isOpening ho, ho]
  intro p hp
  rw [path, opened, path_append, hafter] at hp
  rcases List.mem_cons.1 hp with rfl | hp
  · simp [isTop, ho]
  rcases List.mem_append.1 hp with hp | hp
  · exact (above p hp).isTop_eq_false
  · rw [List.mem_singleton.1 hp]
    simp [isTop, hc]

theorem getLast?_ne (h : Closed s) (opening : isOpening c = true) : s.getLast? ≠ some c := by
  intro last
  obtain ⟨front, rfl⟩ := List.getLast?_eq_some_iff.1 last
  have whole : (start.after front).step c = start := by
    have := h.after
    rwa [after_append] at this
  have unquoted := isQuote_of_isOpening opening
  cases hq : (start.after front).quote with
  | none =>
    rw [step, hq] at whole
    simp [unquoted, opening, start] at whole
  | some q =>
    have quote := isQuote_of_after hq
    have other : (c == q) = false := by
      rw [beq_eq_false_iff_ne]
      rintro rfl
      rw [unquoted] at quote
      cases quote
    have kept : ((start.after front).step c).quote = some q := by
      rw [step, hq]
      simp only [other, Bool.false_eq_true, if_false]
      split_ifs <;> simp only [hq]
    rw [whole] at kept
    cases kept

theorem closing?_eq (h : Closed s) {close : Char} (hc : isClosing close = true) (r : Text) :
    closing? inside (s ++ close :: r) = some (s, r) := by
  obtain ⟨hafter, above⟩ := h.walk 1
  have closed : closing? (level 1) (close :: r) = some ([], r) := by
    simp [closing?, level, hc]
  rw [show inside = level 1 from rfl, closing?_append fun p hp => (above p hp).closes_eq_false,
    hafter, closed]
  simp

theorem enclosed?_eq (h : Closed s) {close : Char} (hc : isClosing close = true) :
    enclosed? ('(' :: (s ++ [close])) = some s := by
  simp only [enclosed?, h.closing?_eq hc]

end Closed

theorem escaped_after (h : n.quote = none → n.escaped = false) (s : Text) :
    (n.after s).quote = none → (n.after s).escaped = false := by
  induction s generalizing n with
  | nil => exact h
  | cons c s ih =>
    refine ih fun hq => ?_
    unfold step at hq ⊢
    split at hq <;> split_ifs at hq ⊢ <;> simp_all

theorem own_of_closes (h : ∀ p ∈ (n.raise 1).path s, p.1.closes p.2 = false) :
    ∀ p ∈ n.path s, p.1.quote = none → isClosing p.2 = true → 0 < p.1.depth := by
  induction s generalizing n with
  | nil => exact fun _ hp => nomatch hp
  | cons c s ih =>
    rw [path, List.forall_mem_cons] at h
    have own : n.quote = none → isClosing c = true → 0 < n.depth := by
      intro hq hc
      have := h.1
      simp only [closes, raise, hq, hc, Option.isNone_none, Bool.and_self, Bool.true_and,
        decide_eq_false_iff_not] at this
      omega
    rw [step_raise 1 own] at h
    exact List.forall_mem_cons.2 ⟨own, ih h.2⟩

theorem closes_of_closing? {a b : Text} (h : closing? n s = some (a, b)) :
    ∃ close, isClosing close = true ∧ s = a ++ close :: b ∧ (n.after a).quote = none ∧
      (n.after a).depth = 1 ∧
      ∀ p ∈ n.path a, p.1.closes p.2 = false := by
  induction s generalizing n a with
  | nil => cases h
  | cons c r ih =>
    rw [closing?] at h
    by_cases hc : (n.quote.isNone && isClosing c && decide (n.depth ≤ 1)) = true
    · rw [if_pos hc] at h
      by_cases deep : n.depth = 1
      · rw [if_pos deep] at h
        cases h
        simp only [Bool.and_eq_true, Option.isNone_iff_eq_none] at hc
        exact ⟨c, hc.1.2, rfl, hc.1.1, deep, List.forall_mem_nil _⟩
      · rw [if_neg deep] at h
        cases h
    · rw [if_neg hc] at h
      obtain ⟨parts, hr, he⟩ := Option.map_eq_some_iff.1 h
      simp only [Prod.mk.injEq] at he
      obtain ⟨rfl, rfl⟩ := he
      obtain ⟨close, closing, rfl, quote, depth, front⟩ := ih hr
      refine ⟨close, closing, rfl, quote, depth, ?_⟩
      rw [path, List.forall_mem_cons]
      exact ⟨Bool.eq_false_iff.2 hc, front⟩

/-- What parentheses around a whole text enclose is closed. -/
theorem closed_of_enclosed? {inner : Text} (h : enclosed? s = some inner) :
    ∃ close, isClosing close = true ∧ s = '(' :: (inner ++ [close]) ∧ Closed inner := by
  unfold enclosed? at h
  split at h
  · split at h
    · next hc =>
      cases h
      obtain ⟨close, closing, rfl, quote, depth, front⟩ := closes_of_closing? hc
      have own := own_of_closes (n := start) front
      have escaped := escaped_after (n := inside) (fun _ => rfl) inner quote
      have raised : inside.after inner = (start.after inner).raise 1 := (walk_raise 1 own).1
      refine ⟨close, closing, rfl, ?_, own⟩
      rw [raised] at quote depth escaped
      cases hn : start.after inner with
      | mk d q e =>
        rw [hn] at quote depth escaped
        simp only [raise, Nat.add_eq_right] at quote depth escaped
        rw [quote, depth, escaped]
        rfl
    · cases h
  · cases h

def Undivided (sep : Char) (s : Text) : Prop := ∀ p ∈ start.path s, p.1.isTop p.2 = true → p.2 ≠ sep

instance (sep : Char) (s : Text) : Decidable (Undivided sep s) :=
  inferInstanceAs (Decidable (∀ p ∈ start.path s, p.1.isTop p.2 = true → p.2 ≠ sep))

theorem Undivided.append (closed : Closed s) (hs : Undivided sep s) (ht : Undivided sep t) :
    Undivided sep (s ++ t) := by
  intro p hp
  rw [path_append, closed.after] at hp
  rcases List.mem_append.1 hp with hp | hp
  · exact hs p hp
  · exact ht p hp

theorem Undivided.group (h : Closed s) {opening closing : Char} (ho : isOpening opening = true)
    (hc : isClosing closing = true) :
    Undivided sep (opening :: (s ++ [closing])) := by
  intro p hp top
  rw [h.isTop_group ho hc p hp] at top
  cases top

theorem Undivided.of_not_mem (h : sep ∉ s) : Undivided sep s := by
  rintro p hp - rfl
  exact h (snd_mem_of_mem_path hp)

/-- On a way without a separator at the top level a scan begins no new part. -/
theorem cutTop_passed (whole : ∀ p ∈ n.path s, p.1.isTop p.2 = true → p.2 ≠ sep) (r : Text) :
    cutTop sep n (s ++ r) = (s ++ (cutTop sep (n.after s) r).1, (cutTop sep (n.after s) r).2) := by
  induction s generalizing n with
  | nil => rfl
  | cons c s ih =>
    rw [path, List.forall_mem_cons] at whole
    have hc : (n.isTop c && c == sep) = false := by
      rw [Bool.and_eq_false_imp]
      exact fun top => beq_eq_false_iff_ne.2 (whole.1 top)
    rw [List.cons_append, cutTop, ih whole.2, hc]
    rfl

/-- A text without a separator at the top level is part of the first part of a longer one. -/
theorem cutTop_append (closed : Closed s) (whole : Undivided sep s) (r : Text) :
    cutTop sep start (s ++ r) = (s ++ (cutTop sep start r).1, (cutTop sep start r).2) := by
  rw [cutTop_passed whole, closed.after]

theorem cutTop_of_undivided (closed : Closed s) (whole : Undivided sep s) :
    cutTop sep start s = (s, []) := by
  simpa [cutTop] using cutTop_append closed whole []

theorem splitTop_of_undivided (closed : Closed s) (whole : Undivided sep s) :
    splitTop sep s = [s] := by
  rw [splitTop, cutTop_of_undivided closed whole]

/-- A separator at the top level begins a new part. -/
theorem cutTop_sep (plain : isPlain sep = true) {first : Text} {others : List Text} {r : Text}
    (h : cutTop sep start r = (first, others)) :
    cutTop sep start (sep :: r) = ([], first :: others) := by
  have stays : start.step sep = start := step_of_isPlain plain 0
  have top : start.isTop sep = true := by
    simp only [isPlain, Bool.and_eq_true, Bool.not_eq_true'] at plain
    simp [isTop, start, plain]
  rw [cutTop, stays, h, top, beq_self_eq_true]
  rfl

/-- A text behind which the scan is back where it began, and a separator, are the first part. -/
theorem splitTop_append_cons (plain : isPlain sep = true) (back : start.after s = start)
    (whole : Undivided sep s) (r : Text) :
    splitTop sep (s ++ sep :: r) = s :: splitTop sep r := by
  rw [splitTop, cutTop_passed whole, back, cutTop_sep plain rfl, List.append_nil]
  rfl

theorem splitTop_intercalate (plain : isPlain sep = true) {first : Text} {others : List Text}
    (closed : ∀ s ∈ first :: others, Closed s) (whole : ∀ s ∈ first :: others, Undivided sep s) :
    splitTop sep (Text.join [sep] (first :: others)) = first :: others := by
  have parts : cutTop sep start (Text.join [sep] (first :: others)) = (first, others) := by
    unfold Text.join
    induction others generalizing first with
    | nil =>
      rw [List.intercalate_singleton]
      exact cutTop_of_undivided (closed first (by simp)) (whole first (by simp))
    | cons second others ih =>
      rw [List.forall_mem_cons] at closed whole
      rw [List.intercalate_cons_cons, List.append_assoc, cutTop_append closed.1 whole.1,
        List.singleton_append, cutTop_sep plain (ih closed.2 whole.2), List.append_nil]
  rw [splitTop, parts]

theorem join_comma_blank (first : Text) (others : List Text) :
    Text.join ", ".toList (first :: others) = Text.join [','] (first :: others.map (' ' :: ·)) := by
  unfold Text.join
  induction others generalizing first with
  | nil => rfl
  | cons second others ih =>
    have blank : ∀ ts : List Text,
        [','].intercalate ((' ' :: second) :: ts) = ' ' :: [','].intercalate (second :: ts) := by
      intro ts
      cases ts <;> rfl
    rw [List.map_cons, List.intercalate_cons_cons, List.intercalate_cons_cons, ih, blank]
    simp

theorem splitTop_join {first : Text} {others : List Text} (closed : ∀ s ∈ first :: others, Closed s)
    (whole : ∀ s ∈ first :: others, Undivided ',' s) :
    splitTop ',' (Text.join ", ".toList (first :: others)) = first :: others.map (' ' :: ·) := by
  have blank : Closed [' '] ∧ Undivided ',' [' '] := ⟨.singleton rfl, .of_not_mem (by decide)⟩
  rw [List.forall_mem_cons] at closed whole
  rw [join_comma_blank]
  apply splitTop_intercalate rfl
  · rw [List.forall_mem_cons, List.forall_mem_map]
    exact ⟨closed.1, fun s hs => blank.1.append (closed.2 s hs)⟩
  · rw [List.forall_mem_cons, List.forall_mem_map]
    exact ⟨whole.1, fun s hs => blank.2.append blank.1 (whole.2 s hs)⟩

end Nesting

end SourcePreview
