import SourcePreview.Highlight.Token
import SourcePreview.Proofs.Text.Trim

/-! The search for a text in another. What is looked for is a delimiter, a text without blanks:
blanks around or between texts do not bring about an occurrence of it (`Solid.infix_of_append`,
`Solid.infix_trim`). -/

namespace SourcePreview.Text

variable {needle s t u : Text} {b : Char}

theorem containsText_iff : containsText needle s = true ↔ needle <:+: s := by
  unfold containsText
  induction s with
  | nil =>
    cases needle with
    | nil => simp [cutAtText]
    | cons c r => simp [cutAtText]
  | cons c r ih =>
    rw [cutAtText, List.infix_cons_iff, ← ih]
    cases ha : after? needle (c :: r) with
    | some rest =>
      have starts : needle <+: c :: r := ⟨rest, (after?_eq_some_iff.1 ha).symm⟩
      simp [starts]
    | none =>
      have starts : ¬ needle <+: c :: r := by
        rintro ⟨rest, he⟩
        rw [after?_eq_some_iff.2 he.symm] at ha
        cases ha
      simp [starts]

theorem prefix_of_cutAtText {before behind x : Text}
    (h : cutAtText needle s = some (before, behind)) (occurs : x ++ needle <+: s) :
    before <+: x := by
  induction s generalizing before x with
  | nil =>
    obtain ⟨rfl, -⟩ := List.append_eq_nil_iff.1 (List.prefix_nil.1 occurs)
    rw [cutAtText] at h
    split at h
    · cases h
      exact List.prefix_rfl
    · cases h
  | cons c r ih =>
    rw [cutAtText] at h
    cases ha : after? needle (c :: r) with
    | some rest =>
      rw [ha] at h
      cases h
      exact List.nil_prefix
    | none =>
      rw [ha] at h
      obtain ⟨⟨a, b⟩, hr, he⟩ := Option.map_eq_some_iff.1 h
      cases he
      cases x with
      | nil =>
        rw [List.nil_append] at occurs
        obtain ⟨rest, he⟩ := occurs
        rw [after?_eq_some_iff.2 he.symm] at ha
        cases ha
      | cons d x =>
        rw [List.cons_append, List.cons_prefix_cons] at occurs
        obtain ⟨rfl, occurs⟩ := occurs
        exact List.cons_prefix_cons.2 ⟨rfl, ih hr occurs⟩

theorem startsWith_of_head?_ne {c : Char} {start : Text} (h : s.head? ≠ some c) :
    startsWith (c :: start) s = false := by
  cases s with
  | nil => rfl
  | cons d s =>
    have other : c ≠ d := fun he => h (by rw [he]; rfl)
    simp [startsWith, after?, other]

theorem eq_of_splitOnceLast {sep : Char} {s a b : Text} (h : splitOnceLast sep s = some (a, b)) :
    s = a ++ sep :: b := by
  obtain ⟨⟨b', a'⟩, split, he⟩ := Option.map_eq_some_iff.1 h
  cases he
  have whole := congrArg List.reverse (eq_of_splitOnce split)
  simpa using whole

/-- A text up to the end of the first occurrence of another, and the rest; without an occurrence,
all of it. -/
def upTo (needle s : Text) : Text × Text :=
  match cutAtText needle s with
  | some (a, b) => (a ++ needle, b)
  | none => (s, [])

theorem cutAtText_append_right {x y : Text} (h : cutAtText needle s = some (x, y)) (t : Text) :
    cutAtText needle (s ++ t) = some (x, y ++ t) := by
  induction s generalizing x with
  | nil =>
    obtain rfl : needle = [] := List.infix_nil.1 (containsText_iff.1 (by rw [containsText, h]; rfl))
    cases h
    cases t <;> rfl
  | cons c r ih =>
    rw [cutAtText] at h
    rw [List.cons_append, cutAtText]
    cases ha : after? needle (c :: r) with
    | some rest =>
      rw [ha] at h
      cases h
      have he := after?_eq_some_iff.1 ha
      have starts : c :: (r ++ t) = needle ++ (y ++ t) := by
        rw [← List.cons_append, he, List.append_assoc]
      rw [after?_eq_some_iff.2 starts]
    | none =>
      rw [ha] at h
      obtain ⟨⟨x', y'⟩, hr, he⟩ := Option.map_eq_some_iff.1 h
      cases he
      have fits : needle.length ≤ r.length :=
        (containsText_iff.1 (by rw [containsText, hr]; rfl)).length_le
      have later : after? needle (c :: (r ++ t)) = none := by
        -- the front is long enough for what would be found at its first character
        cases hl : after? needle (c :: (r ++ t)) with
        | none => rfl
        | some rest =>
          have starts : needle <+: c :: r := by
            refine List.prefix_of_prefix_length_le ⟨rest,
              (after?_eq_some_iff.1 hl).symm⟩ (List.prefix_append (c :: r) t) ?_
            rw [List.length_cons]
            omega
          obtain ⟨rest', he⟩ := starts
          rw [after?_eq_some_iff.2 he.symm] at ha
          cases ha
      rw [later, ih hr]
      rfl

theorem upTo_prefix (h : needle <:+: s) (t : Text) : (upTo needle (s ++ t)).1 <+: s := by
  rw [← containsText_iff, containsText, Option.isSome_iff_exists] at h
  obtain ⟨⟨x, y⟩, hc⟩ := h
  rw [upTo, cutAtText_append_right hc t]
  exact ⟨y, (Token.cutAtText_append hc).symm⟩

/-- Where the search ends inside a text, it found an occurrence there. -/
theorem infix_of_upTo (h : (upTo needle (s ++ t)).1 <+: s) (ht : t ≠ []) : needle <:+: s := by
  unfold upTo at h
  split at h
  · exact (List.suffix_append _ needle).isInfix.trans h.isInfix
  · have hl := h.length_le
    have hp := List.length_pos_iff.2 ht
    rw [List.length_append] at hl
    omega

theorem prefix_of_absent (h : b ∉ needle) (hp : needle <+: s ++ b :: t) : needle <+: s := by
  rcases List.prefix_or_prefix_of_prefix hp (List.prefix_append s (b :: t)) with hs | ⟨rest, rfl⟩
  · exact hs
  · rw [List.prefix_append_right_inj] at hp
    cases rest with
    | nil => simp
    | cons c rest =>
      rw [List.cons_prefix_cons] at hp
      exact absurd (hp.1 ▸ List.mem_append_right s List.mem_cons_self) h

/-- Between two texts, a character that is not in what is looked for keeps them from making up an
occurrence. -/
theorem infix_of_absent (h : b ∉ needle) (hi : needle <:+: s ++ b :: t) :
    needle <:+: s ∨ needle <:+: t := by
  induction s with
  | nil =>
    rcases List.infix_cons_iff.1 hi with hp | hi
    · exact Or.inl (prefix_of_absent (s := []) h hp).isInfix
    · exact Or.inr hi
  | cons c s ih =>
    rcases List.infix_cons_iff.1 hi with hp | hi
    · exact Or.inl (prefix_of_absent (s := c :: s) h hp).isInfix
    · exact (ih hi).imp_left fun hs => hs.trans (List.suffix_cons c s).isInfix

structure Solid (s : Text) : Prop where
  ne_nil : s ≠ []
  filled : ∀ c ∈ s, isBlank c = false

namespace Solid

theorem of_any (hn : s ≠ []) (h : s.any isBlank = false) : Solid s :=
  ⟨hn, fun _ hc => Bool.eq_false_iff.2 (List.any_eq_false.1 h _ hc)⟩

theorem newline_not_mem (h : Solid s) : '\n' ∉ s := fun hm => absurd (h.filled _ hm) (by decide)

/-- Between two texts, a blank keeps them from making up an occurrence. -/
theorem infix_of_append (h : Solid needle) (hb : isBlank b = true) (hi : needle <:+: s ++ b :: t) :
    needle <:+: s ∨ needle <:+: t := by
  refine infix_of_absent ?_ hi
  intro hm
  rw [h.filled b hm] at hb
  cases hb

theorem not_infix_blanks (h : Solid needle) (hs : s.all isBlank = true) : ¬ needle <:+: s := by
  intro hi
  obtain ⟨c, r, rfl⟩ := List.exists_cons_of_ne_nil h.ne_nil
  have := List.all_eq_true.1 hs c (hi.subset List.mem_cons_self)
  rw [h.filled c List.mem_cons_self] at this
  cases this

theorem infix_append_blanks (h : Solid needle) (ht : t.all isBlank = true)
    (hi : needle <:+: s ++ t) : needle <:+: s := by
  cases t with
  | nil => rwa [List.append_nil] at hi
  | cons b t =>
    rw [List.all_cons, Bool.and_eq_true] at ht
    exact (h.infix_of_append ht.1 hi).resolve_right (h.not_infix_blanks ht.2)

theorem infix_blanks_append (h : Solid needle) (hs : s.all isBlank = true)
    (hi : needle <:+: s ++ t) : needle <:+: t := by
  induction s with
  | nil => exact hi
  | cons b s ih =>
    rw [List.all_cons, Bool.and_eq_true] at hs
    exact ih hs.2 ((h.infix_of_append (s := []) hs.1 hi).resolve_left (h.not_infix_blanks rfl))

end Solid

theorem trimEnd_append (s : Text) : trimEnd s ++ (s.reverse.takeWhile isBlank).reverse = s := by
  rw [trimEnd, ← List.reverse_append, List.takeWhile_append_dropWhile, List.reverse_reverse]

theorem exists_trimEnd (s : Text) : ∃ b, b.all isBlank = true ∧ s = trimEnd s ++ b :=
  ⟨_, by rw [List.all_reverse]; exact List.all_takeWhile (l := s.reverse), (trimEnd_append s).symm⟩

theorem exists_trim (s : Text) :
    ∃ a b, a.all isBlank = true ∧ b.all isBlank = true ∧ s = a ++ trim s ++ b := by
  obtain ⟨b, hb, whole⟩ := exists_trimEnd (trimStart s)
  refine ⟨s.takeWhile isBlank, b, List.all_takeWhile, hb, ?_⟩
  rw [trim, List.append_assoc, ← whole]
  exact List.takeWhile_append_dropWhile.symm

/-- Trimming keeps all occurrences. -/
theorem Solid.infix_trim (h : Solid needle) : needle <:+: trim s ↔ needle <:+: s := by
  obtain ⟨a, b, ha, hb, he⟩ := exists_trim s
  constructor
  · intro hi
    rw [he]
    exact hi.trans (List.infix_append a (trim s) b)
  · intro hi
    rw [he] at hi
    exact h.infix_blanks_append ha (h.infix_append_blanks hb hi)

theorem trim_blanks_append (hs : s.all isBlank = true) (t : Text) : trim (s ++ t) = trim t := by
  rw [trim, trim, trimStart, trimStart, List.dropWhile_append_of_pos (List.all_eq_true.1 hs)]

theorem Tight.trim_append (h : Tight s) (t : Text) : trim (s ++ t) = s ++ trimEnd t := by
  have start : trimStart (s ++ t) = s ++ t := by
    obtain ⟨c, r, rfl⟩ := List.exists_cons_of_ne_nil h.ne_nil
    exact List.dropWhile_cons_of_neg (by simp [h.head c rfl])
  have back : s.reverse.dropWhile isBlank = s.reverse :=
    dropWhile_blanks (a := []) rfl fun c hc => h.last c (by rwa [← List.head?_reverse])
  rw [trim, start, trimEnd, trimEnd, List.reverse_append, List.dropWhile_append, back]
  split
  · next he => simp [List.isEmpty_iff.1 he]
  · simp

theorem Solid.tight (h : Solid s) : Tight s :=
  ⟨h.ne_nil, fun c hc => h.filled c (List.mem_of_head? hc),
    fun c hc => h.filled c (List.mem_of_getLast? hc)⟩

theorem Solid.trim_append (h : Solid s) (t : Text) : trim (s ++ t) = s ++ trimEnd t :=
  h.tight.trim_append t

theorem Solid.prefix_trim (h : Solid s) (hp : s <+: t) : s <+: trim t := by
  obtain ⟨u, rfl⟩ := hp
  rw [h.trim_append]
  exact List.prefix_append s (trimEnd u)

theorem Solid.prefix_of_line (h : Solid needle) (ht : t = [] ∨ ∃ rest, t = '\n' :: rest)
    (hp : needle <+: s ++ t) :
    needle <+: s := by
  rcases ht with rfl | ⟨rest, rfl⟩
  · rwa [List.append_nil] at hp
  · exact prefix_of_absent h.newline_not_mem hp

theorem Solid.upTo_line (h : Solid needle) (hs : ¬ needle <:+: s) (t : Text) :
    (upTo needle (s ++ '\n' :: t)).1 = s ++ '\n' :: (upTo needle t).1 := by
  have later : ∀ {s}, ¬ needle <+: s → after? needle (s ++ '\n' :: t) = none := by
    intro s hs
    cases ha : after? needle (s ++ '\n' :: t) with
    | none => rfl
    | some rest =>
      exact absurd (prefix_of_absent h.newline_not_mem ⟨rest, (after?_eq_some_iff.1 ha).symm⟩) hs
  have cut : cutAtText needle (s ++ '\n' :: t) =
      (cutAtText needle t).map (Prod.map (s ++ '\n' :: ·) id) := by
    induction s with
    | nil =>
      have first := later fun hp => h.ne_nil (List.prefix_nil.1 hp)
      rw [List.nil_append] at first
      rw [List.nil_append, cutAtText, first]
      rfl
    | cons c r ih =>
      rw [List.infix_cons_iff, not_or] at hs
      have first := later hs.1
      rw [List.cons_append] at first
      rw [List.cons_append, cutAtText, first, ih hs.2, Option.map_map]
      rfl
  rw [upTo, upTo, cut]
  cases cutAtText needle t with
  | none => rfl
  | some parts => simp

end SourcePreview.Text
