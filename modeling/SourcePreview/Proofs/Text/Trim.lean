import SourcePreview.Text.Letter

/-! Texts without blanks at their ends, and what trimming leaves of a text with blanks around it. No
blank can be part of a name. -/

namespace SourcePreview.Text

/-- A text that is not empty and has no blank at either end. -/
structure Tight (s : Text) : Prop where
  ne_nil : s ≠ []
  head : ∀ c, s.head? = some c → isBlank c = false
  last : ∀ c, s.getLast? = some c → isBlank c = false

instance (s : Text) : Decidable (Tight s) :=
  decidable_of_iff (s ≠ [] ∧ s.head?.all (!isBlank ·) = true ∧
    s.getLast?.all (!isBlank ·) = true) (by
    simp only [Option.all_eq_true, Bool.not_eq_true']
    exact ⟨fun h => ⟨h.1, h.2.1, h.2.2⟩, fun h => ⟨h.1, h.2, h.3⟩⟩)

theorem dropWhile_blanks {a s : Text} (ha : a.all isBlank = true)
    (hs : ∀ c, s.head? = some c → isBlank c = false) :
    (a ++ s).dropWhile isBlank = s := by
  induction a with
  | nil =>
    cases s with
    | nil => rfl
    | cons c r => exact List.dropWhile_cons_of_neg (by simpa using hs c rfl)
  | cons c a ih =>
    rw [List.all_cons, Bool.and_eq_true] at ha
    rw [List.cons_append, List.dropWhile_cons_of_pos ha.1]
    exact ih ha.2

theorem trim_blanks {a s b : Text} (hs : Tight s) (ha : a.all isBlank = true)
    (hb : b.all isBlank = true) :
    trim (a ++ s ++ b) = s := by
  have start : trimStart (a ++ (s ++ b)) = s ++ b := by
    obtain ⟨c, r, rfl⟩ := List.exists_cons_of_ne_nil hs.ne_nil
    exact dropWhile_blanks ha hs.head
  unfold trim trimEnd
  rw [List.append_assoc, start, List.reverse_append]
  rw [dropWhile_blanks (by simpa using hb) fun c hc => hs.last c (by rwa [← List.head?_reverse])]
  exact List.reverse_reverse s

theorem Tight.trim_eq {s : Text} (hs : Tight s) : trim s = s := by
  simpa using trim_blanks (a := []) (b := []) hs rfl rfl

theorem Tight.trim_blank_cons {s : Text} {b : Char} (hs : Tight s) (hb : isBlank b = true) :
    trim (b :: s) = s := by
  simpa using trim_blanks (a := [b]) (b := []) hs (by simp [hb]) rfl

theorem tight_append_singleton {c d : Char} (hc : isBlank c = false) (hd : isBlank d = false)
    (s : Text) :
    Tight (c :: s ++ [d]) := by
  refine ⟨List.cons_ne_nil _ _, ?_, ?_⟩
  · intro x hx
    rwa [← Option.some.inj hx]
  · intro x hx
    rw [List.getLast?_concat] at hx
    rwa [← Option.some.inj hx]

theorem Tight.append {s t : Text} (hs : Tight s) (m : Text) (ht : Tight t) :
    Tight (s ++ (m ++ t)) := by
  refine ⟨by simp [hs.ne_nil], fun c hc => hs.head c ?_, fun c hc => ht.last c ?_⟩
  · obtain ⟨d, r, rfl⟩ := List.exists_cons_of_ne_nil hs.ne_nil
    exact hc
  · rw [List.getLast?_append, List.getLast?_append, List.getLast?_eq_some_getLast ht.ne_nil] at hc
    rw [List.getLast?_eq_some_getLast ht.ne_nil]
    exact hc

theorem head?_trim {c : Char} (hc : isBlank c = false) (r : Text) :
    (trim (c :: r)).head? = some c := by
  have start : trimStart (c :: r) = c :: r := List.dropWhile_cons_of_neg (by simp [hc])
  have single : [c].dropWhile isBlank = [c] := List.dropWhile_cons_of_neg (by simp [hc])
  rw [trim, start, trimEnd, List.reverse_cons, List.dropWhile_append, single]
  split
  · rfl
  · rw [List.reverse_append]
    rfl

def blankPoints : List Nat :=
  [0x20, 0x9, 0xa, 0xb, 0xc, 0xd, 0x85, 0xa0, 0x1680, 0x2000, 0x2001, 0x2002, 0x2003, 0x2004,
    0x2005, 0x2006, 0x2007, 0x2008, 0x2009, 0x200a, 0x2028, 0x2029, 0x202f, 0x205f, 0x3000]

theorem mem_blankPoints {c : Char} (h : isBlank c = true) : c.toNat ∈ blankPoints := by
  simp only [isBlank, Bool.or_eq_true, Bool.and_eq_true, beq_iff_eq, decide_eq_true_eq] at h
  simp only [blankPoints, List.mem_cons, List.not_mem_nil, or_false]
  omega

theorem isNamePart_of_isBlank {c : Char} (h : isBlank c = true) : isNamePart c = false := by
  have key : ∀ n ∈ blankPoints, isNamePart (Char.ofNat n) = false := by decide +kernel
  have := key c.toNat (mem_blankPoints h)
  rwa [Char.ofNat_toNat] at this

theorem isBlank_of_isNamePart {c : Char} (h : isNamePart c = true) : isBlank c = false := by
  cases hb : isBlank c with
  | false => rfl
  | true => rw [isNamePart_of_isBlank hb] at h; cases h

end SourcePreview.Text
