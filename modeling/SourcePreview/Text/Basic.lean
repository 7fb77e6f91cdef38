/-! Texts are lists of characters, so that a scan is a recursion on its input and the rest it leaves
is a plain list. This module holds blanks and trimming, and the search for one character or one
substring in a text. -/

namespace SourcePreview

abbrev Text := List Char

namespace Text

def byteSize (s : Text) : Nat := s.foldr (fun c n => c.utf8Size + n) 0

@[simp] theorem byteSize_nil : byteSize [] = 0 := rfl

@[simp] theorem byteSize_append (s t : Text) : byteSize (s ++ t) = byteSize s + byteSize t := by
  induction s with
  | nil => simp
  | cons c r ih =>
    show c.utf8Size + byteSize (r ++ t) = c.utf8Size + byteSize r + byteSize t
    omega

/-- A blank: a character of the Unicode property White_Space. -/
def isBlank (c : Char) : Bool :=
  let n := c.toNat
  n == 0x20 || (0x9 ≤ n && n ≤ 0xd) || n == 0x85 || n == 0xa0 || n == 0x1680 ||
    (0x2000 ≤ n && n ≤ 0x200a) ||
    n == 0x2028 || n == 0x2029 || n == 0x202f || n == 0x205f || n == 0x3000

def isBlankText (s : Text) : Bool := s.all isBlank

def trimStart (s : Text) : Text := s.dropWhile isBlank

def trimEnd (s : Text) : Text := (s.reverse.dropWhile isBlank).reverse

def trim (s : Text) : Text := trimEnd (trimStart s)

def trimEndOf (p : Char → Bool) (s : Text) : Text := (s.reverse.dropWhile p).reverse

theorem length_trimStart_le (s : Text) : (trimStart s).length ≤ s.length :=
  (List.dropWhile_sublist _).length_le

theorem length_trimEndOf_le (p : Char → Bool) (s : Text) : (trimEndOf p s).length ≤ s.length := by
  simpa [trimEndOf] using (List.dropWhile_sublist p (l := s.reverse)).length_le

theorem length_trimEnd_le (s : Text) : (trimEnd s).length ≤ s.length :=
  length_trimEndOf_le isBlank s

theorem length_trim_le (s : Text) : (trim s).length ≤ s.length :=
  Nat.le_trans (length_trimEnd_le _) (length_trimStart_le s)

/-- The longest beginning of a text in a class of characters, and the rest. -/
def spanOf (p : Char → Bool) (s : Text) : Text × Text := (s.takeWhile p, s.dropWhile p)

theorem spanOf_append (p : Char → Bool) (s : Text) : (spanOf p s).1 ++ (spanOf p s).2 = s :=
  List.takeWhile_append_dropWhile

theorem spanOf_append_cons {p : Char → Bool} (a : Text) {c : Char} (ha : a.all p = true)
    (hc : p c = false) (b : Text) :
    spanOf p (a ++ c :: b) = (a, c :: b) := by
  have ha := List.all_eq_true.1 ha
  unfold spanOf
  rw [List.takeWhile_append_of_pos ha, List.dropWhile_append_of_pos ha,
    List.takeWhile_cons_of_neg (by simp [hc]), List.dropWhile_cons_of_neg (by simp [hc]),
    List.append_nil]

theorem spanOf_eq_iff {p : Char → Bool} {s a b : Text} :
    spanOf p s = (a, b) ↔ s = a ++ b ∧ a.all p = true ∧ ∀ c, b.head? = some c → p c = false := by
  constructor
  · intro h
    obtain ⟨rfl, rfl⟩ := Prod.mk.inj h
    refine ⟨List.takeWhile_append_dropWhile.symm, List.all_takeWhile, fun c hc => ?_⟩
    have stops := List.head?_dropWhile_not p s
    rwa [hc] at stops
  · rintro ⟨rfl, ha, hb⟩
    cases b with
    | nil =>
      have ha := List.all_eq_true.1 ha
      rw [spanOf, List.takeWhile_append_of_pos ha, List.dropWhile_append_of_pos ha,
        List.takeWhile_nil, List.append_nil, List.dropWhile_nil]
    | cons c b => exact spanOf_append_cons a ha (hb c rfl) b

theorem spanOf_append_right {f : Char → Bool} {s a b : Text} (h : spanOf f s = (a, b)) (hb : b ≠ [])
    (t : Text) :
    spanOf f (s ++ t) = (a, b ++ t) := by
  obtain ⟨rfl, ha, stops⟩ := spanOf_eq_iff.1 h
  obtain ⟨c, b, rfl⟩ := List.exists_cons_of_ne_nil hb
  exact spanOf_eq_iff.2 ⟨List.append_assoc _ _ _, ha, stops⟩

/-- The text before the first character of a class, that character and the text after it. -/
def cutAtFirst (p : Char → Bool) : Text → Option (Text × Char × Text)
  | [] => none
  | c :: r => if p c then some ([], c, r) else (cutAtFirst p r).map fun (a, x, b) => (c :: a, x, b)

theorem eq_of_cutAtFirst {p : Char → Bool} {s a b : Text} {x : Char}
    (h : cutAtFirst p s = some (a, x, b)) :
    s = a ++ x :: b ∧ p x = true ∧ ∀ c ∈ a, p c = false := by
  induction s generalizing a with
  | nil => simp [cutAtFirst] at h
  | cons c r ih =>
    by_cases hc : p c = true
    · simp only [cutAtFirst, hc, if_true, Option.some.injEq, Prod.mk.injEq] at h
      obtain ⟨rfl, rfl, rfl⟩ := h
      simp [hc]
    · simp only [cutAtFirst, hc, Bool.false_eq_true, if_false, Option.map_eq_some_iff] at h
      obtain ⟨⟨a', x', b'⟩, h', heq⟩ := h
      simp only [Prod.mk.injEq] at heq
      obtain ⟨rfl, rfl, rfl⟩ := heq
      obtain ⟨rfl, hx, ha⟩ := ih h'
      exact ⟨rfl, hx, by simpa [hc] using ha⟩

theorem cutAtFirst_append {p : Char → Bool} {a : Text} {c : Char} (ha : a.any p = false)
    (hc : p c = true) (b : Text) :
    cutAtFirst p (a ++ c :: b) = some (a, c, b) := by
  induction a with
  | nil => rw [List.nil_append, cutAtFirst, if_pos hc]
  | cons x a ih =>
    rw [List.any_cons, Bool.or_eq_false_iff] at ha
    rw [List.cons_append, cutAtFirst, if_neg (by simp [ha.1]), ih ha.2]
    rfl

/-- What stands before the first character of a class goes on at least to where none of the class
has been met. -/
theorem mem_of_cutAtFirst {p : Char → Bool} {a r front rest : Text} {c x : Char}
    (absent : ∀ d ∈ a ++ [c], p d = false)
    (h : cutAtFirst p (a ++ c :: r) = some (front, x, rest)) : c ∈ front := by
  obtain ⟨whole, hx, -⟩ := eq_of_cutAtFirst h
  have split : (a ++ [c]) ++ r = front ++ x :: rest := by rw [List.append_assoc]; exact whole
  rcases List.append_eq_append_iff.1 split with ⟨m, rfl, -⟩ | ⟨m, he, hr⟩
  · simp
  · cases m with
    | nil =>
      rw [List.append_nil] at he
      rw [← he]
      simp
    | cons d m =>
      obtain ⟨rfl, -⟩ := List.cons.inj hr
      have unmet := absent x (he ▸ by simp)
      rw [hx] at unmet
      cases unmet

/-- The parts before and after the first occurrence of a character. -/
def splitOnce (sep : Char) (s : Text) : Option (Text × Text) :=
  (cutAtFirst (· == sep) s).map fun (a, _, b) => (a, b)

theorem eq_of_splitOnce {sep : Char} {s a b : Text} (h : splitOnce sep s = some (a, b)) :
    s = a ++ sep :: b := by
  simp only [splitOnce, Option.map_eq_some_iff, Prod.mk.injEq] at h
  obtain ⟨⟨u, x, v⟩, hc, rfl, rfl⟩ := h
  obtain ⟨hs, hx, -⟩ := eq_of_cutAtFirst hc
  rw [hs, eq_of_beq hx]

theorem length_lt_of_splitOnce {sep : Char} {s a b : Text} (h : splitOnce sep s = some (a, b)) :
    b.length < s.length + 1 := by
  rw [eq_of_splitOnce h, List.length_append, List.length_cons]
  omega

theorem splitOnce_append {sep : Char} {a : Text} (h : sep ∉ a) (b : Text) :
    splitOnce sep (a ++ sep :: b) = some (a, b) := by
  have before : a.any (· == sep) = false := by
    rw [List.any_eq_false]
    intro x hx
    rw [beq_iff_eq]
    rintro rfl
    exact h hx
  rw [splitOnce, cutAtFirst_append before (beq_self_eq_true sep)]
  rfl

/-- The parts before and after the last occurrence of a character. -/
def splitOnceLast (sep : Char) (s : Text) : Option (Text × Text) :=
  (splitOnce sep s.reverse).map fun (b, a) => (a.reverse, b.reverse)

/-- All parts between occurrences of a character; there is always one. -/
def splitAll (sep : Char) : Text → List Text
  | [] => [[]]
  | c :: r =>
    if c == sep then [] :: splitAll sep r
    else match splitAll sep r with
      | [] => [[c]]
      | p :: ps => (c :: p) :: ps

/-- What follows a given beginning of a text. -/
def after? : Text → Text → Option Text
  | [], s => some s
  | _ :: _, [] => none
  | a :: start, c :: s => if a = c then after? start s else none

/-- A text without the byte order mark in front of it. -/
def withoutMark (s : Text) : Text := (after? ['\ufeff'] s).getD s

theorem after?_eq_some_iff {start s rest : Text} :
    after? start s = some rest ↔ s = start ++ rest := by
  induction start generalizing s with
  | nil => simp [after?]
  | cons a start ih =>
    cases s with
    | nil => simp [after?]
    | cons c s =>
      by_cases h : a = c
      · simp [after?, h, ih]
      · simp [after?, h, eq_comm]

/-- What precedes a given end of a text. -/
def before? (final s : Text) : Option Text := (after? final.reverse s.reverse).map List.reverse

theorem before?_eq_some_iff {final s rest : Text} :
    before? final s = some rest ↔ s = rest ++ final := by
  simp only [before?, Option.map_eq_some_iff, after?_eq_some_iff]
  constructor
  · rintro ⟨r, h, rfl⟩
    have := congrArg List.reverse h
    simpa using this
  · rintro rfl
    exact ⟨rest.reverse, by simp, by simp⟩

def startsWith (start s : Text) : Bool := (after? start s).isSome

def endsWith (final s : Text) : Bool := (before? final s).isSome

/-- The text before the first occurrence of a substring, and the text after it. -/
def cutAtText (needle : Text) : Text → Option (Text × Text)
  | [] => if needle.isEmpty then some ([], []) else none
  | c :: r =>
    match after? needle (c :: r) with
    | some rest => some ([], rest)
    | none => (cutAtText needle r).map fun (a, b) => (c :: a, b)

def containsText (needle s : Text) : Bool := (cutAtText needle s).isSome

/-- The text without its last character, when that character is in a class. -/
def dropLastIf (p : Char → Bool) (s : Text) : Option Text :=
  match s.getLast? with
  | some c => if p c then some s.dropLast else none
  | none => none

theorem mem_getD_dropLastIf {p : Char → Bool} {s : Text} {c : Char} (h : c ∈ s)
    (other : p c = false) :
    c ∈ (dropLastIf p s).getD s := by
  unfold dropLastIf
  split
  · next last hl =>
    split
    · next hp =>
      obtain ⟨r, rfl⟩ := List.getLast?_eq_some_iff.1 hl
      rcases List.mem_append.1 h with h | h
      · rwa [Option.getD_some, List.dropLast_concat]
      · rw [List.mem_singleton.1 h, hp] at other
        cases other
    · exact h
  · exact h

def words (s : Text) : List Text :=
  go [] s
where
  go (current : Text) : Text → List Text
    | [] => if current.isEmpty then [] else [current.reverse]
    | c :: r =>
      if isBlank c then (if current.isEmpty then go [] r else current.reverse :: go [] r)
      else go (c :: current) r

/-- The words of a list with a separator between each two. -/
def join (sep : Text) (parts : List Text) : Text := sep.intercalate parts

theorem not_mem_join {c : Char} {sep : Text} {parts : List Text} (hsep : c ∉ sep)
    (h : ∀ s ∈ parts, c ∉ s) :
    c ∉ join sep parts := by
  unfold join
  induction parts with
  | nil => exact List.not_mem_nil
  | cons first others ih =>
    rw [List.forall_mem_cons] at h
    cases others with
    | nil =>
      rw [List.intercalate_singleton]
      exact h.1
    | cons second others =>
      rw [List.intercalate_cons_cons, List.mem_append, List.mem_append, not_or, not_or]
      exact ⟨⟨h.1, hsep⟩, ih h.2⟩

end Text

end SourcePreview
