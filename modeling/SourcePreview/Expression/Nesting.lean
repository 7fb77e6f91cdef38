import SourcePreview.Text.Basic

/-! Where a scan stands among brackets and quotes. A character is at the top level when it stands
outside of every bracket and every quoted text; inside of quotes a backslash hides the next
character. Brackets are counted, not matched by kind. -/

namespace SourcePreview

/-- The open brackets, the open quote, and whether a backslash hides the next character. -/
structure Nesting where
  depth : Nat
  quote : Option Char
  escaped : Bool
  deriving DecidableEq, Repr

namespace Nesting

def start : Nesting := ⟨0, none, false⟩

/-- Directly behind the opening bracket of an outermost pair. -/
def inside : Nesting := ⟨1, none, false⟩

def isQuote (c : Char) : Bool := c == '"' || c == '\''

def isOpening (c : Char) : Bool := c == '(' || c == '[' || c == '{'

def isClosing (c : Char) : Bool := c == ')' || c == ']' || c == '}'

/-- Where the scan stands after a character. A closing bracket too many does not count. -/
def step (n : Nesting) (c : Char) : Nesting :=
  match n.quote with
  | some q =>
    if n.escaped then { n with escaped := false }
    else if c == '\\' then { n with escaped := true }
    else if c == q then { n with quote := none }
    else n
  | none =>
    if isQuote c then { n with quote := some c }
    else if isOpening c then { n with depth := n.depth + 1 }
    else if isClosing c then { n with depth := n.depth - 1 }
    else n

def after (n : Nesting) (s : Text) : Nesting := s.foldl step n

/-- Whether the next character `c` is at the top level; quotes and brackets never are. -/
def isTop (n : Nesting) (c : Char) : Bool :=
  n.quote.isNone && n.depth == 0 && !isQuote c && !isOpening c && !isClosing c

/-- The part up to the first separator at the top level, and the parts behind the separators. -/
def cutTop (sep : Char) (n : Nesting) : Text → Text × List Text
  | [] => ([], [])
  | c :: r =>
    let (first, others) := cutTop sep (n.step c) r
    if n.isTop c && c == sep then ([], first :: others) else (c :: first, others)

/-- The parts between the separators at the top level; there is always one. -/
def splitTop (sep : Char) (s : Text) : List Text :=
  let (first, others) := cutTop sep start s
  first :: others

/-- The parts before and after the first separator at the top level. -/
def splitTopOnce (sep : Char) (n : Nesting) : Text → Option (Text × Text)
  | [] => none
  | c :: r =>
    if n.isTop c && c == sep then some ([], r)
    else (splitTopOnce sep (n.step c) r).map fun (a, b) => (c :: a, b)

/-- The text up to the bracket that closes the outermost pair, and the text behind it. -/
def closing? (n : Nesting) : Text → Option (Text × Text)
  | [] => none
  | c :: r =>
    if n.quote.isNone && isClosing c && n.depth ≤ 1 then
      (if n.depth = 1 then some ([], r) else none)
    else (closing? (n.step c) r).map fun (a, b) => (c :: a, b)

/-- What stands between the parentheses that enclose a whole text. -/
def enclosed? : Text → Option Text
  | '(' :: r =>
    match closing? inside r with
    | some (inner, []) => some inner
    | _ => none
  | _ => none

theorem length_cutTop (sep : Char) (n : Nesting) (s : Text) :
    (cutTop sep n s).1.length + ((cutTop sep n s).2.flatMap (sep :: ·)).length = s.length := by
  induction s generalizing n with
  | nil => rfl
  | cons c r ih =>
    have h := ih (n.step c)
    simp only [cutTop]
    split
    · simp only [List.length_nil, List.flatMap_cons, List.length_append, List.length_cons]; omega
    · simp only [List.length_cons]; omega

theorem length_le_of_mem_cutTop {sep : Char} {n : Nesting} {s p : Text}
    (h : p ∈ (cutTop sep n s).2) :
    p.length + 1 ≤ ((cutTop sep n s).2.flatMap (sep :: ·)).length := by
  generalize (cutTop sep n s).2 = ps at h
  induction ps with
  | nil => cases h
  | cons q qs ih =>
    simp only [List.flatMap_cons, List.length_append, List.length_cons]
    rcases List.mem_cons.1 h with rfl | h
    · omega
    · have := ih h; omega

theorem length_le_of_mem_splitTop {sep : Char} {s p : Text} (h : p ∈ splitTop sep s) :
    p.length ≤ s.length := by
  have e := length_cutTop sep start s
  rcases List.mem_cons.1 h with rfl | h
  · omega
  · have := length_le_of_mem_cutTop h; omega

theorem length_lt_of_mem_splitTop {sep : Char} {s p : Text} (h : p ∈ splitTop sep s)
    (several : 1 < (splitTop sep s).length) : p.length < s.length := by
  have e := length_cutTop sep start s
  simp only [splitTop] at h several
  rcases List.mem_cons.1 h with rfl | h
  · cases hs : (cutTop sep start s).2 with
    | nil => simp [hs] at several
    | cons q qs =>
      simp only [hs, List.flatMap_cons, List.length_append, List.length_cons] at e; omega
  · have := length_le_of_mem_cutTop h; omega

theorem eq_of_splitTopOnce {sep : Char} {n : Nesting} {s a b : Text}
    (h : splitTopOnce sep n s = some (a, b)) :
    s = a ++ sep :: b := by
  induction s generalizing n a with
  | nil => simp [splitTopOnce] at h
  | cons c r ih =>
    simp only [splitTopOnce] at h
    split at h
    · next hc =>
      simp only [Option.some.injEq, Prod.mk.injEq] at h
      obtain ⟨rfl, rfl⟩ := h
      simp only [Bool.and_eq_true, beq_iff_eq] at hc
      simp [hc.2]
    · obtain ⟨⟨a', b'⟩, h', heq⟩ := Option.map_eq_some_iff.1 h
      simp only [Prod.mk.injEq] at heq
      obtain ⟨rfl, rfl⟩ := heq
      simp [ih h']

theorem eq_of_closing? {n : Nesting} {s a b : Text} (h : closing? n s = some (a, b)) :
    ∃ c, isClosing c = true ∧ s = a ++ c :: b := by
  induction s generalizing n a with
  | nil => simp [closing?] at h
  | cons c r ih =>
    simp only [closing?] at h
    split at h
    · next hc =>
      split at h
      · simp only [Option.some.injEq, Prod.mk.injEq] at h
        obtain ⟨rfl, rfl⟩ := h
        simp only [Bool.and_eq_true] at hc
        exact ⟨c, hc.1.2, rfl⟩
      · cases h
    · obtain ⟨⟨a', b'⟩, h', heq⟩ := Option.map_eq_some_iff.1 h
      simp only [Prod.mk.injEq] at heq
      obtain ⟨rfl, rfl⟩ := heq
      obtain ⟨d, hd, rfl⟩ := ih h'
      exact ⟨d, hd, rfl⟩

theorem length_lt_of_enclosed? {s inner : Text} (h : enclosed? s = some inner) :
    inner.length < s.length := by
  unfold enclosed? at h
  split at h
  · next r =>
    split at h
    · next hc =>
      cases h
      obtain ⟨c, -, rfl⟩ := eq_of_closing? hc
      simp only [List.length_cons, List.length_append]
      omega
    · cases h
  · cases h

example : splitTop ',' "a, f(b, c), \"d, e\"".toList = ["a".toList, " f(b, c)".toList,
      " \"d, e\"".toList] := by
  decide +kernel

end Nesting

end SourcePreview
