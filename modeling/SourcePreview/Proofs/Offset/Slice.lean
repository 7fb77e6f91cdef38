import SourcePreview.Expression.Evaluation

/-! Texts cut at byte offsets. A cut goes through only where a character begins or the text ends
(`splitAt?_eq_some_iff`); behind a text that was found in front of another one, it does
(`upTo_append`, `behind_append`). -/

namespace SourcePreview

/-- Why a computation with byte offsets breaks off. -/
inductive Panic where
  /-- A cut inside of a character or outside of a text. -/
  | boundary
  /-- An offset below zero. -/
  | underflow
  /-- More decimal places than can be written. -/
  | overwide (e : Overwide)
  deriving DecidableEq, Repr

namespace Text

theorem byteSize_cons (c : Char) (s : Text) : byteSize (c :: s) = c.utf8Size + byteSize s := rfl

theorem byteSize_reverse (s : Text) : byteSize s.reverse = byteSize s := by
  induction s with
  | nil => rfl
  | cons c s ih =>
    rw [List.reverse_cons, byteSize_append, ih, byteSize_cons, byteSize_cons, byteSize_nil,
      Nat.add_comm]; rfl

theorem length_le_byteSize (s : Text) : s.length ≤ byteSize s := by
  induction s with
  | nil => exact Nat.le_refl 0
  | cons c s ih =>
    have := c.utf8Size_pos
    rw [List.length_cons, byteSize_cons]
    omega

theorem byteSize_eq_length {s : Text} (h : ∀ c ∈ s, c.utf8Size = 1) : byteSize s = s.length := by
  induction s with
  | nil => rfl
  | cons c s ih =>
    rw [List.forall_mem_cons] at h
    rw [byteSize_cons, List.length_cons, h.1, ih h.2, Nat.add_comm]

theorem cutAtFirst_eq_none_iff {p : Char → Bool} {s : Text} :
    cutAtFirst p s = none ↔ ∀ c ∈ s, p c = false := by
  induction s with
  | nil => simp [cutAtFirst]
  | cons c r ih => cases hc : p c <;> simp [cutAtFirst, hc, ih]

theorem after?_singleton_cons (c : Char) (s : Text) : after? [c] (c :: s) = some s :=
  after?_eq_some_iff.2 rfl

end Text

namespace Offset

open Text (byteSize)

variable {s a m b : Text} {c : Char} {n : Nat}

/-- The texts on both sides of a byte offset. -/
def splitAt? : Nat → Text → Option (Text × Text)
  | 0, s => some ([], s)
  | _ + 1, [] => none
  | n + 1, c :: r =>
    if c.utf8Size ≤ n + 1 then (splitAt? (n + 1 - c.utf8Size) r).map fun (a, b) => (c :: a, b)
    else none

theorem splitAt?_append (a b : Text) : splitAt? (byteSize a) (a ++ b) = some (a, b) := by
  induction a with
  | nil => simp [splitAt?]
  | cons c a ih =>
    obtain ⟨k, hk⟩ : ∃ k, byteSize (c :: a) = k + 1 := by
      have := c.utf8Size_pos
      exact ⟨byteSize (c :: a) - 1, by rw [Text.byteSize_cons]; omega⟩
    have rest : k + 1 - c.utf8Size = byteSize a := by
      rw [← hk, Text.byteSize_cons]
      omega
    have fits : c.utf8Size ≤ k + 1 := by
      rw [← hk, Text.byteSize_cons]
      omega
    rw [hk, List.cons_append, splitAt?, if_pos fits, rest, ih]
    rfl

/-- A cut goes through at the boundaries between characters. -/
theorem splitAt?_eq_some_iff : splitAt? n s = some (a, b) ↔ s = a ++ b ∧ n = byteSize a := by
  constructor
  · intro h
    induction s generalizing n a with
    | nil =>
      cases n with
      | zero => cases h; exact ⟨rfl, rfl⟩
      | succ n => cases h
    | cons c r ih =>
      cases n with
      | zero => cases h; exact ⟨rfl, rfl⟩
      | succ n =>
        rw [splitAt?] at h
        split at h
        · next fits =>
          obtain ⟨⟨a', b'⟩, h, he⟩ := Option.map_eq_some_iff.1 h
          cases he
          obtain ⟨rfl, hn⟩ := ih h
          exact ⟨rfl, by rw [Text.byteSize_cons]; omega⟩
        · cases h
  · rintro ⟨rfl, rfl⟩
    exact splitAt?_append a b

def upTo (s : Text) (n : Nat) : Except Panic Text :=
  match splitAt? n s with
  | some (a, _) => .ok a
  | none => .error .boundary

def behind (s : Text) (n : Nat) : Except Panic Text :=
  match splitAt? n s with
  | some (_, b) => .ok b
  | none => .error .boundary

/-- The text between two offsets, which must be in order. -/
def between (s : Text) (n m : Nat) : Except Panic Text :=
  if n ≤ m then do behind (← upTo s m) n else .error .boundary

/-- The difference of two offsets. -/
def sub (m n : Nat) : Except Panic Nat := if n ≤ m then .ok (m - n) else .error .underflow

@[simp] theorem upTo_append (a b : Text) : upTo (a ++ b) (byteSize a) = .ok a := by
  rw [upTo, splitAt?_append]

@[simp] theorem behind_append (a b : Text) : behind (a ++ b) (byteSize a) = .ok b := by
  rw [behind, splitAt?_append]

theorem behind_cons (hc : c.utf8Size = 1) (a b : Text) :
    behind (a ++ c :: b) (byteSize a + 1) = .ok b := by
  have whole := behind_append (a ++ [c]) b
  rwa [Text.byteSize_append, Text.byteSize_cons, hc, Text.byteSize_nil, List.append_assoc] at whole

theorem between_append (a m b : Text) :
    between (a ++ (m ++ b)) (byteSize a) (byteSize a + byteSize m) = .ok m := by
  have front := upTo_append (a ++ m) b
  rw [List.append_assoc, Text.byteSize_append] at front
  rw [between, if_pos (Nat.le_add_right _ _), front]
  exact behind_append a m

theorem between_cons (hc : c.utf8Size = 1) (a b : Text) :
    between (a ++ c :: b) (byteSize a) (byteSize a + 1) = .ok [c] := by
  have cut := between_append a [c] b
  rwa [Text.byteSize_cons, Text.byteSize_nil, hc] at cut

theorem sub_add (m n : Nat) : sub (m + n) n = .ok m := by
  rw [sub, if_pos (Nat.le_add_left n m), Nat.add_sub_cancel]

/-- The offset of the first character of a class. -/
def find? (p : Char → Bool) : Text → Option Nat
  | [] => none
  | c :: r => if p c then some 0 else (find? p r).map (c.utf8Size + ·)

theorem find?_eq (p : Char → Bool) (s : Text) :
    find? p s = (Text.cutAtFirst p s).map fun (a, _, _) => byteSize a := by
  induction s with
  | nil => rfl
  | cons c r ih =>
    rw [find?, Text.cutAtFirst]
    split
    · rfl
    · rw [ih, Option.map_map, Option.map_map]
      rfl

example : upTo "aé(".toList 3 = .ok "aé".toList ∧ upTo "aé(".toList 2 = .error .boundary ∧
    behind "aé(".toList 5 = .error .boundary := ⟨rfl, rfl, rfl⟩

end Offset

end SourcePreview
