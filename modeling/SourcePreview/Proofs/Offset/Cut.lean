import SourcePreview.Proofs.Offset.Nesting
import SourcePreview.Statement.Assignment

/-! The cut of an expression at its operator, and the cut of an assignment at its sign, by byte
offsets. -/

namespace SourcePreview

theorem Operator.utf8Size_symbol (op : Operator) : op.symbol.utf8Size = 1 := by
  cases op <;> rfl

namespace Offset

open Text (byteSize)

/-- The operators of both ranks found last, with their offsets. -/
structure Operators where
  additive : Option (Nat × Operator)
  multiplicative : Option (Nat × Operator)

def Operators.add (found : Operators) (offset : Nat) (c : Char) (before after : Text) :
    Option Operators :=
  match Operator.ofChar? c with
  | none => some found
  | some op =>
    match op with
    | .add =>
      some (if Cut.isSign before then found else { found with additive := some (offset, op) })
    | .sub =>
      some (if Cut.isSign before then found else { found with additive := some (offset, op) })
    | .mul =>
      if Cut.isDoubled c before after then none
      else some { found with multiplicative := some (offset, op) }
    | .div =>
      if Cut.isDoubled c before after then none
      else some { found with multiplicative := some (offset, op) }

def operators? (before : Text) (found : Operators) : List TopChar → Option Operators
  | [] => some found
  | t :: rest =>
    if t.top then
      (found.add t.offset t.char before (rest.map TopChar.char)).bind fun found =>
      operators? (t.char :: before) found rest
    else operators? (t.char :: before) found rest

/-- The offset of the operator that an expression is cut at. -/
def operator? (s : Text) : Option (Nat × Operator) :=
  (operators? [] ⟨none, none⟩ (topChars .start 0 s)).bind fun found =>
  found.additive.or found.multiplicative

def cut? (s : Text) : Except Panic (Option Cut) :=
  match operator? s with
  | none => .ok none
  | some (offset, op) => do .ok (some ⟨← upTo s offset, op, ← behind s (offset + 1)⟩)

def place (cut : Cut) : Nat × Operator := (byteSize cut.left, cut.op)

def places (found : Cut.Candidates) : Operators :=
  ⟨found.additive.map place, found.multiplicative.map place⟩

theorem add_places (found : Cut.Candidates) (c : Char) (before after : Text) :
    (places found).add (byteSize before) c before after =
      (found.add c before after).map places := by
  unfold Operators.add Cut.Candidates.add
  cases Operator.ofChar? c with
  | none => rfl
  | some op =>
    cases op with
    | add => by_cases h : Cut.isSign before = true <;> simp [h, places, place]
    | sub => by_cases h : Cut.isSign before = true <;> simp [h, places, place]
    | mul => by_cases h : Cut.isDoubled c before after = true <;> simp [h, places, place]
    | div => by_cases h : Cut.isDoubled c before after = true <;> simp [h, places, place]

theorem operators?_places (n : Nesting) (before : Text) (found : Cut.Candidates) (s : Text) :
    operators? before (places found) (topChars n (byteSize before) s) =
      (Cut.scan n before found s).map places := by
  induction s generalizing n before found with
  | nil => rfl
  | cons c r ih =>
    have next : ∀ found,
        operators? (c :: before) (places found)
        (topChars (n.step c) (byteSize before + c.utf8Size) r) =
        (Cut.scan (n.step c) (c :: before) found r).map places := by
      intro found
      rw [Nat.add_comm]
      exact ih (n.step c) (c :: before) found
    rw [topChars, operators?, Cut.scan]
    dsimp only
    split
    · rw [map_char_topChars, add_places]
      cases found.add c before r with
      | none => rfl
      | some found => exact next found
    · exact next found

theorem operator?_eq (s : Text) : operator? s = (Cut.ofText? s).map place := by
  have found := operators?_places .start [] ⟨none, none⟩ s
  rw [operator?, show topChars .start 0 s = topChars .start (byteSize []) s from rfl]
  change operators? [] ⟨none, none⟩ _ = _ at found
  rw [found, Cut.ofText?]
  cases Cut.scan .start [] ⟨none, none⟩ s with
  | none => rfl
  | some found =>
    simp only [Option.map_some, Option.bind_some, places]
    cases found.additive with
    | some cut => simp [place, Text.byteSize_reverse]
    | none => cases found.multiplicative <;> simp [place, Text.byteSize_reverse]

theorem cut?_eq (s : Text) : cut? s = .ok (Cut.ofText? s) := by
  rw [cut?, operator?_eq]
  cases h : Cut.ofText? s with
  | none => rfl
  | some cut =>
    have whole := Cut.eq_of_ofText? h
    have left := upTo_append cut.left (cut.op.symbol :: cut.right)
    have right := behind_cons cut.op.utf8Size_symbol cut.left cut.right
    rw [← whole] at left right
    simp only [Option.map_some, place, left, right]
    rfl

/-- The sides of an assignment at the equals sign at an offset, between the character `last` with
its offset and the character `next`. -/
def assignmentAt? (s : Text) (last : Option (Nat × Char)) (offset : Nat) (next : Option Char) :
    Except Panic (Option AssignmentParts) :=
  if next == some '=' then .ok none
  else
    match last with
    | none => do .ok (some ⟨← upTo s offset, none, ← behind s (offset + 1)⟩)
    | some (before, c) =>
      if AssignmentParts.isComparison c then .ok none
      else
        match Operator.ofChar? c with
        | some op => do .ok (some ⟨← upTo s before, some op, ← behind s (offset + 1)⟩)
        | none => do .ok (some ⟨← upTo s offset, none, ← behind s (offset + 1)⟩)

/-- The sides of an assignment in a scan behind the character `last`. -/
def assignmentFrom? (s : Text) (last : Option (Nat × Char)) :
    List TopChar → Except Panic (Option AssignmentParts)
  | [] => .ok none
  | t :: rest =>
    if t.top && t.char == '=' then assignmentAt? s last t.offset (rest.head?.map TopChar.char)
    else assignmentFrom? s (some (t.offset, t.char)) rest

def assignment? (s : Text) : Except Panic (Option AssignmentParts) :=
  assignmentFrom? s none (topChars .start 0 s)

/-- The last character of a reversed text, and its offset. -/
def last? : Text → Option (Nat × Char)
  | [] => none
  | c :: before => some (byteSize before, c)

theorem assignmentAt?_eq (before r : Text) :
    assignmentAt? (before.reverse ++ '=' :: r) (last? before) (byteSize before) r.head? =
      .ok (AssignmentParts.atEquals before r) := by
  have left := upTo_append before.reverse ('=' :: r)
  have right := behind_cons (c := '=') rfl before.reverse r
  rw [Text.byteSize_reverse] at left right
  unfold assignmentAt? AssignmentParts.atEquals
  split
  · rfl
  · cases before with
    | nil =>
      dsimp only [last?]
      rw [left, right]
      rfl
    | cons p before =>
      dsimp only [last?]
      split
      · rfl
      · cases Operator.ofChar? p with
        | none =>
          dsimp only
          rw [left, right]
          rfl
        | some op =>
          have front := upTo_append before.reverse ([p] ++ '=' :: r)
          rw [Text.byteSize_reverse, ← List.append_assoc, ← List.reverse_cons] at front
          dsimp only
          rw [front, right]
          rfl

theorem assignmentFrom?_eq (n : Nesting) (before r : Text) :
    assignmentFrom? (before.reverse ++ r) (last? before) (topChars n (byteSize before) r) =
      .ok (AssignmentParts.scan n before r) := by
  induction r generalizing n before with
  | nil => rfl
  | cons c r ih =>
    rw [topChars, assignmentFrom?, AssignmentParts.scan]
    dsimp only
    split
    · next hc =>
      rw [Bool.and_eq_true, beq_iff_eq] at hc
      obtain ⟨-, rfl⟩ := hc
      have next : (topChars (n.step '=') (byteSize before + '='.utf8Size) r).head?.map
          TopChar.char = r.head? := by
        cases r <;> rfl
      rw [next, assignmentAt?_eq]
    · have next := ih (n.step c) (c :: before)
      rw [List.reverse_cons, List.append_assoc, List.singleton_append, Text.byteSize_cons,
        Nat.add_comm] at next
      exact next

theorem assignment?_eq (s : Text) : assignment? s = .ok (AssignmentParts.ofText? s) :=
  assignmentFrom?_eq .start [] s

end Offset

end SourcePreview
