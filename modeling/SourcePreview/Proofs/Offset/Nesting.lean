import SourcePreview.Proofs.Expression.Part
import SourcePreview.Proofs.Offset.Slice

/-! Scans that tell where a character stands by its byte offset, and the cuts at these offsets.
Every delimiter is one byte, so a cut in front of it and a cut behind it go through, and find what
the scan over characters finds. -/

namespace SourcePreview.Offset

open Text (byteSize)
open Nesting (isClosing)

/-- A character of a text, its offset, and whether it is at the top level. -/
structure TopChar where
  offset : Nat
  char : Char
  top : Bool

def topChars (n : Nesting) (offset : Nat) : Text → List TopChar
  | [] => []
  | c :: r => ⟨offset, c, n.isTop c⟩ :: topChars (n.step c) (offset + c.utf8Size) r

theorem map_char_topChars (n : Nesting) (offset : Nat) (s : Text) :
    (topChars n offset s).map TopChar.char = s := by
  induction s generalizing n offset with
  | nil => rfl
  | cons c r ih => rw [topChars, List.map_cons, ih]

theorem byteSize_concat (a : Text) (c : Char) : byteSize (a ++ [c]) = byteSize a + c.utf8Size := by
  rw [Text.byteSize_append, Text.byteSize_cons, Text.byteSize_nil, Nat.add_zero]

def cutParts (sep : Char) (s : Text) (first : Nat) : List TopChar → Except Panic (List Text)
  | [] => do .ok [← behind s first]
  | t :: rest =>
    if t.top && t.char == sep then do
      let part ← between s first t.offset
      .ok (part :: (← cutParts sep s (t.offset + sep.utf8Size) rest))
    else cutParts sep s first rest

def splitTop (sep : Char) (s : Text) : Except Panic (List Text) :=
  cutParts sep s 0 (topChars .start 0 s)

theorem cutParts_eq (sep : Char) (n : Nesting) (before part r : Text) :
    cutParts sep (before ++ (part ++ r)) (byteSize before)
      (topChars n (byteSize before + byteSize part) r) =
      .ok ((part ++ (Nesting.cutTop sep n r).1) :: (Nesting.cutTop sep n r).2) := by
  -- a separator closes the part that was begun, and the next part begins behind it
  induction r generalizing n before part with
  | nil =>
    rw [topChars, cutParts, behind_append]
    rfl
  | cons c r ih =>
    rw [topChars, cutParts, Nesting.cutTop]
    dsimp only
    split
    · next hc =>
      rw [Bool.and_eq_true, beq_iff_eq] at hc
      obtain ⟨-, rfl⟩ := hc
      have next := ih (n.step c) (before ++ (part ++ [c])) []
      rw [Text.byteSize_append, byteSize_concat, Text.byteSize_nil, Nat.add_zero, List.append_assoc,
        List.append_assoc, List.nil_append, List.singleton_append] at next
      rw [between_append, Nat.add_assoc, next]
      simp [bind, Except.bind]
    · have next := ih (n.step c) before (part ++ [c])
      rw [byteSize_concat, List.append_assoc, List.singleton_append] at next
      rw [Nat.add_assoc, next, List.append_assoc]
      rfl

theorem splitTop_eq (sep : Char) (s : Text) : splitTop sep s = .ok (Nesting.splitTop sep s) :=
  cutParts_eq sep .start [] [] s

/-- The offset of the first separator at the top level. -/
def topOffset? (sep : Char) (s : Text) : Option Nat :=
  ((topChars .start 0 s).find? fun t => t.top && t.char == sep).map TopChar.offset

theorem topOffset?_eq (sep : Char) (s : Text) :
    topOffset? sep s = (Nesting.splitTopOnce sep .start s).map fun (a, _) => byteSize a := by
  have found : ∀ n k, ((topChars n k s).find? fun t => t.top && t.char == sep).map TopChar.offset =
      (Nesting.splitTopOnce sep n s).map fun (a, _) => k + byteSize a := by
    induction s with
    | nil => exact fun _ _ => rfl
    | cons c r ih =>
      intro n k
      rw [topChars, List.find?_cons, Nesting.splitTopOnce]
      dsimp only
      cases n.isTop c && c == sep with
      | true => rfl
      | false =>
        rw [if_neg Bool.false_ne_true, ih, Option.map_map]
        simp only [Function.comp_def, Text.byteSize_cons, Nat.add_assoc]
  simpa [topOffset?] using found .start 0

/-- The offset of the bracket that closes the outermost pair. -/
def closing? (n : Nesting) (offset : Nat) : Text → Option Nat
  | [] => none
  | c :: r =>
    if n.quote.isNone && isClosing c && n.depth ≤ 1 then (if n.depth = 1 then some offset else none)
    else closing? (n.step c) (offset + c.utf8Size) r

theorem closing?_eq (n : Nesting) (offset : Nat) (s : Text) :
    closing? n offset s = (Nesting.closing? n s).map fun (a, _) => offset + byteSize a := by
  induction s generalizing n offset with
  | nil => rfl
  | cons c r ih =>
    rw [closing?, Nesting.closing?]
    split
    · split <;> rfl
    · rw [ih, Option.map_map]
      simp only [Function.comp_def, Text.byteSize_cons, Nat.add_assoc]

/-- The offset of the bracket that closes the one at an offset. -/
def matchingClose? (s : Text) (opening : Nat) : Except Panic (Option Nat) := do
  .ok ((closing? .start 0 (← behind s opening)).map (opening + ·))

theorem matchingClose?_eq (f r : Text) : matchingClose? (f ++ '(' :: r) (byteSize f) =
    .ok ((Nesting.closing? .inside r).map fun (a, _) => byteSize f + (1 + byteSize a)) := by
  have opened : Nesting.start.step '(' = .inside := rfl
  have unclosed :
    (Nesting.start.quote.isNone && isClosing '(' && Nesting.start.depth ≤ 1) = false := rfl
  have first : closing? .start 0 ('(' :: r) = closing? .inside 1 r := by
    rw [closing?, unclosed, if_neg Bool.false_ne_true, opened]
    rfl
  rw [matchingClose?, behind_append]
  simp only [bind, Except.bind, first, closing?_eq, Option.map_map, Function.comp_def]

theorem utf8Size_of_isClosing {c : Char} (h : isClosing c = true) : c.utf8Size = 1 := by
  simp only [isClosing, Bool.or_eq_true, beq_iff_eq] at h
  rcases h with (rfl | rfl) | rfl <;> rfl

/-- What stands between the parenthesis at an offset and the one that closes it at the end of a
text. -/
def enclosedFrom? (s : Text) (opening : Nat) : Except Panic (Option Text) := do
  match ← matchingClose? s opening with
  | none => .ok none
  | some close =>
    if close = (← sub (byteSize s) 1) then
      .ok (some (← between s (opening + 1) (← sub (byteSize s) 1)))
    else .ok none

theorem enclosedFrom?_eq (f r : Text) :
    enclosedFrom? (f ++ '(' :: r) (byteSize f) = .ok (Nesting.enclosed? ('(' :: r)) := by
  rw [enclosedFrom?, matchingClose?_eq, Nesting.enclosed?]
  cases hr : Nesting.closing? .inside r with
  | none => rfl
  | some parts =>
    obtain ⟨a, b⟩ := parts
    obtain ⟨c, hc, rfl⟩ := Nesting.eq_of_closing? hr
    have last : sub (byteSize (f ++ '(' :: (a ++ c :: b))) 1 =
        .ok (byteSize f + (1 + byteSize a) + byteSize b) := by
      have paren : '('.utf8Size = 1 := rfl
      rw [Text.byteSize_append, Text.byteSize_cons, Text.byteSize_append, Text.byteSize_cons,
        utf8Size_of_isClosing hc, paren]
      rw [← sub_add (byteSize f + (1 + byteSize a) + byteSize b) 1]
      congr 1
      omega
    simp only [bind, Except.bind, Option.map_some, last]
    cases b with
    | nil =>
      have inner := between_append (f ++ ['(']) a [c]
      rw [List.append_assoc, byteSize_concat] at inner
      simp only [Text.byteSize_nil, Nat.add_zero, if_true, ← Nat.add_assoc]
      exact congrArg (fun x : Except Panic Text => x.bind fun t => Except.ok (some t)) inner
    | cons d b =>
      have past :
          byteSize f + (1 + byteSize a) ≠ byteSize f + (1 + byteSize a) + byteSize (d :: b) := by
        have := d.utf8Size_pos
        rw [Text.byteSize_cons]
        omega
      rw [if_neg past]

/-- What stands between the parentheses that enclose a whole text. -/
def enclosed? (s : Text) : Except Panic (Option Text) :=
  if Text.startsWith ['('] s then enclosedFrom? s 0 else .ok none

theorem enclosed?_eq (s : Text) : enclosed? s = .ok (Nesting.enclosed? s) := by
  unfold enclosed?
  split
  · next h =>
    obtain ⟨r, hr⟩ := Option.isSome_iff_exists.1 h
    rw [Text.after?_eq_some_iff.1 hr]
    exact enclosedFrom?_eq [] r
  · next h =>
    have other : Nesting.enclosed? s = none := by
      unfold Nesting.enclosed?
      split
      · next r => exact absurd rfl h
      · rfl
    rw [other]

end SourcePreview.Offset
