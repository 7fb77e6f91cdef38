import SourcePreview.Expression.Call
import SourcePreview.Proofs.Expression.Closed
import SourcePreview.Proofs.Expression.Shape
import SourcePreview.Proofs.Text.Lines

/-! Calls that cover a whole text, as they are written: the dotted name of a function, perhaps
blanks, and a closed text in parentheses. They are the calls that are found
(`Call.ofText?_trim`). -/

namespace SourcePreview

namespace Text

variable {sep c : Char} {s : Text}

theorem exists_mem_splitAll (h : c ∈ s) (other : c ≠ sep) : ∃ part ∈ splitAll sep s, c ∈ part := by
  induction s with
  | nil => cases h
  | cons d r ih =>
    rw [splitAll]
    split
    · next hd =>
      have later : c ∈ r := by
        rcases List.mem_cons.1 h with rfl | h
        · exact absurd (eq_of_beq hd) other
        · exact h
      obtain ⟨part, mem, hc⟩ := ih later
      exact ⟨part, List.mem_cons_of_mem [] mem, hc⟩
    · split
      · next none =>
        rcases List.mem_cons.1 h with rfl | h
        · exact ⟨[c], by simp, by simp⟩
        · obtain ⟨part, mem, -⟩ := ih h
          rw [none] at mem
          cases mem
      · next first parts hr =>
        rcases List.mem_cons.1 h with rfl | h
        · exact ⟨c :: first, by simp, by simp⟩
        · obtain ⟨part, mem, hc⟩ := ih h
          rw [hr] at mem
          rcases List.mem_cons.1 mem with rfl | mem
          · exact ⟨d :: part, by simp, by simp [hc]⟩
          · exact ⟨part, by simp [mem], hc⟩

theorem trimEnd_blanks {b : Text} (last : ∀ c, s.getLast? = some c → isBlank c = false)
    (hb : b.all isBlank = true) :
    trimEnd (s ++ b) = s := by
  rw [trimEnd, List.reverse_append, dropWhile_blanks (by simpa using hb) fun c hc =>
    last c (by rwa [← List.head?_reverse]), List.reverse_reverse]

theorem getLast?_trimEnd (h : (trimEnd s).getLast? = some c) : isBlank c = false := by
  rw [trimEnd, List.getLast?_reverse] at h
  have := List.head?_dropWhile_not isBlank s.reverse
  rw [h] at this
  simpa using this

theorem getLast?_trim (h : (trim s).getLast? = some c) : isBlank c = false := getLast?_trimEnd h

end Text

theorem plain_of_isBlank {c : Char} (h : Text.isBlank c = true) :
    Nesting.isPlain c = true ∧ c ≠ '#' ∧ c ≠ '/' := by
  have key : ∀ n ∈ Text.blankPoints, Nesting.isPlain (Char.ofNat n) = true ∧ Char.ofNat n ≠ '#' ∧
      Char.ofNat n ≠ '/' := by
    decide
  have := key c.toNat (Text.mem_blankPoints h)
  rwa [Char.ofNat_toNat] at this

theorem not_isDigit_of_isBlank {c : Char} (h : Text.isBlank c = true) :
    Number.isDigit c = false := by
  cases digit : Number.isDigit c with
  | false => rfl
  | true =>
    rw [Text.isBlank_of_isNamePart (isNamePart_of_isDigit digit)] at h
    cases h

theorem plain_of_blanks {s : Text} (blank : s.all Text.isBlank = true) :
    s.all Nesting.isPlain = true :=
  List.all_eq_true.2 fun c hc => (plain_of_isBlank (List.all_eq_true.1 blank c hc)).1

theorem ofChar?_of_isBlank {c : Char} (h : Text.isBlank c = true) : Operator.ofChar? c = none := by
  have key : ∀ n ∈ Text.blankPoints, Operator.ofChar? (Char.ofNat n) = none := by decide
  have := key c.toNat (Text.mem_blankPoints h)
  rwa [Char.ofNat_toNat] at this

theorem Nesting.Hidden.of_blanks {s : Text} (blank : s.all Text.isBlank = true) : Hidden s :=
  .of_plain fun c hc =>
    have hb := List.all_eq_true.1 blank c hc
    ⟨(plain_of_isBlank hb).1, ofChar?_of_isBlank hb⟩

namespace Call

variable {call : Call} {s : Text}

theorem forall_mem_of_isPath (h : isPath s = true) :
    ∀ c ∈ s, Text.isNamePart c = true ∨ c = '.' := by
  intro c hc
  by_cases dot : c = '.'
  · exact Or.inr dot
  · obtain ⟨part, mem, hc⟩ := Text.exists_mem_splitAll hc dot
    exact Or.inl ((atom_of_isIdentifier (List.all_eq_true.1 h part mem)).parts c hc)

theorem ne_nil_of_isPath (h : isPath s = true) : s ≠ [] := by
  rintro rfl
  exact absurd h (by decide)

theorem isBlank_of_isPath (h : isPath s = true) : ∀ c ∈ s, Text.isBlank c = false := by
  intro c hc
  rcases forall_mem_of_isPath h c hc with part | rfl
  · exact Text.isBlank_of_isNamePart part
  · rfl

theorem not_mem_of_isPath (h : isPath s = true) {c : Char} (mark : c ∈ marks) (dot : c ≠ '.') :
    c ∉ s := by
  intro hc
  rcases forall_mem_of_isPath h c hc with part | rfl
  · exact not_mem_marks part mark
  · exact dot rfl

/-- A call as it is written: blanks may stand before the parentheses, which need not be of one
kind. -/
def Covers (call : Call) (s : Text) : Prop :=
  ∃ gap close, gap.all Text.isBlank = true ∧ Nesting.isClosing close = true ∧
    Nesting.Closed call.inner ∧
    s = call.function ++ gap ++ '(' :: (call.inner ++ [close])

theorem not_covers (h : (s.getLast?.all fun c => !Nesting.isClosing c) = true) :
    ¬ call.Covers s := by
  rintro ⟨gap, close, -, closing, -, rfl⟩
  rw [← List.cons_append, ← List.append_assoc, List.getLast?_concat, Option.all_some, closing] at h
  cases h

def written (call : Call) : Text := call.function ++ '(' :: (call.inner ++ [')'])

theorem covers_written (closed : Nesting.Closed call.inner) : call.Covers call.written :=
  ⟨[], ')', rfl, rfl, closed, by simp [written]⟩

theorem ofText?_of_covers (path : isPath call.function = true) (h : call.Covers s) :
    ofText? s = some call := by
  obtain ⟨gap, close, blanks, closing, closed, rfl⟩ := h
  have solid := isBlank_of_isPath path
  have unopened : (call.function ++ gap).any (· == '(') = false := by
    rw [List.any_eq_false]
    intro c hc
    rw [beq_iff_eq]
    rintro rfl
    rcases List.mem_append.1 hc with hc | hc
    · exact not_mem_of_isPath path (by decide) (by decide) hc
    · exact absurd (List.all_eq_true.1 blanks _ hc) (by decide)
  have named : Text.trimEnd (call.function ++ gap) = call.function :=
    Text.trimEnd_blanks (fun c hc => solid c (List.mem_of_getLast? hc)) blanks
  have filled : Text.isBlank close = false := by
    simp only [Nesting.isClosing, Bool.or_eq_true, beq_iff_eq] at closing
    rcases closing with (rfl | rfl) | rfl <;> rfl
  have tight : Text.Tight ('(' :: (call.inner ++ [close])) :=
    Text.tight_append_singleton rfl filled call.inner
  rw [ofText?, Text.cutAtFirst_append unopened rfl, Option.bind_some]
  dsimp only
  rw [named, if_pos path, tight.trim_eq, closed.enclosed?_eq closing]
  rfl

/-- The calls found in a text without blanks at its ends are those it is the writing of. -/
theorem ofText?_trim (s : Text) :
    ofText? (Text.trim s) = some call ↔ isPath call.function = true ∧
    call.Covers (Text.trim s) := by
  refine ⟨fun h => ?_, fun h => ofText?_of_covers h.1 h.2⟩
  obtain ⟨⟨front, paren, r⟩, cut, h⟩ := Option.bind_eq_some_iff.1 h
  obtain ⟨whole, opened, -⟩ := Text.eq_of_cutAtFirst cut
  obtain rfl : paren = '(' := eq_of_beq opened
  dsimp only at h
  split at h
  · next path =>
    have tight : Text.Tight ('(' :: r) := by
      refine ⟨List.cons_ne_nil _ _, fun c hc => ?_, fun c hc => ?_⟩
      · rw [← Option.some.inj hc]
        rfl
      · refine Text.getLast?_trim (s := s) ?_
        rw [whole, List.getLast?_append, hc]
        rfl
    obtain ⟨inner, hi, rfl⟩ := Option.map_eq_some_iff.1 h
    rw [tight.trim_eq] at hi
    obtain ⟨close, closing, he, closed⟩ := Nesting.closed_of_enclosed? hi
    refine ⟨path, (front.reverse.takeWhile Text.isBlank).reverse, close, ?_, closing, closed, ?_⟩
    · rw [List.all_reverse]
      exact List.all_takeWhile
    · rw [whole, he, Text.trimEnd_append]
  · cases h

theorem ofText?_eq_none {a r : Text} {c : Char} (unopened : '(' ∉ a ++ [c]) (mark : c ∈ marks)
    (dot : c ≠ '.')
    (blank : Text.isBlank c = false) : ofText? (a ++ c :: r) = none := by
  rw [ofText?, Option.bind_eq_none_iff]
  rintro ⟨front, paren, rest⟩ cut
  -- the parenthesis stands behind the character
  have before : c ∈ front := by
    refine Text.mem_of_cutAtFirst (fun d hd => beq_eq_false_iff_ne.2 ?_) cut
    rintro rfl
    exact unopened hd
  have kept : c ∈ Text.trimEnd front := by
    rw [← Text.trimEnd_append front, List.mem_append, List.mem_reverse] at before
    refine before.resolve_right fun hm => ?_
    have := List.all_eq_true.1 List.all_takeWhile c hm
    rw [blank] at this
    cases this
  exact if_neg fun path => not_mem_of_isPath path mark dot kept

end Call

end SourcePreview
