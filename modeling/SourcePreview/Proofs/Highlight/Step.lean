import SourcePreview.Proofs.Highlight.Place

/-! One step of the highlighter: the token that a text begins with, by what stands there. -/

namespace SourcePreview

namespace Token

variable {p : Profile} {c : Char} {r text rest : Text}

def isNumberPart (c : Char) : Bool := Number.isDigit c || c == '.'

theorem next_of_comment? (h : comment? p (c :: r) = some (text, rest)) :
    next p c r = (⟨.comment, text⟩, rest) := by
  simp only [next, h]

theorem next_of_string? (uncommented : comment? p (c :: r) = none)
    (h : string? p (c :: r) = some (text, rest)) :
    next p c r = (⟨.string, text⟩, rest) := by
  simp only [next, uncommented, h]

section Unquoted

variable (uncommented : comment? p (c :: r) = none) (unquoted : string? p (c :: r) = none)

include uncommented unquoted

theorem next_of_digit (digit : Number.isDigit c = true)
    (h : Text.spanOf isNumberPart (c :: r) = (text, rest)) :
    next p c r = (⟨.number, text⟩, rest) := by
  have number : number? (c :: r) = some (text, rest) := by
    rw [number?, if_pos digit]
    exact congrArg some h
  simp only [next, uncommented, unquoted, number]

theorem next_of_nameStart (digit : Number.isDigit c = false) (start : Text.isNameStart c = true)
    (h : Text.spanOf Text.isNamePart (c :: r) = (text, rest)) :
    next p c r = (⟨wordCategory p text rest, text⟩, rest) := by
  have number : number? (c :: r) = none := by rw [number?, digit, if_neg Bool.false_ne_true]
  have word : word? (c :: r) = some (text, rest) := by rw [word?, if_pos start, h]
  simp only [next, uncommented, unquoted, number, word]

theorem next_of_other (digit : Number.isDigit c = false) (start : Text.isNameStart c = false) :
    next p c r = (⟨.plain, [c]⟩, r) := by
  have number : number? (c :: r) = none := by rw [number?, digit, if_neg Bool.false_ne_true]
  have word : word? (c :: r) = none := by rw [word?, start, if_neg Bool.false_ne_true]
  simp only [next, uncommented, unquoted, number, word]

end Unquoted

theorem wordCategory_ne (p : Profile) (word rest : Text) :
    wordCategory p word rest ≠ .comment ∧ wordCategory p word rest ≠ .string := by
  unfold wordCategory
  split
  · decide
  · split
    · decide
    · split <;> decide

/-- The token that the text `c :: r` begins with and the rest behind it, by what stands there. -/
inductive Reads (p : Profile) (c : Char) (r : Text) : Token × Text → Prop
  | comment {text rest : Text} (h : comment? p (c :: r) = some (text, rest)) :
    Reads p c r (⟨.comment, text⟩, rest)
  | string {text rest : Text} (uncommented : comment? p (c :: r) = none)
      (h : string? p (c :: r) = some (text, rest)) :
    Reads p c r (⟨.string, text⟩, rest)
  | number {text rest : Text} (uncommented : comment? p (c :: r) = none)
      (unquoted : string? p (c :: r) = none) (digit : Number.isDigit c = true)
      (h : Text.spanOf isNumberPart (c :: r) = (text, rest)) :
    Reads p c r (⟨.number, text⟩, rest)
  | word {text rest : Text} (uncommented : comment? p (c :: r) = none)
      (unquoted : string? p (c :: r) = none) (digit : Number.isDigit c = false)
      (start : Text.isNameStart c = true)
      (h : Text.spanOf Text.isNamePart (c :: r) = (text, rest)) :
    Reads p c r (⟨wordCategory p text rest, text⟩, rest)
  | other (uncommented : comment? p (c :: r) = none) (unquoted : string? p (c :: r) = none)
      (digit : Number.isDigit c = false) (start : Text.isNameStart c = false) :
    Reads p c r (⟨.plain, [c]⟩, r)

theorem reads_next (p : Profile) (c : Char) (r : Text) : Reads p c r (next p c r) := by
  cases comment : comment? p (c :: r) with
  | some parts =>
    rw [next_of_comment? comment]
    exact .comment comment
  | none =>
    cases string : string? p (c :: r) with
    | some parts =>
      rw [next_of_string? comment string]
      exact .string comment string
    | none =>
      cases digit : Number.isDigit c with
      | true =>
        rw [next_of_digit comment string digit rfl]
        exact .number comment string digit rfl
      | false =>
        cases start : Text.isNameStart c with
        | true =>
          rw [next_of_nameStart comment string digit start rfl]
          exact .word comment string digit start rfl
        | false =>
          rw [next_of_other comment string digit start]
          exact .other comment string digit start

end Token

end SourcePreview
