import SourcePreview.Expression.Rendering
import SourcePreview.Proofs.Expression.Meaning

/-! Texts written as literals on one line, and texts made of such literals and of few other
characters. A literal is shown as its text (`render_literal`). What stands in a literal is heeded by
no scan, so a scan stops in such a text only at the characters around the literals (`Outside`). -/

namespace SourcePreview

def Text.spellInLine (c : Char) : Text :=
  match c with
  | '\\' => ['\\', '\\']
  | '"' => ['\\', '"']
  | '\'' => ['\\', '\'']
  | '\n' => ['\\', 'n']
  | '\r' => ['\\', 'r']
  | c => [c]

def Text.literal (s : Text) : Text := inQuotes (s.flatMap spellInLine)

theorem spells_spellInLine : Spells Text.spellInLine := by
  intro c
  unfold Text.spellInLine
  split
  · exact Or.inr ⟨_, rfl, fun r => by rw [unescape]⟩
  · exact Or.inr ⟨_, rfl, fun r => by rw [unescape]⟩
  · exact Or.inr ⟨_, rfl, fun r => by rw [unescape]⟩
  · exact Or.inr ⟨_, rfl, fun r => by rw [unescape]⟩
  · exact Or.inr ⟨_, rfl, fun r => by rw [unescape]⟩
  · next hb hq _ _ _ => exact Or.inl ⟨rfl, hb, hq⟩

theorem operand_literal (s : Text) : Operand (Text.literal s) :=
  ⟨⟨'"', _, rfl, rfl⟩, ⟨'"' :: s.flatMap Text.spellInLine, '"', rfl, rfl, rfl⟩⟩

theorem newline_not_mem_literal (s : Text) : '\n' ∉ Text.literal s := by
  have spelled : ∀ c, '\n' ∉ Text.spellInLine c := by
    intro c
    unfold Text.spellInLine
    split
    · decide
    · decide
    · decide
    · decide
    · decide
    · next h _ => exact List.not_mem_cons_of_ne_of_not_mem (Ne.symm h) List.not_mem_nil
  simp [Text.literal, inQuotes, List.mem_flatMap, spelled]

/-- A literal is shown as its text. -/
theorem render_literal (env : Environment) (d : Dialect) (s : Text) :
    render env d (Text.literal s) = .ok s := by
  have form :
    Form.ofTrimmed (Text.literal s) = .quoted ⟨s.flatMap Text.spellInLine, false, false⟩ :=
    ofTrimmed_of_quoted? (List.cons_ne_nil _ _)
      (Nesting.enclosed?_of_head?_ne (by simp [Text.literal, inQuotes]))
      (ofText?_inQuotes spells_spellInLine s)
  have value : evaluate env d (Text.literal s) = .ok (.value (.str s)) := by
    rw [evaluate_eq, ofText_of_operand (operand_literal s), form]
    simp [Form.evaluate, unescape_flatMap spells_spellInLine]
  rw [render_eq, value]
  rfl

namespace Nesting

/-- Whether only characters of a list stand outside of the quotes in a text, and none of them opens
or closes anything but a text in quotes. -/
structure Outside (cs : List Char) (s : Text) : Prop where
  after : ∀ k, (level k).after s = level k
  path : ∀ k, ∀ p ∈ (level k).path s, p.1.quote = some '"' ∨ p.1 = level k ∧ p.2 ∈ cs

variable {cs cs' : List Char} {s t : Text}

namespace Outside

theorem mono (h : Outside cs s) (hc : cs ⊆ cs') : Outside cs' s := by
  refine ⟨h.after, fun k p hp => ?_⟩
  rcases h.path k p hp with hq | ⟨hl, hm⟩
  · exact Or.inl hq
  · exact Or.inr ⟨hl, hc hm⟩

theorem append (hs : Outside cs s) (ht : Outside cs t) : Outside cs (s ++ t) := by
  constructor
  · intro k
    rw [after_append, hs.after, ht.after]
  · intro k p hp
    rw [path_append, hs.after] at hp
    rcases List.mem_append.1 hp with hp | hp
    · exact hs.path k p hp
    · exact ht.path k p hp

theorem nil : Outside cs [] := ⟨fun _ => rfl, fun _ _ hp => nomatch hp⟩

theorem singleton {c : Char} (plain : isPlain c = true) : Outside [c] [c] := by
  constructor
  · intro k
    exact step_of_isPlain plain k
  · intro k p hp
    rw [List.mem_singleton.1 hp]
    exact Or.inr ⟨rfl, List.mem_singleton_self c⟩

theorem of_plain (plain : s.all isPlain = true) : Outside s s := by
  induction s with
  | nil => exact nil
  | cons c s ih =>
    rw [List.all_cons, Bool.and_eq_true] at plain
    have first : Outside (c :: s) [c] := (singleton plain.1).mono (by simp)
    exact first.append ((ih plain.2).mono (List.subset_cons_self c s))

theorem join {parts : List Text} (h : ∀ s ∈ parts, Outside cs s) (comma : ',' ∈ cs)
    (blank : ' ' ∈ cs) :
    Outside cs (Text.join ", ".toList parts) := by
  unfold Text.join
  induction parts with
  | nil => exact nil
  | cons first others ih =>
    rw [List.forall_mem_cons] at h
    cases others with
    | nil =>
      rw [List.intercalate_singleton]
      exact h.1
    | cons second others =>
      have between : Outside cs ", ".toList := (of_plain (by decide)).mono (by simp [comma, blank])
      rw [List.intercalate_cons_cons]
      exact (h.1.append between).append (ih h.2)

theorem literal (s : Text) : Outside ['"'] (Text.literal s) := by
  constructor
  · intro k
    exact (path_inQuotes spells_spellInLine k s).1
  · intro k p hp
    rcases (path_inQuotes spells_spellInLine k s).2 p hp with rfl | hq
    · exact Or.inr ⟨rfl, List.mem_singleton_self '"'⟩
    · exact Or.inl hq

theorem closed (h : Outside cs s) (unclosed : cs.any isClosing = false) : Closed s := by
  refine ⟨h.after 0, fun p hp hq hc => ?_⟩
  rcases h.path 0 p hp with quoted | ⟨-, mem⟩
  · rw [hq] at quoted
    cases quoted
  · exact absurd hc (List.any_eq_false.1 unclosed p.2 mem)

theorem undivided {sep : Char} (h : Outside cs s) (absent : sep ∉ cs) : Undivided sep s := by
  rintro p hp top rfl
  rcases h.path 0 p hp with quoted | ⟨-, mem⟩
  · simp [isTop, quoted] at top
  · exact absent mem

end Outside

/-- Parentheses around literals are found again. -/
theorem enclosed?_of_outside (h : Outside cs s) (unclosed : cs.any isClosing = false) :
    enclosed? ('(' :: (s ++ [')'])) = some s :=
  (h.closed unclosed).enclosed?_eq rfl

end Nesting

end SourcePreview
