import SourcePreview.Proofs.Highlight.Place

/-! The strings of the highlighter by what they look like. A quotation goes up to the first quote
that no backslash takes with it (`closeQuote_cases`), and a string is a quotation behind nothing or
behind a string prefix (`string?_eq_some_iff`). -/

namespace SourcePreview

namespace Token

/-- A text in which a quote is nowhere left over, when each backslash is read together with the
character behind it. -/
inductive Unquoted (q : Char) : Text → Prop
  | nil : Unquoted q []
  | pair (c : Char) {s : Text} (h : Unquoted q s) : Unquoted q ('\\' :: c :: s)
  | cons {c : Char} {s : Text} (backslash : c ≠ '\\') (quote : c ≠ q) (h : Unquoted q s) :
    Unquoted q (c :: s)

/-- A text that leaves a quotation open: at its end there may be a backslash with no character
behind it. -/
def Unclosed (q : Char) (s : Text) : Prop :=
  Unquoted q s ∨ ∃ body, s = body ++ ['\\'] ∧ Unquoted q body

variable {q c : Char} {s body text rest : Text}

theorem Unclosed.pair (c : Char) (h : Unclosed q s) : Unclosed q ('\\' :: c :: s) := by
  rcases h with h | ⟨body, rfl, h⟩
  · exact Or.inl (h.pair c)
  · exact Or.inr ⟨'\\' :: c :: body, rfl, h.pair c⟩

theorem Unclosed.cons (backslash : c ≠ '\\') (quote : c ≠ q) (h : Unclosed q s) :
    Unclosed q (c :: s) := by
  rcases h with h | ⟨body, rfl, h⟩
  · exact Or.inl (h.cons backslash quote)
  · exact Or.inr ⟨c :: body, rfl, h.cons backslash quote⟩

theorem closeQuote_cons (backslash : c ≠ '\\') (r : Text) :
    closeQuote q (c :: r) = if c == q then ([c], r) else
    (c :: (closeQuote q r).1, (closeQuote q r).2) := by
  rw [closeQuote]
  · exact fun h _ => backslash h
  · exact fun _ _ h _ => backslash h

theorem Unquoted.closeQuote_eq (h : Unquoted q body) (hq : q ≠ '\\') (rest : Text) :
    closeQuote q (body ++ q :: rest) = (body ++ [q], rest) := by
  induction h with
  | nil => rw [List.nil_append, closeQuote_cons hq, if_pos (beq_self_eq_true q)]; rfl
  | pair c _ ih => rw [List.cons_append, List.cons_append, closeQuote, ih]; rfl
  | cons backslash quote _ ih =>
    rw [List.cons_append, closeQuote_cons backslash, if_neg (by simpa using quote), ih]
    rfl

/-- A quotation goes up to the first quote that is left over, or to the end of the text if there is
none. -/
theorem closeQuote_cases (q : Char) (s : Text) :
    (∃ body rest, s = body ++ q :: rest ∧ Unquoted q body ∧ closeQuote q s = (body ++ [q], rest)) ∨
      Unclosed q s ∧ closeQuote q s = (s, []) := by
  fun_induction closeQuote q s with
  | case1 => exact Or.inr ⟨Or.inl .nil, rfl⟩
  | case2 => exact Or.inr ⟨Or.inr ⟨[], rfl, .nil⟩, rfl⟩
  | case3 c r inside behind h ih =>
    rw [h] at ih
    rcases ih with ⟨body, rest, rfl, hb, he⟩ | ⟨unclosed, he⟩
    · obtain ⟨rfl, rfl⟩ := Prod.mk.inj he
      exact Or.inl ⟨'\\' :: c :: body, behind, rfl, hb.pair c, rfl⟩
    · obtain ⟨rfl, rfl⟩ := Prod.mk.inj he
      exact Or.inr ⟨unclosed.pair c, rfl⟩
  | case4 c r last pair closing =>
    obtain rfl := eq_of_beq closing
    exact Or.inl ⟨[], r, rfl, .nil, rfl⟩
  | case5 c r last pair other inside behind h ih =>
    have backslash : c ≠ '\\' := by
      rintro rfl
      cases r with
      | nil => exact last rfl rfl
      | cons d r => exact pair d r rfl rfl
    have quote : c ≠ q := fun hc => other (beq_iff_eq.2 hc)
    rw [h] at ih
    rcases ih with ⟨body, rest, rfl, hb, he⟩ | ⟨unclosed, he⟩
    · obtain ⟨rfl, rfl⟩ := Prod.mk.inj he
      exact Or.inl ⟨c :: body, behind, rfl, hb.cons backslash quote, rfl⟩
    · obtain ⟨rfl, rfl⟩ := Prod.mk.inj he
      exact Or.inr ⟨unclosed.cons backslash quote, rfl⟩

theorem not_isNamePart_of_isQuote (h : isQuote q = true) : Text.isNamePart q = false := by
  rw [isQuote, Bool.or_eq_true, beq_iff_eq, beq_iff_eq] at h
  rcases h with rfl | rfl <;> decide

theorem ne_backslash_of_isQuote (h : isQuote q = true) : q ≠ '\\' := by
  rintro rfl
  cases h

/-- What may stand in front of the quote of a string: nothing, or an identifier that is one of the
string prefixes. -/
def Introduces (p : Profile) (word : Text) : Prop :=
  word = [] ∨ Text.isIdentifier word = true ∧ p.stringPrefixes.contains word = true

theorem Introduces.all_isNamePart {p : Profile} {word : Text} (h : Introduces p word) :
    word.all Text.isNamePart = true := by
  rcases h with rfl | ⟨identifier, -⟩
  · rfl
  · exact Text.all_isNamePart identifier

theorem string?_eq_some_iff {p : Profile} : string? p s = some (text, rest) ↔
    ∃ word q behind, s = word ++ q :: behind ∧ Introduces p word ∧ isQuote q = true ∧
      text = word ++ q :: (closeQuote q behind).1 ∧ rest = (closeQuote q behind).2 := by
  constructor
  · intro h
    unfold string? at h
    split at h
    · cases h
    · next c r =>
      split at h
      · next quote =>
        cases h
        exact ⟨[], c, r, rfl, Or.inl rfl, quote, rfl, rfl⟩
      · split at h
        · next start =>
          split at h
          · next word q behind hw =>
            split at h
            · next known =>
              cases h
              rw [Bool.and_eq_true] at known
              exact ⟨word, q, behind, (Text.spanOf_eq_iff.1 hw).1,
                Or.inr ⟨Text.isIdentifier_of_spanOf start hw, known.2⟩, known.1, rfl, rfl⟩
            · cases h
          · cases h
        · cases h
  · rintro ⟨word, q, behind, rfl, introduces, quote, rfl, rfl⟩
    rcases introduces with rfl | ⟨identifier, known⟩
    · rw [List.nil_append, string?, if_pos quote]
      rfl
    · obtain ⟨c, r, rfl, start, -⟩ := Text.exists_cons_of_isIdentifier identifier
      have parts := Text.all_isNamePart identifier
      have unquoted : isQuote c = false := by
        rw [Bool.eq_false_iff]
        intro hc
        rw [List.all_cons, not_isNamePart_of_isQuote hc] at parts
        cases parts
      have span := Text.spanOf_append_cons (c :: r) parts (not_isNamePart_of_isQuote quote) behind
      rw [List.cons_append] at span ⊢
      simp only [string?, unquoted, Bool.false_eq_true, if_false, start, if_true, span, quote,
        known, Bool.and_self]

end Token

end SourcePreview
