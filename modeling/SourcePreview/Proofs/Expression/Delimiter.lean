import SourcePreview.Proofs.Expression.Meaning

/-! The delimiters of quoted texts. A text is taken as a quoted one when it is at most two letters,
a delimiter, a body and the delimiter again, and each backslash in the body has its character
(`Quoted.ofText?_eq_some_iff`). Of single quotes the one that closes is then the first that no
backslash hides; three quotes may also stand in the body between three. -/

namespace SourcePreview

namespace Text

variable {c : Char} {s : Text}

/-- A text in which each backslash takes the next character with it, with none left over at the
end. -/
inductive Paired : Text → Prop
  | nil : Paired []
  | pair (c : Char) {s : Text} (h : Paired s) : Paired ('\\' :: c :: s)
  | cons {c : Char} {s : Text} (backslash : c ≠ '\\') (h : Paired s) : Paired (c :: s)

theorem paired_pair : Paired ('\\' :: c :: s) ↔ Paired s := by
  refine ⟨fun h => ?_, .pair c⟩
  cases h with
  | pair _ h => exact h
  | cons backslash _ => exact absurd rfl backslash

theorem paired_cons (backslash : c ≠ '\\') : Paired (c :: s) ↔ Paired s := by
  refine ⟨fun h => ?_, .cons backslash⟩
  cases h with
  | pair => exact absurd rfl backslash
  | cons _ h => exact h

theorem not_paired_backslash : ¬ Paired ['\\'] := by
  intro h
  cases h with
  | cons backslash _ => exact backslash rfl

@[elab_as_elim]
theorem induction_on_pairs {motive : Text → Prop} (nil : motive []) (last : motive ['\\'])
    (pair : ∀ c s, motive s → motive ('\\' :: c :: s))
    (cons : ∀ c s, c ≠ '\\' → motive s → motive (c :: s)) (s : Text) :
    motive s := by
  match s with
  | [] => exact nil
  | c :: s =>
    by_cases backslash : c = '\\'
    · subst backslash
      match s with
      | [] => exact last
      | c :: s => exact pair c s (induction_on_pairs nil last pair cons s)
    · exact cons c s backslash (induction_on_pairs nil last pair cons s)

end Text

namespace Quoted

open Nesting (isQuote)
open Text (Paired paired_pair paired_cons not_paired_backslash)

/-- A delimiter: one quote, or three. -/
def mark (triple : Bool) (q : Char) : Text := if triple then [q, q, q] else [q]

theorem mark_eq (triple : Bool) (q : Char) :
    ∃ m, mark triple q = q :: m ∧ mark triple q = m ++ [q] := by
  cases triple with
  | true => exact ⟨[q, q], rfl, rfl⟩
  | false => exact ⟨[], rfl, rfl⟩

def written (letters : Text) (triple : Bool) (q : Char) (body : Text) : Text :=
  letters ++ (mark triple q ++ body ++ mark triple q)

/-- No delimiter that no backslash hides begins before the one behind the body. -/
def EndsFirst (mark body : Text) : Prop :=
  ∀ front, Paired front → front ++ mark <+: body ++ mark → front = body

variable {q c : Char} {s body : Text}

theorem endsFirst_nil : EndsFirst [q] [] := by
  intro front _ h
  simpa using h.length_le

theorem endsFirst_pair (hq : q ≠ '\\') : EndsFirst [q] ('\\' :: c :: s) ↔ EndsFirst [q] s := by
  constructor
  · intro h front paired ends
    have whole := h ('\\' :: c :: front) (.pair c paired) (by simpa using ends)
    simpa using whole
  · intro h front paired ends
    match front with
    | [] => exact absurd (List.cons_prefix_cons.1 ends).1 hq
    | [e] =>
      obtain rfl := (List.cons_prefix_cons.1 ends).1
      exact absurd paired not_paired_backslash
    | e :: e' :: front =>
      obtain ⟨rfl, tail⟩ := List.cons_prefix_cons.1 ends
      obtain ⟨rfl, rest⟩ := List.cons_prefix_cons.1 tail
      rw [h front (paired_pair.1 paired) rest]

theorem endsFirst_cons (backslash : c ≠ '\\') :
    EndsFirst [q] (c :: s) ↔ c ≠ q ∧ EndsFirst [q] s := by
  constructor
  · intro h
    refine ⟨?_, fun front paired ends => ?_⟩
    · rintro rfl
      cases h [] .nil (by simp)
    · have whole := h (c :: front) (.cons backslash paired) (by simpa using ends)
      simpa using whole
  · rintro ⟨other, h⟩ front paired ends
    match front with
    | [] => exact absurd (List.cons_prefix_cons.1 ends).1.symm other
    | e :: front =>
      obtain ⟨rfl, rest⟩ := List.cons_prefix_cons.1 ends
      rw [h front ((paired_cons backslash).1 paired) rest]

theorem closes_cons (backslash : c ≠ '\\') (r : Text) :
    closes q (c :: r) = (c != q && closes q r) := by
  rw [closes]
  · exact fun h _ => backslash h
  · exact fun _ _ h _ => backslash h

theorem closesTriple_cons (backslash : c ≠ '\\') (r : Text) :
    closesTriple (c :: r) = closesTriple r := by
  rw [closesTriple]
  · exact fun h _ => backslash h
  · exact fun _ _ h _ => backslash h

theorem closes_iff (hq : q ≠ '\\') (s : Text) : closes q s = true ↔ Paired s ∧ EndsFirst [q] s := by
  induction s using Text.induction_on_pairs with
  | nil => exact iff_of_true rfl ⟨.nil, endsFirst_nil⟩
  | last => exact iff_of_false Bool.false_ne_true fun h => not_paired_backslash h.1
  | pair c s ih => rw [closes, ih, paired_pair, endsFirst_pair hq]
  | cons c s backslash ih =>
    rw [closes_cons backslash, Bool.and_eq_true, ih, paired_cons backslash,
      endsFirst_cons backslash, bne_iff_ne, and_left_comm]

theorem closesTriple_iff (s : Text) : closesTriple s = true ↔ Paired s := by
  induction s using Text.induction_on_pairs with
  | nil => exact iff_of_true rfl .nil
  | last => exact iff_of_false Bool.false_ne_true not_paired_backslash
  | pair c s ih => rw [closesTriple, ih, paired_pair]
  | cons c s backslash ih => rw [closesTriple_cons backslash, ih, paired_cons backslash]

theorem between?_eq_some_iff {mark : Text} :
    between? mark s = some body ↔ s = mark ++ body ++ mark := by
  simp only [between?, Option.bind_eq_some_iff, Text.after?_eq_some_iff, Text.before?_eq_some_iff]
  constructor
  · rintro ⟨_, rfl, rfl⟩
    simp
  · rintro rfl
    exact ⟨body ++ mark, by simp, rfl⟩

/-- A body between single quotes does not begin with the quote, so three quotes are never read as a
single one. -/
theorem startsWith_eq_false_of_endsFirst (hq : q ≠ '\\') (first : EndsFirst [q] body)
    (long : 6 ≤ ([q] ++ body ++ [q]).length) :
    Text.startsWith [q, q, q] ([q] ++ body ++ [q]) = false := by
  match body with
  | [] => simp at long
  | c :: body =>
    have other : c ≠ q := by
      by_cases backslash : c = '\\'
      · exact backslash ▸ hq.symm
      · exact ((endsFirst_cons backslash).1 first).1
    simp [Text.startsWith, Text.after?, other.symm]

theorem startsWith_mark (body : Text) :
    Text.startsWith [q, q, q] (mark true q ++ body ++ mark true q) = true := by
  simp [Text.startsWith, Text.after?, mark]

theorem body?_eq_some_iff (hq : q ≠ '\\') : body? q s = some body ↔
    ∃ triple, s = mark triple q ++ body ++ mark triple q ∧ Paired body ∧
      (triple = false → EndsFirst [q] body) := by
  simp only [body?]
  split
  · next opens =>
    rw [Option.filter_eq_some_iff, between?_eq_some_iff, closesTriple_iff]
    constructor
    · rintro ⟨whole, paired⟩
      exact ⟨true, whole, paired, by simp⟩
    · rintro ⟨triple, rfl, paired, first⟩
      cases triple with
      | true => exact ⟨rfl, paired⟩
      | false =>
        have single := startsWith_eq_false_of_endsFirst hq (first rfl) opens.1
        exact absurd opens.2 (by simpa [mark] using single)
  · next opens =>
    rw [Option.filter_eq_some_iff, between?_eq_some_iff, closes_iff hq]
    constructor
    · rintro ⟨whole, paired, first⟩
      exact ⟨false, whole, paired, fun _ => first⟩
    · rintro ⟨triple, rfl, paired, first⟩
      cases triple with
      | true => exact absurd ⟨by simp [mark], startsWith_mark body⟩ opens
      | false => exact ⟨rfl, paired, first rfl⟩

theorem isQuote_ne_backslash (quote : isQuote q = true) : q ≠ '\\' := by
  rintro rfl
  cases quote

theorem any_isQuote_of_isPrefixLetter {letters : Text} (h : letters.all isPrefixLetter = true) :
    letters.any isQuote = false := by
  rw [List.any_eq_false]
  intro c hc quote
  have letter := List.all_eq_true.1 h c hc
  simp only [isQuote, Bool.or_eq_true, beq_iff_eq] at quote
  rcases quote with rfl | rfl <;> exact absurd letter (by decide)

theorem ofText?_written {letters : Text} (short : letters.length ≤ 2)
    (allowed : letters.all isPrefixLetter = true) (quote : isQuote q = true) (triple : Bool)
    (paired : Paired body) (first : triple = false → EndsFirst [q] body) :
    ofText? (written letters triple q body) =
      some ⟨body, letters.any (·.toLower == 'f'), letters.any (·.toLower == 'r')⟩ := by
  obtain ⟨m, hm, -⟩ := mark_eq triple q
  have opens : mark triple q ++ body ++ mark triple q = q :: (m ++ body ++ mark triple q) := by
    rw [hm, List.cons_append, List.cons_append]
  have hb : body? q (q :: (m ++ body ++ mark triple q)) = some body :=
    (body?_eq_some_iff (isQuote_ne_backslash quote)).2 ⟨triple, opens.symm, paired, first⟩
  have cut :=
    Text.cutAtFirst_append (any_isQuote_of_isPrefixLetter allowed) quote
      (m ++ body ++ mark triple q)
  rw [written, opens, ofText?, cut, Option.bind_some]
  dsimp only
  rw [if_pos ⟨short, allowed⟩, hb, Option.map_some]

/-- A text is taken as a quoted one exactly when it is written as one: nothing stands before the
letters or behind the second delimiter, each backslash in the body has its character, and a single
quote that closes is the first that no backslash hides. -/
theorem ofText?_eq_some_iff {s : Text} {literal : Quoted} : ofText? s = some literal ↔
    ∃ letters q triple, s = written letters triple q literal.body ∧ letters.length ≤ 2 ∧
      letters.all isPrefixLetter = true ∧ isQuote q = true ∧ Paired literal.body ∧
      (triple = false → EndsFirst [q] literal.body) ∧
      literal = ⟨literal.body, letters.any (·.toLower == 'f'), letters.any (·.toLower == 'r')⟩ := by
  constructor
  · intro h
    obtain ⟨⟨letters, q, r⟩, cut, taken⟩ := Option.bind_eq_some_iff.1 h
    obtain ⟨rfl, quote, -⟩ := Text.eq_of_cutAtFirst cut
    simp only at taken
    split at taken
    · next allowed =>
      obtain ⟨body, hb, rfl⟩ := Option.map_eq_some_iff.1 taken
      obtain ⟨triple, whole, paired, first⟩ := (body?_eq_some_iff (isQuote_ne_backslash quote)).1 hb
      exact ⟨letters, q, triple, by rw [whole, written], allowed.1, allowed.2, quote, paired, first,
        rfl⟩
    · cases taken
  · rintro ⟨letters, q, triple, rfl, short, allowed, quote, paired, first, whole⟩
    rw [whole]
    exact ofText?_written short allowed quote triple paired first

/-- Two texts between three quotes and a sign between them are one quoted text: the delimiter that
closes it is not the first, and what stands between the outer two is its body. -/
theorem ofText?_of_two :
    ∃ body, ofText? "\"\"\"a\"\"\" + \"\"\"b\"\"\"".toList = some ⟨body, false, false⟩ ∧
      ¬ EndsFirst (mark true '"') body ∧
      ∀ env d,
        evaluate env d "\"\"\"a\"\"\" + \"\"\"b\"\"\"".toList = .ok (.value (.str body)) := by
  have read : ofText? "\"\"\"a\"\"\" + \"\"\"b\"\"\"".toList = some ⟨"a\"\"\" + \"\"\"b".toList,
      false, false⟩ := by
    decide +kernel
  refine ⟨"a\"\"\" + \"\"\"b".toList, read, fun first => ?_, fun env d => ?_⟩
  · have paired : Paired "a".toList := .cons (by decide) .nil
    exact absurd (first "a".toList paired (by decide)) (by decide)
  · have form :
      Form.ofText "\"\"\"a\"\"\" + \"\"\"b\"\"\"".toList = .quoted ⟨"a\"\"\" + \"\"\"b".toList,
      false, false⟩ :=
      ofTrimmed_of_quoted? (by decide) (by decide) read
    rw [evaluate_eq, form]
    rfl

end Quoted

end SourcePreview
