import SourcePreview.Proofs.Expression.Numeral
import SourcePreview.Proofs.Expression.Term

/-! The shape of printed terms. A printed term is balanced, begins and ends as an operand does, is
never in parentheses as a whole, and is a quoted text or a number only if the term is one. -/

namespace SourcePreview

/-- Characters with a meaning of their own in an expression. -/
def marks : List Char :=
  ['"', '\'', '(', ')', '[', ']', '{', '}', '+', '-', '*', '/', '%', ',', '=', '<', '>', '.', ' ']

theorem not_mem_marks {c : Char} (h : Text.isNamePart c = true) : c ∉ marks := by
  have key : (marks.all fun c => !Text.isNamePart c) = true := by decide +kernel
  intro hc
  have hn := List.all_eq_true.1 key c hc
  rw [h] at hn
  cases hn

section

variable {c : Char} (h : c ∉ marks)
include h

theorem isPlain_of_not_mem_marks : Nesting.isPlain c = true := by
  simp only [marks, List.mem_cons, not_or] at h
  simp [Nesting.isPlain, Nesting.isQuote, Nesting.isOpening, Nesting.isClosing, h]

theorem ofChar?_of_not_mem_marks : Operator.ofChar? c = none := by
  simp only [marks, List.mem_cons, not_or] at h
  unfold Operator.ofChar?
  split <;> simp_all

theorem isBeforeSign_of_not_mem_marks : Cut.isBeforeSign c = false := by
  have key : "+-*/%(,=<>".toList.all (marks.contains ·) = true := by decide
  cases hb : Cut.isBeforeSign c with
  | false => rfl
  | true =>
    exact absurd (List.contains_iff_mem.1 (List.all_eq_true.1 key c (List.contains_iff_mem.1 hb))) h

end

theorem isNamePart_of_isDigit {c : Char} (h : Number.isDigit c = true) :
    Text.isNamePart c = true := by
  have hd := toNat_of_isDigit h
  have hl : c.toNat < 0x80 := by omega
  have hc : c.isDigit = true := by
    simp only [Char.isDigit, Bool.and_eq_true, decide_eq_true_eq]
    exact hd
  simp [Text.isNamePart, Text.isAlphanumeric, hl, hc]

theorem isNameStart_of_isDigit {c : Char} (h : Number.isDigit c = true) :
    Text.isNameStart c = false := by
  have hd := toNat_of_isDigit h
  have key : ∀ n < 58, 48 ≤ n → Text.isNameStart (Char.ofNat n) = false := by decide
  have := key c.toNat (by omega) hd.1
  rwa [Char.ofNat_toNat] at this

theorem startsNumber_of_isIdentifier {s : Text} (h : Text.isIdentifier s = true) :
    startsNumber s = false ∧ startsNumber ('-' :: s) = false := by
  cases s with
  | nil => cases h
  | cons c r =>
    rw [Text.isIdentifier, Bool.and_eq_true] at h
    have hd : Number.isDigit c = false := by
      cases hd : Number.isDigit c with
      | false => rfl
      | true =>
        rw [isNameStart_of_isDigit hd] at h
        cases h.1
    have hm := not_mem_marks (Text.isNamePart_of_isNameStart h.1)
    simp only [marks, List.mem_cons, not_or] at hm
    have hs : Number.isDigit '-' = false := by decide
    constructor <;> simp [startsNumber, hd, hm, hs]

theorem Quoted.ofText?_eq_none {a r : Text} {c : Char}
    (unquoted : ∀ d ∈ a ++ [c], Nesting.isQuote d = false) (letter : isPrefixLetter c = false) :
    ofText? (a ++ c :: r) = none := by
  rw [ofText?, Option.bind_eq_none_iff]
  rintro ⟨letters, q, rest⟩ cut
  refine if_neg fun h => ?_
  have allowed := List.all_eq_true.1 h.2 c (Text.mem_of_cutAtFirst unquoted cut)
  rw [letter] at allowed
  cases allowed

/-- A name or a row of digits. -/
structure Atom (s : Text) : Prop where
  ne_nil : s ≠ []
  parts : ∀ c ∈ s, Text.isNamePart c = true

theorem atom_of_digits {s : Text} (h : s ≠ [] ∧ s.all Number.isDigit = true) : Atom s :=
  ⟨h.1, fun c hc => isNamePart_of_isDigit (List.all_eq_true.1 h.2 c hc)⟩

theorem atom_of_isIdentifier {s : Text} (h : Text.isIdentifier s = true) : Atom s := by
  have parts := List.all_eq_true.1 (Text.all_isNamePart h)
  obtain ⟨c, r, rfl, -⟩ := Text.exists_cons_of_isIdentifier h
  exact ⟨List.cons_ne_nil c r, parts⟩

/-- A text that a sign may stand before and an operator behind. -/
structure Operand (s : Text) : Prop where
  first : ∃ c r, s = c :: r ∧ Text.isBlank c = false
  last : ∃ r c, s = r ++ [c] ∧ Text.isBlank c = false ∧ Cut.isBeforeSign c = false

namespace Operand

variable {s t : Text}

theorem tight (h : Operand s) : Text.Tight s := by
  refine ⟨?_, fun d hd => ?_, fun d hd => ?_⟩
  · obtain ⟨c, r, rfl, -⟩ := h.first
    exact List.cons_ne_nil c r
  · obtain ⟨c, r, rfl, hc⟩ := h.first
    rwa [← Option.some.inj hd]
  · obtain ⟨r, c, rfl, hc, -⟩ := h.last
    rw [List.getLast?_concat] at hd
    rwa [← Option.some.inj hd]

theorem append (hs : Operand s) (m : Text) (ht : Operand t) : Operand (s ++ m ++ t) := by
  obtain ⟨c, r, rfl, hc⟩ := hs.first
  obtain ⟨r', d, rfl, hd⟩ := ht.last
  exact ⟨⟨c, r ++ m ++ (r' ++ [d]), rfl, hc⟩,
    ⟨c :: r ++ m ++ r', d, (List.append_assoc _ _ _).symm, hd⟩⟩

theorem negative (hs : Operand s) : Operand ('-' :: s) := by
  obtain ⟨r, d, rfl, hd⟩ := hs.last
  exact ⟨⟨'-', r ++ [d], rfl, rfl⟩, ⟨'-' :: r, d, rfl, hd⟩⟩

theorem quotation (singles : Bool) (s : Text) : Operand (quotation singles s) :=
  ⟨⟨'"', _, rfl, rfl⟩, ⟨'"' :: escape singles s, '"', rfl, rfl, rfl⟩⟩

theorem parens (s : Text) : Operand ('(' :: (s ++ [')'])) :=
  ⟨⟨'(', _, rfl, rfl⟩, ⟨'(' :: s, ')', rfl, rfl, rfl⟩⟩

theorem grouped (hs : Operand s) (needed : Bool) : Operand (grouped needed s) := by
  cases needed with
  | false => exact hs
  | true => exact parens s

end Operand

namespace Atom

variable {s : Text} (h : Atom s)
include h

theorem operand : Operand s := by
  have blank : ∀ c ∈ s, Text.isBlank c = false :=
    fun c hc => Text.isBlank_of_isNamePart (h.parts c hc)
  constructor
  · obtain ⟨c, r, rfl⟩ := List.exists_cons_of_ne_nil h.ne_nil
    exact ⟨c, r, rfl, blank c (List.mem_cons_self ..)⟩
  · obtain ⟨r, c, rfl⟩ := (List.eq_nil_or_concat s).resolve_left h.ne_nil
    have hc : c ∈ r.concat c := by simp
    exact ⟨r, c, List.concat_eq_append, blank c hc,
      isBeforeSign_of_not_mem_marks (not_mem_marks (h.parts c hc))⟩

theorem balanced : Nesting.Balanced s :=
  .of_plain fun c hc => isPlain_of_not_mem_marks (not_mem_marks (h.parts c hc))

theorem hidden : Nesting.Hidden s :=
  .of_plain fun c hc => ⟨isPlain_of_not_mem_marks (not_mem_marks (h.parts c hc)),
    ofChar?_of_not_mem_marks (not_mem_marks (h.parts c hc))⟩

theorem not_mem {c : Char} (hc : c ∈ marks) : c ∉ s :=
  fun hs => not_mem_marks (h.parts c hs) hc

theorem head?_ne {c : Char} (hc : c ∈ marks) : s.head? ≠ some c :=
  fun hs => h.not_mem hc (List.mem_of_head? hs)

end Atom

namespace Term

variable (w : Spelling)

theorem operand_print (t : Term) : Operand (t.print w) := by
  induction t with
  | literal s digits => exact (atom_of_digits digits).operand
  | name s identifier => exact (atom_of_isIdentifier identifier).operand
  | quoted s => exact .quotation w.singles s
  | negative t ih => exact (ih.grouped _).negative
  | binary op l r ihl ihr =>
    have :=
      (ihl.grouped (l.groupedLeft op)).append (w.gap ++ op.symbol :: w.gap)
        (ihr.grouped (r.groupedRight op))
    simpa [print] using this

theorem balanced_gap : Nesting.Balanced w.gap := by
  unfold Spelling.gap
  split
  · exact .plain rfl .nil
  · exact .nil

theorem balanced_print (t : Term) : Nesting.Balanced (t.print w) := by
  have balanced_grouped :
      ∀ {s : Text} (needed : Bool), Nesting.Balanced s → Nesting.Balanced (grouped needed s) := by
    intro s needed hs
    cases needed with
    | false => exact hs
    | true => exact hs.parens
  induction t with
  | literal s digits => exact (atom_of_digits digits).balanced
  | name s identifier => exact (atom_of_isIdentifier identifier).balanced
  | quoted s =>
    have := Nesting.Balanced.quotation w.singles s .nil
    rwa [List.append_nil] at this
  | negative t ih => exact .plain rfl (balanced_grouped _ ih)
  | binary op l r ihl ihr =>
    have hop : Nesting.isPlain op.symbol = true := by cases op <;> rfl
    have hr := (balanced_gap w).append (balanced_grouped (r.groupedRight op) ihr)
    exact ((balanced_grouped (l.groupedLeft op) ihl).append (balanced_gap w)).append (.plain hop hr)

theorem print_binary (op : Operator) (l r : Term) : ∃ c rest, (c = ' ' ∨ c = op.symbol) ∧
    (binary op l r).print w = grouped (l.groupedLeft op) (l.print w) ++ c :: rest := by
  cases hw : w.spaced with
  | false =>
    exact ⟨op.symbol, grouped (r.groupedRight op) (r.print w), Or.inr rfl,
      by simp [print, Spelling.gap, hw]⟩
  | true =>
    exact ⟨' ', op.symbol :: ' ' :: grouped (r.groupedRight op) (r.print w), Or.inl rfl,
      by simp [print, Spelling.gap, hw]⟩

theorem print_of_head?_paren (t : Term) (h : (t.print w).head? = some '(') :
    ∃ s r, Nesting.Balanced s ∧ r ≠ [] ∧ t.print w = '(' :: (s ++ ')' :: r) := by
  induction t with
  | literal s digits => exact absurd h ((atom_of_digits digits).head?_ne (by decide))
  | name s identifier => exact absurd h ((atom_of_isIdentifier identifier).head?_ne (by decide))
  | quoted s => cases h
  | negative t ih => cases h
  | binary op l r ihl ihr =>
    obtain ⟨c, rest, -, hp⟩ := print_binary w op l r
    rw [hp] at h ⊢
    cases hg : l.groupedLeft op with
    | true =>
      exact ⟨l.print w, c :: rest, balanced_print w l, List.cons_ne_nil c rest, by simp [grouped]⟩
    | false =>
      rw [hg] at h
      obtain ⟨d, s, hd, -⟩ := (operand_print w l).first
      obtain ⟨s, r, hs, hr, he⟩ := ihl (by rw [hd]; simpa [grouped, hd] using h)
      exact ⟨s, r ++ c :: rest, hs, List.append_ne_nil_of_left_ne_nil hr _, by simp [grouped, he]⟩

theorem enclosed?_print (t : Term) : Nesting.enclosed? (t.print w) = none := by
  by_cases h : (t.print w).head? = some '('
  · obtain ⟨s, r, hs, hr, he⟩ := print_of_head?_paren w t h
    rw [he]
    exact Nesting.enclosed?_group_append hs hr
  · exact Nesting.enclosed?_of_head?_ne h

theorem mem_marks_of_isQuote {q : Char} (h : Nesting.isQuote q = true) : q ∈ marks := by
  simp only [Nesting.isQuote, Bool.or_eq_true, beq_iff_eq] at h
  rcases h with rfl | rfl <;> decide

theorem print_of_head?_quote (t : Term) {q : Char} (h : (t.print w).head? = some q)
    (hq : Nesting.isQuote q = true) :
    ∃ s r, t.print w = quotation w.singles s ++ r ∧ r.head? ≠ some '"' ∧
      (r = [] → t = quoted s) := by
  have mark := mem_marks_of_isQuote hq
  induction t with
  | literal s digits => exact absurd h ((atom_of_digits digits).head?_ne mark)
  | name s identifier => exact absurd h ((atom_of_isIdentifier identifier).head?_ne mark)
  | quoted s => exact ⟨s, [], (List.append_nil _).symm, by simp, fun _ => rfl⟩
  | negative t ih =>
    cases h
    cases hq
  | binary op l r ihl ihr =>
    obtain ⟨c, rest, hc, hp⟩ := print_binary w op l r
    rw [hp] at h ⊢
    cases hg : l.groupedLeft op with
    | true =>
      rw [hg] at h
      cases h
      cases hq
    | false =>
      rw [hg] at h
      obtain ⟨d, s, hd, -⟩ := (operand_print w l).first
      obtain ⟨s, r, he, hr, -⟩ := ihl (by rw [hd]; simpa [grouped, hd] using h)
      refine ⟨s, r ++ c :: rest, by simp [grouped, he], ?_, by simp⟩
      cases r with
      | nil =>
        rintro ⟨⟩
        rcases hc with hc | hc
        · cases hc
        · cases op <;> cases hc
      | cons d r => exact hr

theorem letters_eq_nil (t : Term) {letters r : Text} {q : Char} (h : t.print w = letters ++ q :: r)
    (hq : Nesting.isQuote q = true) (hl : ∀ c ∈ letters, Quoted.isPrefixLetter c = true) :
    letters = [] := by
  have mark := mem_marks_of_isQuote hq
  -- a printed term that begins with a mark leaves no room for a letter
  have marked : ∀ {c : Char} {s r : Text}, Quoted.isPrefixLetter c = false →
      c :: s = letters ++ q :: r → letters = [] := by
    intro c s r hc hs
    cases letters with
    | nil => rfl
    | cons d letters =>
      have := hl d (List.mem_cons_self ..)
      rw [← (List.cons.inj hs).1, hc] at this
      cases this
  have mem : ∀ {s r : Text}, s = letters ++ q :: r → q ∈ s := by
    rintro _ r rfl
    exact List.mem_append_right letters (List.mem_cons_self ..)
  induction t generalizing r with
  | literal s digits => exact absurd (mem h) ((atom_of_digits digits).not_mem mark)
  | name s identifier => exact absurd (mem h) ((atom_of_isIdentifier identifier).not_mem mark)
  | quoted s => exact marked (by decide) h
  | negative t ih => exact marked (by decide) h
  | binary op l _ ihl _ =>
    obtain ⟨c, rest, hc, hp⟩ := print_binary w op l _
    rw [hp] at h
    have hcq : c ≠ q := by
      rintro rfl
      rcases hc with rfl | rfl
      · cases hq
      · cases op <;> cases hq
    have hcl : Quoted.isPrefixLetter c = false := by
      rcases hc with rfl | rfl
      · decide
      · cases op <;> decide
    rcases List.append_eq_append_iff.1 h with ⟨m, h1, h2⟩ | ⟨m, h1, h2⟩
    · cases m with
      | nil => exact absurd (List.cons.inj h2).1 hcq
      | cons d m =>
        have := hl d (by rw [h1]; simp)
        rw [← (List.cons.inj h2).1, hcl] at this
        cases this
    · cases m with
      | nil => exact absurd (List.cons.inj h2).1.symm hcq
      | cons d m =>
        obtain ⟨rfl, -⟩ := List.cons.inj h2
        cases hg : l.groupedLeft op with
        | true =>
          rw [hg] at h
          exact marked (by decide) h
        | false =>
          rw [hg] at h1
          exact ihl h1

theorem quoted?_print {t : Term} (h : ∀ s, t ≠ quoted s) : Quoted.ofText? (t.print w) = none := by
  cases hc : Text.cutAtFirst Nesting.isQuote (t.print w) with
  | none => rw [Quoted.ofText?, hc]; rfl
  | some found =>
    obtain ⟨letters, q, r⟩ := found
    obtain ⟨hp, hq, -⟩ := Text.eq_of_cutAtFirst hc
    by_cases hl : letters.all Quoted.isPrefixLetter = true
    · obtain rfl := letters_eq_nil w t hp hq (List.all_eq_true.1 hl)
      obtain ⟨s, r, he, hr, hn⟩ := print_of_head?_quote w t (by rw [hp]; rfl) hq
      rw [he]
      exact ofText?_quotation_append s (fun h0 => h s (hn h0)) hr
    · rw [Quoted.ofText?, hc]
      exact if_neg fun h => hl h.2

theorem quoted?_print_quoted (s : Text) :
    Quoted.ofText? ((quoted s).print w) = some ⟨escape w.singles s, false, false⟩ :=
  ofText?_quotation s

theorem startsNumber_negative {t : Term} (h : ∀ s digits, t ≠ literal s digits) :
    startsNumber ((negative t).print w) = false := by
  cases t with
  | literal s digits => exact absurd rfl (h s digits)
  | name s identifier => exact (startsNumber_of_isIdentifier identifier).2
  | quoted s => rfl
  | negative t => rfl
  | binary op l r => rfl

theorem startsNumber_of_append {s rest : Text} {c : Char} (hs : s ≠ []) (ends : c ∈ numberEnds)
    (h : startsNumber (s ++ c :: rest) = true) : startsNumber s = true := by
  have digit := not_digit_of_numberEnds ends
  have point : c ≠ '.' := by
    rintro rfl
    exact absurd ends (by decide)
  match s with
  | [] => exact absurd rfl hs
  | [d] => simpa [startsNumber, digit, point] using h
  | d :: e :: s => exact h

/-- A printed term in which a number begins goes on behind its first digits with an operator, unless
it is that number. -/
theorem print_of_startsNumber (t : Term) (h : startsNumber (t.print w) = true) :
    ∃ sign ds r, (sign = [] ∨ sign = ['-']) ∧ ds ≠ [] ∧ ds.all Number.isDigit = true ∧
      t.print w = sign ++ (ds ++ r) ∧
      (∀ c, r.head? = some c → c ∈ numberEnds) ∧ (t.isBinary = true → r ≠ []) := by
  induction t with
  | literal s digits =>
    exact ⟨[], s, [], Or.inl rfl, digits.1, digits.2, by simp [print], by simp, by simp [isBinary]⟩
  | name s identifier =>
    rw [print, (startsNumber_of_isIdentifier identifier).1] at h
    cases h
  | quoted s => cases h
  | negative t ih =>
    by_cases hn : ∃ s digits, t = literal s digits
    · obtain ⟨s, digits, rfl⟩ := hn
      exact ⟨['-'], s, [], Or.inr rfl, digits.1, digits.2, by simp [print, grouped, isBinary],
        by simp, by simp [isBinary]⟩
    · rw [startsNumber_negative w fun s digits he => hn ⟨s, digits, he⟩] at h
      cases h
  | binary op l r ihl ihr =>
    obtain ⟨c, rest, hc, hp⟩ := print_binary w op l r
    have ends : c ∈ numberEnds := by
      rcases hc with rfl | rfl
      · decide
      · cases op <;> decide
    rw [hp] at h ⊢
    cases hg : l.groupedLeft op with
    | true =>
      rw [hg] at h
      cases h
    | false =>
      rw [hg] at h
      obtain ⟨sign, ds, r, hsign, hd, hds, he, hr, -⟩ :=
        ihl (startsNumber_of_append (operand_print w l).tight.ne_nil ends h)
      refine ⟨sign, ds, r ++ c :: rest, hsign, hd, hds, by simp [grouped, he], fun d hr' => ?_,
        fun _ => by simp⟩
      cases r with
      | nil =>
        rw [← Option.some.inj hr']
        exact ends
      | cons e r => exact hr d hr'

theorem numberLiteral?_print_binary (op : Operator) (l r : Term) :
    numberLiteral? ((binary op l r).print w) = none := by
  cases h : startsNumber ((binary op l r).print w) with
  | false => exact numberLiteral?_of_startsNumber_eq_false h
  | true =>
    obtain ⟨sign, ds, rest, hsign, hd, digits, he, ends, filled⟩ := print_of_startsNumber w _ h
    obtain ⟨c, rest, rfl⟩ := List.exists_cons_of_ne_nil (filled rfl)
    rw [he]
    exact numberLiteral?_of_end (ends c rfl) hsign hd digits rest

end Term

end SourcePreview
