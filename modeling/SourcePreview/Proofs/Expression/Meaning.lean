import SourcePreview.Proofs.Expression.Operators
import SourcePreview.Proofs.Value.Whole

/-! Evaluation against trees: the text of a printed tree comes to what the tree means
(`evaluate_print`). How a printed term is read is told first (`Term.form_print_binary`,
`Term.form_print_negative`); a tree is printed as the term it is written as (`Tree.print_term`). -/

namespace SourcePreview

variable (env : Environment) (d : Dialect)

theorem evaluate_congr_trim {s t : Text} (h : Text.trim s = Text.trim t) :
    evaluate env d s = evaluate env d t := by
  rw [evaluate_eq, evaluate_eq, Form.ofText, Form.ofText, h]

theorem evaluate_blanks {a s b : Text} (hs : Operand s) (ha : a.all Text.isBlank = true)
    (hb : b.all Text.isBlank = true) :
    evaluate env d (a ++ s ++ b) = evaluate env d s := by
  refine evaluate_congr_trim env d ?_
  rw [Text.trim_blanks hs.tight ha hb, hs.tight.trim_eq]

theorem ofText_of_operand {s : Text} (hs : Operand s) : Form.ofText s = Form.ofTrimmed s := by
  rw [Form.ofText, hs.tight.trim_eq]

theorem ofTrimmed_of_enclosed? {s inner : Text} (hs : s ≠ [])
    (h : Nesting.enclosed? s = some inner) :
    Form.ofTrimmed s = .group inner := by
  simp [Form.ofTrimmed, hs, h]

theorem ofTrimmed_of_quoted? {s : Text} {literal : Quoted} (hs : s ≠ [])
    (he : Nesting.enclosed? s = none) (h : Quoted.ofText? s = some literal) :
    Form.ofTrimmed s = .quoted literal := by
  simp [Form.ofTrimmed, hs, he, h]

/-- A text without parentheses around it that is not quoted. -/
structure Bare (s : Text) : Prop where
  ne_nil : s ≠ []
  enclosed? : Nesting.enclosed? s = none
  quoted? : Quoted.ofText? s = none

namespace Bare

variable {s : Text} (hs : Bare s)
include hs

theorem form_of_number {v : Value} (h : numberLiteral? s = some v) :
    Form.ofTrimmed s = .number v := by
  simp [Form.ofTrimmed, hs.ne_nil, hs.enclosed?, hs.quoted?, h]

theorem form_of_name (hn : numberLiteral? s = none) (h : Text.isIdentifier s = true) :
    Form.ofTrimmed s = .name s := by
  simp [Form.ofTrimmed, hs.ne_nil, hs.enclosed?, hs.quoted?, hn, h]

theorem form_of_cut {cut : Cut} (hn : numberLiteral? s = none) (hi : Text.isIdentifier s = false)
    (h : Cut.ofText? s = some cut) : Form.ofTrimmed s = .binary cut := by
  simp [Form.ofTrimmed, hs.ne_nil, hs.enclosed?, hs.quoted?, hn, hi, h]

theorem form_of_call {call : Call} (hn : numberLiteral? s = none) (hi : Text.isIdentifier s = false)
    (hc : Cut.ofText? s = none) (unsigned : s.head? ≠ some '-') (h : Call.ofText? s = some call) :
    Form.ofTrimmed s = .application call.application := by
  obtain ⟨c, r, rfl⟩ := List.exists_cons_of_ne_nil hs.ne_nil
  have other : c ≠ '-' := fun he => unsigned (he ▸ rfl)
  simp [Form.ofTrimmed, hs.enclosed?, hs.quoted?, hn, hi, hc, h, other]

theorem form_unknown (hn : numberLiteral? s = none) (hi : Text.isIdentifier s = false)
    (hc : Cut.ofText? s = none) (unsigned : s.head? ≠ some '-') (h : Call.ofText? s = none) :
    Form.ofTrimmed s = .unknown := by
  obtain ⟨c, r, rfl⟩ := List.exists_cons_of_ne_nil hs.ne_nil
  have other : c ≠ '-' := fun he => unsigned (he ▸ rfl)
  simp [Form.ofTrimmed, hs.enclosed?, hs.quoted?, hn, hi, hc, h, other]

end Bare

theorem Bare.form_of_minus {s : Text} (hs : Bare ('-' :: s)) (hn : numberLiteral? ('-' :: s) = none)
    (h : Cut.ofText? ('-' :: s) = none) : Form.ofTrimmed ('-' :: s) = .negation s := by
  have hi : Text.isIdentifier ('-' :: s) = false := rfl
  simp [Form.ofTrimmed, hs.enclosed?, hs.quoted?, hn, hi, h]

theorem evaluate_parens {s : Text} (hs : Nesting.Closed s) :
    evaluate env d ('(' :: (s ++ [')'])) = evaluate env d s := by
  rw [evaluate_eq, ofText_of_operand (.parens s),
    ofTrimmed_of_enclosed? (List.cons_ne_nil _ _) (hs.enclosed?_eq rfl)]
  rfl

theorem evaluate_grouped {s : Text} (hs : Nesting.Balanced s) (needed : Bool) :
    evaluate env d (grouped needed s) = evaluate env d s := by
  cases needed with
  | false => rfl
  | true => exact evaluate_parens env d hs.closed

theorem bare_of_startsNumber {s : Text} (h : startsNumber s = true) : Bare s := by
  cases s with
  | nil => cases h
  | cons c r =>
    have first : c ≠ '(' ∧ Nesting.isQuote c = false ∧ Quoted.isPrefixLetter c = false := by
      simp only [startsNumber, Bool.or_eq_true, Bool.and_eq_true, beq_iff_eq] at h
      rcases h with digit | ⟨(rfl | rfl) | rfl, -⟩
      · have key : ∀ n < 58, 48 ≤ n → Char.ofNat n ≠ '(' ∧ Nesting.isQuote (Char.ofNat n) = false ∧
            Quoted.isPrefixLetter (Char.ofNat n) = false := by decide
        have range := toNat_of_isDigit digit
        have other := key c.toNat (by omega) range.1
        rwa [Char.ofNat_toNat] at other
      · decide
      · decide
      · decide
    refine ⟨List.cons_ne_nil c r, Nesting.enclosed?_of_head?_ne ?_,
      Quoted.ofText?_eq_none (a := []) ?_ first.2.2⟩
    · exact fun he => first.1 (Option.some.inj he)
    · exact List.forall_mem_singleton.2 first.2.1

theorem evaluate_of_numberLiteral? {s : Text} {v : Value}
    (h : numberLiteral? (Text.trim s) = some v) :
    evaluate env d s = .ok (.value v) := by
  have starts : startsNumber (Text.trim s) = true := by
    cases hs : startsNumber (Text.trim s) with
    | true => rfl
    | false =>
      rw [numberLiteral?_of_startsNumber_eq_false hs] at h
      cases h
  rw [evaluate_eq, Form.ofText, (bare_of_startsNumber starts).form_of_number h]
  rfl

theorem negate?_int (n : Int64) : (Value.int n).negate? =
    some (if n = Int64.minValue then .float (-(Number.floatOfInt n.toInt)) else .int (-n)) := by
  unfold Value.negate?
  by_cases h : n = Int64.minValue
  · subst h
    rfl
  · have hi : Number.int64? (-n.toInt) = some (-n) := by
      rw [Number.int64?, if_pos (Number.fits_neg.2 h), Int64.ofInt_neg, Int64.ofInt_toInt]
    dsimp only
    rw [hi, if_neg h]

theorem ofNat_ne_minValue {n : Nat} (fits : n < 2 ^ 63) : Int64.ofNat n ≠ Int64.minValue := by
  intro h
  have h := congrArg Int64.toInt h
  rw [Int64.toInt_ofNat_of_lt fits, Int64.toInt_minValue] at h
  omega

namespace Term

variable (w : Spelling)

theorem bare_print {t : Term} (h : ∀ s, t ≠ quoted s) : Bare (t.print w) :=
  ⟨(operand_print w t).tight.ne_nil, enclosed?_print w t, quoted?_print w h⟩

theorem evaluate_name {s : Text} (identifier : Text.isIdentifier s = true) :
    evaluate env d ((name s identifier).print w) = .ok (.ofOption (env.get? s)) := by
  have hb : Bare ((name s identifier).print w) := bare_print w fun s => by simp
  have hn := numberLiteral?_of_startsNumber_eq_false (startsNumber_of_isIdentifier identifier).1
  rw [evaluate_eq, ofText_of_operand (operand_print _ _), hb.form_of_name hn identifier]
  rfl

theorem evaluate_quoted (s : Text) :
    evaluate env d ((quoted s).print w) = .ok (.value (.str s)) := by
  have hf : Form.ofTrimmed ((quoted s).print w) = .quoted ⟨escape w.singles s, false, false⟩ :=
    ofTrimmed_of_quoted? (operand_print _ _).tight.ne_nil (enclosed?_print _ _)
      (quoted?_print_quoted _ s)
  rw [evaluate_eq, ofText_of_operand (operand_print _ _), hf]
  simp [Form.evaluate, unescape_escape]

variable {w}

/-- A negative term but that of a literal is read as a sign before its operand. -/
theorem form_print_negative {t : Term} (legible : (negative t).Legible w)
    (h : ∀ s digits, t ≠ literal s digits) :
    Form.ofText ((negative t).print w) = .negation (grouped t.isBinary (t.print w)) := by
  have hb : Bare ((negative t).print w) := bare_print _ fun s => by simp
  rw [ofText_of_operand (operand_print _ _)]
  refine Bare.form_of_minus hb ?_ (cut?_print legible rfl)
  exact numberLiteral?_of_startsNumber_eq_false (startsNumber_negative _ h)

/-- A binary term is read as its operator and the texts of its operands. -/
theorem form_print_binary {op : Operator} {l r : Term} (legible : (binary op l r).Legible w) :
    Form.ofText ((binary op l r).print w) =
      .binary ⟨grouped (l.groupedLeft op) (l.print w) ++ w.gap, op,
        w.gap ++ grouped (r.groupedRight op) (r.print w)⟩ := by
  have hb : Bare ((binary op l r).print w) := bare_print _ fun s => by simp
  have symbol : op.symbol ∈ (binary op l r).print w := by simp [print]
  have hi : Text.isIdentifier ((binary op l r).print w) = false := by
    cases hi : Text.isIdentifier ((binary op l r).print w) with
    | false => rfl
    | true => exact absurd symbol ((atom_of_isIdentifier hi).not_mem (by cases op <;> decide))
  rw [ofText_of_operand (operand_print _ _)]
  exact hb.form_of_cut (numberLiteral?_print_binary w op l r) hi (cut?_print_binary legible)

end Term

namespace Tree

def term : Tree → Term
  | number n _ =>
    .literal (Number.digits n) ⟨Number.digits_ne_nil n,
      List.all_eq_true.2 (Number.isDigit_of_mem_digits n)⟩
  | name s identifier => .name s identifier
  | quoted s => .quoted s
  | negative t => .negative t.term
  | binary op l r => .binary op l.term r.term

section

variable (t : Tree)

@[simp]
theorem isBinary_term : t.term.isBinary = t.isBinary := by
  cases t <;> rfl

@[simp]
theorem isAdditive_term : t.term.isAdditive = t.isAdditive := by
  cases t <;> rfl

@[simp]
theorem groupedLeft_term (op : Operator) : t.term.groupedLeft op = t.groupedLeft op := by
  rw [Term.groupedLeft, groupedLeft, isAdditive_term]

@[simp]
theorem groupedRight_term (op : Operator) : t.term.groupedRight op = t.groupedRight op := by
  rw [Term.groupedRight, groupedRight, isAdditive_term, isBinary_term]

@[simp]
theorem print_term (w : Spelling) : t.term.print w = t.print w := by
  induction t with
  | number n fits => rfl
  | name s identifier => rfl
  | quoted s => rfl
  | negative t ih => rw [term, Term.print, print, isBinary_term, ih]
  | binary op l r ihl ihr =>
    rw [term, Term.print, print, groupedLeft_term, groupedRight_term, ihl, ihr]

end

variable (singles : Bool)

theorem operand_print (w : Spelling) (t : Tree) : Operand (t.print w) := by
  rw [← print_term]
  exact t.term.operand_print w

theorem balanced_print (w : Spelling) (t : Tree) : Nesting.Balanced (t.print w) := by
  rw [← print_term]
  exact t.term.balanced_print w

theorem evaluate_number (w : Spelling) {n : Nat} (fits : n < 2 ^ 63) :
    evaluate env d ((number n fits).print w) = .ok (.value (.int (Int64.ofNat n))) :=
  evaluate_of_numberLiteral? env d
    (by rw [(operand_print _ _).tight.trim_eq]; exact numberLiteral?_digits fits)

theorem evaluate_negative_number (w : Spelling) {n : Nat} (fits : n < 2 ^ 63) :
    evaluate env d ((number n fits).negative.print w) = .ok (.value (.int (-Int64.ofNat n))) :=
  evaluate_of_numberLiteral? env d
    (by rw [(operand_print _ _).tight.trim_eq]; exact numberLiteral?_neg_digits fits)

theorem evaluate_name (w : Spelling) {s : Text} (identifier : Text.isIdentifier s = true) :
    evaluate env d ((name s identifier).print w) = .ok (.ofOption (env.get? s)) :=
  Term.evaluate_name env d w identifier

theorem evaluate_quoted (w : Spelling) (s : Text) :
    evaluate env d ((quoted s).print w) = .ok (.value (.str s)) :=
  Term.evaluate_quoted env d w s

theorem form_negative {t : Tree} (h : ∀ n fits, t ≠ number n fits) :
    Form.ofText ((negative t).print ⟨true, singles⟩) =
      .negation (grouped t.isBinary (t.print ⟨true, singles⟩)) := by
  have other : ∀ s digits, t.term ≠ .literal s digits := by
    intro s digits
    cases t with
    | number n fits => exact absurd rfl (h n fits)
    | name | quoted | negative | binary => exact nofun
  have read : Form.ofText ((negative t).term.print ⟨true, singles⟩) = _ :=
    Term.form_print_negative (Or.inl rfl) other
  rwa [print_term, print_term, isBinary_term] at read

theorem form_binary (op : Operator) (l r : Tree) :
    Form.ofText ((binary op l r).print ⟨true, singles⟩) =
    .binary ⟨grouped (l.groupedLeft op) (l.print ⟨true, singles⟩) ++ [' '], op,
      ' ' :: grouped (r.groupedRight op) (r.print ⟨true, singles⟩)⟩ := by
  have read : Form.ofText ((binary op l r).term.print ⟨true, singles⟩) = _ :=
    Term.form_print_binary (Or.inl rfl)
  rwa [print_term, print_term, print_term, groupedLeft_term, groupedRight_term] at read

end Tree

/-- The text of a printed tree comes to what the tree means, in every environment and both
dialects. -/
theorem evaluate_print (singles : Bool) (t : Tree) :
    evaluate env d (t.print ⟨true, singles⟩) = .ok (t.meaning env d) := by
  -- each operand is a text of its own, for the blanks and parentheses around it do not count
  induction t with
  | number n fits => exact Tree.evaluate_number env d _ fits
  | name s identifier =>
    rw [Tree.evaluate_name, Tree.meaning]
    cases env.get? s <;> rfl
  | quoted s => exact Tree.evaluate_quoted env d _ s
  | negative t ih =>
    by_cases hn : ∃ n fits, t = .number n fits
    · obtain ⟨n, fits, rfl⟩ := hn
      rw [Tree.evaluate_negative_number, Tree.meaning, Tree.meaning]
      dsimp only
      rw [if_neg (ofNat_ne_minValue fits)]
    · have hn : ∀ n fits, t ≠ .number n fits := fun n fits h => hn ⟨n, fits, h⟩
      rw [evaluate_eq, Tree.form_negative singles hn, Form.evaluate,
        evaluate_grouped env d (Tree.balanced_print _ t), ih]
      rw [Tree.meaning]
      cases t.meaning env d with
      | value v =>
        cases v with
        | int n => simp [negate?_int, bind, Except.bind, Evaluation.ofOption]
        | float x => rfl
        | str s => rfl
      | fault => rfl
      | unresolved => rfl
  | binary op l r ihl ihr =>
    have hl : evaluate env d (grouped (l.groupedLeft op) (l.print ⟨true, singles⟩) ++ [' ']) =
        .ok (l.meaning env d) := by
      have :=
        evaluate_blanks env d (a := []) (b := [' '])
          ((l.operand_print ⟨true, singles⟩).grouped (l.groupedLeft op)) rfl rfl
      rw [List.nil_append] at this
      rw [this, evaluate_grouped env d (l.balanced_print _), ihl]
    have hr : evaluate env d (' ' :: grouped (r.groupedRight op) (r.print ⟨true, singles⟩)) =
        .ok (r.meaning env d) := by
      have :=
        evaluate_blanks env d (a := [' ']) (b := [])
          ((r.operand_print ⟨true, singles⟩).grouped (r.groupedRight op)) rfl rfl
      rw [List.append_nil, List.singleton_append] at this
      rw [this, evaluate_grouped env d (r.balanced_print _), ihr]
    rw [evaluate_eq, Tree.form_binary singles op l r, Form.evaluate, hl, Tree.meaning]
    cases l.meaning env d with
    | value a =>
      dsimp only [bind, Except.bind]
      rw [hr]
      cases r.meaning env d with
      | value b =>
        cases h : Value.binary d.trueDivision op a b with
        | ok v => rfl
        | error e => cases e <;> rfl
      | fault => rfl
      | unresolved => rfl
    | fault => rfl
    | unresolved => rfl

example : (Tree.binary .sub (.name ['a'] (by decide))
      (.binary .add (.negative (.negative (.number 1 (by decide))))
    (.quoted ['"']))).print ⟨true, false⟩ = "a - (--1 + \"\\\"\")".toList := by
  decide +kernel

end SourcePreview
