import SourcePreview.Proofs.Expression.Shape

/-! Where a printed term is cut. A scan that comes to an operand passes over it with the operators
it has at the top level: none if it is in parentheses, and no sum or difference unless it is one
(`passes`). So the last operator a scan of the least rank finds is the one at the root
(`cut?_print`). Without blanks around it, a sign behind a digit and an exponent marker is none of
the operators, so there a name may not end in both where a sum or a difference goes on behind it
(`Legible`). -/

namespace SourcePreview

theorem Text.find?_blanks {s : Text} (blank : s.all isBlank = true) :
    s.find? (fun c => !isBlank c) = none :=
  List.find?_eq_none.2 fun c hc => by simp [List.all_eq_true.1 blank c hc]

namespace Cut

def Candidates.put (found : Candidates) (cut : Cut) : Candidates :=
  if cut.op.isAdditive then { found with additive := some cut }
  else { found with multiplicative := some cut }

variable {found : Candidates} {before after gap : Text}

theorem isBeforeSign_symbol (op : Operator) : isBeforeSign op.symbol = true := by
  cases op <;> decide

theorem add_symbol (op : Operator) {s : Text} (hs : Operand s) (blank : gap.all Text.isBlank = true)
    (plain : op.isAdditive = true → endsInExponent (gap ++ (s.reverse ++ before)) = false)
    (single : op.isAdditive = false → after.head? ≠ some op.symbol) :
    found.add op.symbol (gap ++ (s.reverse ++ before)) after =
      some (found.put ⟨gap ++ (s.reverse ++ before), op, after⟩) := by
  obtain ⟨r, c, rfl, hb, hc⟩ := hs.last
  have hf : (gap ++ ((r ++ [c]).reverse ++ before)).find? (fun c => !Text.isBlank c) = some c := by
    simp [List.find?_append, Text.find?_blanks blank, hb]
  generalize gap ++ ((r ++ [c]).reverse ++ before) = before at hf plain
  have hsign : op.isAdditive = true → isSign before = false := by
    intro additive
    rw [isSign, hf]
    simp [hc, plain additive]
  have hdoubled : op.isAdditive = false → isDoubled op.symbol before after = false := by
    intro multiplicative
    have other : c ≠ op.symbol := by
      rintro rfl
      rw [isBeforeSign_symbol] at hc
      cases hc
    rw [isDoubled, hf]
    simp [single multiplicative, other]
  unfold Candidates.add Candidates.put
  rw [Operator.ofChar?_symbol]
  cases op with
  | add | sub => simp [hsign rfl, Operator.isAdditive]
  | mul | div => simp [hdoubled rfl, Operator.isAdditive]

theorem isSign_blanks_symbol (blank : gap.all Text.isBlank = true) (op : Operator) (before : Text) :
    isSign (gap ++ op.symbol :: before) = true := by
  have filled : Text.isBlank op.symbol = false := by cases op <;> rfl
  have found : (gap ++ op.symbol :: before).find? (fun c => !Text.isBlank c) = some op.symbol := by
    rw [List.find?_append, Text.find?_blanks blank, Option.none_or,
      List.find?_cons_of_pos (by rw [filled]; rfl)]
  rw [isSign, found]
  dsimp only
  rw [isBeforeSign_symbol, Bool.true_or]

theorem isSign_symbol (w : Spelling) (op : Operator) (before : Text) :
    isSign (w.gap ++ op.symbol :: before) = true := by
  refine isSign_blanks_symbol ?_ op before
  unfold Spelling.gap
  cases w.spaced <;> rfl

theorem isSign_minus (before : Text) : isSign ('-' :: before) = true := rfl

theorem add_of_isSign {c : Char} (sign : c = '-' ∨ c = '+') (h : isSign before = true) :
    found.add c before after = some found := by
  rcases sign with rfl | rfl <;> simp [Candidates.add, Operator.ofChar?, h]

theorem add_sign (h : isSign before = true) : found.add '-' before after = some found :=
  add_of_isSign (.inl rfl) h

theorem endsInExponent_cons {c : Char} (lower : c ≠ 'e') (upper : c ≠ 'E') (before : Text) :
    endsInExponent (c :: before) = false := by
  cases before with
  | nil => rfl
  | cons d before => simp [endsInExponent, lower, upper]

theorem endsInExponent_digit {c : Char} (h : Number.isDigit c = true) (before : Text) :
    endsInExponent (c :: before) = false := by
  apply endsInExponent_cons <;> rintro rfl <;> cases h

theorem not_isDigit_of_isSign {c : Char} (h : isSign (c :: before) = true) :
    Number.isDigit c = false := by
  cases digit : Number.isDigit c with
  | false => rfl
  | true =>
    have part := isNamePart_of_isDigit digit
    have filled := Text.isBlank_of_isNamePart part
    rw [isSign, List.find?_cons_of_pos (by simp [filled])] at h
    dsimp only at h
    rw [isBeforeSign_of_not_mem_marks (not_mem_marks part), endsInExponent_digit digit] at h
    cases h

theorem endsInExponent_append {s : Text} (filled : s ≠ []) (h : endsInExponent s = false)
    (sign : isSign before = true) :
    endsInExponent (s ++ before) = false := by
  obtain ⟨c, s, rfl⟩ := List.exists_cons_of_ne_nil filled
  cases s with
  | cons d s => exact h
  | nil =>
    cases before with
    | nil => rfl
    | cons d before => simp [endsInExponent, not_isDigit_of_isSign sign]

end Cut

theorem Operand.head?_append {s : Text} (hs : Operand s) (rest : Text) :
    (s ++ rest).head? = s.head? := by
  obtain ⟨c, r, rfl, -⟩ := hs.first
  rfl

namespace Term

open Cut (scan Candidates)

/-- Whether a printed term ends in a name with a digit and an exponent marker at its end. -/
def endsInExponent : Term → Bool
  | literal _ _ => false
  | name s _ => Cut.endsInExponent s.reverse
  | quoted _ => false
  | negative t => !t.isBinary && t.endsInExponent
  | binary op _ r => !r.groupedRight op && r.endsInExponent

/-- Whether no sum and no difference has such a name right before its sign. -/
def isLegible : Term → Bool
  | literal _ _ => true
  | name _ _ => true
  | quoted _ => true
  | negative t => t.isLegible
  | binary op l r => l.isLegible && r.isLegible && !(op.isAdditive && l.endsInExponent)

/-- A term whose operators are found again in a spelling. -/
def Legible (w : Spelling) (t : Term) : Prop := w.spaced = true ∨ t.isLegible = true

structure Leaves (t : Term) (found found' : Candidates) : Prop where
  single : t.isBinary = false → found' = found
  additive : t.isAdditive = false → found'.additive = found.additive

theorem Leaves.refl (t : Term) (found : Candidates) : t.Leaves found found :=
  ⟨fun _ => rfl, fun _ => rfl⟩

def Passes (w : Spelling) (t : Term) : Prop :=
  ∀ before found rest, Cut.isSign before = true →
    ∃ found', scan .start before found (t.print w ++ rest) =
      scan .start ((t.print w).reverse ++ before) found' rest ∧
      t.Leaves found found'

variable {w : Spelling} {op : Operator} {l r t : Term} {before : Text}

theorem all_isBlank_gap (w : Spelling) : w.gap.all Text.isBlank = true := by
  unfold Spelling.gap
  split <;> decide

theorem reverse_gap (w : Spelling) : w.gap.reverse = w.gap := by
  unfold Spelling.gap
  split <;> rfl

theorem hidden_gap (w : Spelling) : Nesting.Hidden w.gap := by
  unfold Spelling.gap
  split
  · exact .singleton rfl rfl
  · exact .nil

theorem endsInExponent_grouped {needed : Bool} {s : Text}
    (h : needed = false → Cut.endsInExponent (s.reverse ++ before) = false) :
    Cut.endsInExponent ((grouped needed s).reverse ++ before) = false := by
  cases needed with
  | false => exact h rfl
  | true =>
    have last : (grouped true s).reverse ++ before = ')' :: (s.reverse ++ '(' :: before) := by
      simp [grouped]
    rw [last]
    exact Cut.endsInExponent_cons (by decide) (by decide) _

theorem endsInExponent_print (w : Spelling) (h : t.endsInExponent = false)
    (sign : Cut.isSign before = true) :
    Cut.endsInExponent ((t.print w).reverse ++ before) = false := by
  induction t generalizing before with
  | literal s digits =>
    obtain ⟨r, c, rfl⟩ := (List.eq_nil_or_concat s).resolve_left digits.1
    have digit : Number.isDigit c = true := List.all_eq_true.1 digits.2 c (by simp)
    have last : (r.concat c).reverse ++ before = c :: (r.reverse ++ before) := by simp
    rw [print, last]
    exact Cut.endsInExponent_digit digit _
  | name s identifier =>
    have filled : s.reverse ≠ [] := by simpa using (atom_of_isIdentifier identifier).ne_nil
    exact Cut.endsInExponent_append filled h sign
  | quoted s =>
    have last : (quotation w.singles s).reverse ++ before =
        '"' :: ((escape w.singles s).reverse ++ '"' :: before) := by
      simp [quotation]
    rw [print, last]
    exact Cut.endsInExponent_cons (by decide) (by decide) _
  | negative t ih =>
    have whole : ((negative t).print w).reverse ++ before =
        (grouped t.isBinary (t.print w)).reverse ++ '-' :: before := by
      simp [print]
    rw [whole]
    refine endsInExponent_grouped fun bare => ih ?_ (Cut.isSign_minus before)
    simpa [endsInExponent, bare] using h
  | binary op l r _ ihr =>
    have whole : ((binary op l r).print w).reverse ++ before =
        (grouped (r.groupedRight op) (r.print w)).reverse ++
        (w.gap ++ op.symbol ::
          (w.gap ++ ((grouped (l.groupedLeft op) (l.print w)).reverse ++ before))) := by
      simp [print, reverse_gap]
    rw [whole]
    refine endsInExponent_grouped fun bare => ihr ?_ (Cut.isSign_symbol w op _)
    simpa [endsInExponent, bare] using h

namespace Legible

theorem of_negative (h : (negative t).Legible w) : t.Legible w := h

theorem left (h : (binary op l r).Legible w) : l.Legible w :=
  h.imp_right fun h => by
    simp only [isLegible, Bool.and_eq_true] at h
    exact h.1.1

theorem right (h : (binary op l r).Legible w) : r.Legible w :=
  h.imp_right fun h => by
    simp only [isLegible, Bool.and_eq_true] at h
    exact h.1.2

/-- Before a sum or a difference stands no exponent marker: a blank does, or the left operand has
none at its end. -/
theorem plain (h : (binary op l r).Legible w) (additive : op.isAdditive = true)
    (sign : Cut.isSign before = true) :
    Cut.endsInExponent (w.gap ++ ((grouped (l.groupedLeft op) (l.print w)).reverse ++ before)) =
      false := by
  cases hw : w.spaced with
  | true =>
    rw [show w.gap = [' '] by simp [Spelling.gap, hw]]
    exact Cut.endsInExponent_cons (by decide) (by decide) _
  | false =>
    rw [show w.gap = [] by simp [Spelling.gap, hw], List.nil_append]
    have unmarked : l.endsInExponent = false := by
      have legible := h.resolve_left (by simp [hw])
      simpa [isLegible, additive] using (Bool.and_eq_true_iff.1 legible).2
    exact endsInExponent_grouped fun _ => endsInExponent_print w unmarked sign

end Legible

theorem head?_print_ne (w : Spelling) (t : Term) (multiplicative : op.isAdditive = false) :
    (t.print w).head? ≠ some op.symbol := by
  have mark : op.symbol ∈ marks := by cases op <;> decide
  have other : op.symbol ∉ ['"', '-', '('] := by
    cases op with
    | add | sub => cases multiplicative
    | mul | div => decide
  induction t with
  | literal s digits => exact (atom_of_digits digits).head?_ne mark
  | name s identifier => exact (atom_of_isIdentifier identifier).head?_ne mark
  | quoted s => exact fun h => other (by simp [← Option.some.inj h])
  | negative t _ => exact fun h => other (by simp [← Option.some.inj h])
  | binary op' l r ihl _ =>
    rw [print, List.append_assoc]
    cases l.groupedLeft op' with
    | true => exact fun h => other (by simp [← Option.some.inj h])
    | false => rwa [grouped, if_neg (by decide), (operand_print w l).head?_append]

theorem head?_gap_append_ne (w : Spelling) (t : Term) (needed : Bool) (rest : Text)
    (multiplicative : op.isAdditive = false) :
    (w.gap ++ (grouped needed (t.print w) ++ rest)).head? ≠ some op.symbol := by
  have other : op.symbol ∉ [' ', '('] := by cases op <;> decide
  cases hw : w.spaced with
  | true =>
    rw [show w.gap = [' '] by simp [Spelling.gap, hw]]
    exact fun h => other (by simp [← Option.some.inj h])
  | false =>
    rw [show w.gap = [] by simp [Spelling.gap, hw], List.nil_append]
    cases needed with
    | true => exact fun h => other (by simp [← Option.some.inj h])
    | false =>
      rw [grouped, if_neg (by decide), (operand_print w t).head?_append]
      exact head?_print_ne w t multiplicative

/-- Parentheses hide what a term has at the top level. -/
theorem Passes.grouped (ht : t.Passes w) (needed : Bool) (found : Candidates) (rest : Text)
    (h : Cut.isSign before = true) :
    ∃ found', scan .start before found (grouped needed (t.print w) ++ rest) =
      scan .start ((SourcePreview.grouped needed (t.print w)).reverse ++ before) found' rest ∧
        t.Leaves found found' ∧ (needed = true → found' = found) := by
  cases needed with
  | false =>
    obtain ⟨found', h1, h2⟩ := ht before found rest h
    exact ⟨found', h1, h2, fun h => nomatch h⟩
  | true =>
    exact ⟨found, Cut.scan_hidden (.group (balanced_print _ t).closed) before found rest,
      .refl t found, fun _ => rfl⟩

theorem scan_blanks_operator (op : Operator) {s gap : Text} (hs : Operand s)
    (blank : gap.all Text.isBlank = true) (hidden : Nesting.Hidden gap) {before rest : Text}
    (found : Candidates)
    (plain : op.isAdditive = true →
      Cut.endsInExponent (gap.reverse ++ (s.reverse ++ before)) = false)
    (single : op.isAdditive = false → rest.head? ≠ some op.symbol) :
    scan .start (s.reverse ++ before) found (gap ++ op.symbol :: rest) =
      scan .start (op.symbol :: (gap.reverse ++ (s.reverse ++ before)))
        (found.put ⟨gap.reverse ++ (s.reverse ++ before), op, rest⟩)
        rest := by
  have top : Nesting.start.isTop op.symbol = true := by cases op <;> decide
  have step : Nesting.start.step op.symbol = Nesting.start := by cases op <;> decide
  rw [Cut.scan_hidden hidden, scan, if_pos top,
    Cut.add_symbol op hs (by rwa [List.all_reverse]) plain single, step, Option.bind_some]

theorem scan_operator (w : Spelling) (op : Operator) {s : Text} (hs : Operand s)
    {before rest : Text} (found : Candidates)
    (plain : op.isAdditive = true → Cut.endsInExponent (w.gap ++ (s.reverse ++ before)) = false)
    (single : op.isAdditive = false → (w.gap ++ rest).head? ≠ some op.symbol) :
    scan .start (s.reverse ++ before) found (w.gap ++ op.symbol :: (w.gap ++ rest)) =
      scan .start (w.gap ++ op.symbol :: (w.gap ++ (s.reverse ++ before)))
        (found.put ⟨w.gap ++ (s.reverse ++ before), op, w.gap ++ rest⟩) rest := by
  have passed :=
    scan_blanks_operator op hs (all_isBlank_gap w) (hidden_gap w) found (by rwa [reverse_gap])
      single
  rw [passed, Cut.scan_hidden (hidden_gap w), reverse_gap]

theorem scan_symbol (op : Operator) {s : Text} (hs : Operand s) (before rest : Text)
    (found : Candidates) :
    scan .start (s.reverse ++ before) found (' ' :: op.symbol :: ' ' :: rest) =
      scan .start (' ' :: op.symbol :: ' ' :: (s.reverse ++ before))
        (found.put ⟨' ' :: (s.reverse ++ before), op, ' ' :: rest⟩) rest :=
  scan_operator ⟨true, true⟩ op hs found (fun _ =>
    Cut.endsInExponent_cons (by decide) (by decide) _)
    (fun _ h => absurd (Option.some.inj h) (by cases op <;> decide))

def rootCut (w : Spelling) (op : Operator) (l r : Term) (before rest : Text) : Cut :=
  ⟨w.gap ++ ((grouped (l.groupedLeft op) (l.print w)).reverse ++ before), op,
    w.gap ++ (grouped (r.groupedRight op) (r.print w) ++ rest)⟩

/-- A scan that comes to a printed binary term leaves it with the cut at its root, and a product or
a quotient with no sum or difference of its own. -/
theorem scan_binary (hl : l.Passes w) (hr : r.Passes w) (legible : (binary op l r).Legible w)
    (found : Candidates) (rest : Text) (h : Cut.isSign before = true) :
    ∃ found', scan .start before found ((binary op l r).print w ++ rest) =
        scan .start (((binary op l r).print w).reverse ++ before) found' rest ∧
      if op.isAdditive then found'.additive = some (rootCut w op l r before rest)
      else found'.additive = found.additive ∧
      found'.multiplicative = some (rootCut w op l r before rest) := by
  have hs : Operand (grouped (l.groupedLeft op) (l.print w)) := (operand_print _ l).grouped _
  obtain ⟨found₁, h1, left, groupedLeft⟩ := hl.grouped (l.groupedLeft op) found
    (w.gap ++ op.symbol :: (w.gap ++ (grouped (r.groupedRight op) (r.print w) ++ rest))) h
  obtain ⟨found₂, h2, right, groupedRight⟩ :=
    hr.grouped (r.groupedRight op) (found₁.put (rootCut w op l r before rest))
    rest (Cut.isSign_symbol w op
      (w.gap ++ ((grouped (l.groupedLeft op) (l.print w)).reverse ++ before)))
  refine ⟨found₂, ?_, ?_⟩
  · have e : (binary op l r).print w ++ rest = grouped (l.groupedLeft op) (l.print w) ++
        (w.gap ++ op.symbol :: (w.gap ++ (grouped (r.groupedRight op) (r.print w) ++ rest))) := by
      simp [print]
    rw [e, h1, scan_operator w op hs found₁ (fun additive => legible.plain additive h)
      (head?_gap_append_ne w r (r.groupedRight op) rest)]
    refine h2.trans ?_
    simp [print, reverse_gap]
  · unfold Term.groupedLeft at groupedLeft
    unfold Term.groupedRight at groupedRight
    cases ho : op.isAdditive with
    | true =>
      rw [ho] at groupedRight
      have put : (found₁.put (rootCut w op l r before rest)).additive =
          some (rootCut w op l r before rest) := by
        simp [Candidates.put, rootCut, ho]
      rw [if_pos rfl, ← put]
      cases hb : r.isAdditive with
      | true => rw [groupedRight hb]
      | false => exact right.additive hb
    | false =>
      rw [ho] at groupedLeft groupedRight
      have put : (found₁.put (rootCut w op l r before rest)) =
          { found₁ with multiplicative := some (rootCut w op l r before rest) } := by
        simp [Candidates.put, rootCut, ho]
      have same : found₂ = found₁.put (rootCut w op l r before rest) := by
        cases hb : r.isBinary with
        | true => exact groupedRight hb
        | false => exact right.single hb
      rw [if_neg (by decide), same, put]
      refine ⟨?_, rfl⟩
      cases ha : l.isAdditive with
      | true => rw [groupedLeft (by rw [ha]; rfl)]
      | false => exact left.additive ha

theorem passes (t : Term) (legible : t.Legible w) : t.Passes w := by
  induction t with
  | literal s digits =>
    intro before found rest _
    exact ⟨found, Cut.scan_hidden (atom_of_digits digits).hidden before found rest, .refl _ found⟩
  | name s identifier =>
    intro before found rest _
    exact ⟨found, Cut.scan_hidden (atom_of_isIdentifier identifier).hidden before found rest,
      .refl _ found⟩
  | quoted s =>
    intro before found rest _
    exact ⟨found, Cut.scan_hidden (.quotation w.singles s) before found rest, .refl _ found⟩
  | negative t ih =>
    intro before found rest h
    obtain ⟨found', h1, h2, h3⟩ :=
      (ih legible.of_negative).grouped t.isBinary found rest (Cut.isSign_minus before)
    have same : found' = found := by
      cases hb : t.isBinary with
      | true => exact h3 hb
      | false => exact h2.single hb
    have minus : scan .start before found ((negative t).print w ++ rest) =
        scan .start ('-' :: before) found (grouped t.isBinary (t.print w) ++ rest) := by
      rw [print, List.cons_append, scan, if_pos (by decide), Cut.add_sign h]
      rfl
    refine ⟨found, ?_, .refl _ found⟩
    rw [minus, h1, same]
    simp [print]
  | binary op l r ihl ihr =>
    intro before found rest h
    obtain ⟨found', h1, h2⟩ :=
      scan_binary (ihl legible.left) (ihr legible.right) legible found rest h
    refine ⟨found', h1, fun h => (by cases h), fun h => ?_⟩
    rw [isAdditive] at h
    rw [h] at h2
    exact h2.1

theorem cut?_print_binary (legible : (binary op l r).Legible w) :
    Cut.ofText? ((binary op l r).print w) = some ⟨grouped (l.groupedLeft op) (l.print w) ++ w.gap,
        op,
      w.gap ++ grouped (r.groupedRight op) (r.print w)⟩ := by
  obtain ⟨found, h1, h2⟩ :=
    scan_binary (l.passes legible.left) (r.passes legible.right) legible ⟨none, none⟩ []
    (by rfl : Cut.isSign [] = true)
  have hc : found.additive.or found.multiplicative = some (rootCut w op l r [] []) := by
    cases ho : op.isAdditive with
    | true =>
      rw [ho, if_pos rfl] at h2
      rw [h2, Option.some_or]
    | false =>
      rw [ho, if_neg (by decide)] at h2
      rw [h2.1, h2.2, Option.none_or]
  rw [List.append_nil] at h1
  rw [Cut.ofText?, h1, scan, Option.bind_some, hc]
  simp [rootCut, reverse_gap]

/-- A printed term without an operator at its root is not cut. -/
theorem cut?_print (legible : t.Legible w) (h : t.isBinary = false) :
    Cut.ofText? (t.print w) = none := by
  obtain ⟨found, h1, h2⟩ := t.passes legible [] ⟨none, none⟩ [] rfl
  rw [List.append_nil] at h1
  rw [Cut.ofText?, h1, scan, h2.single h]
  rfl

end Term

end SourcePreview
