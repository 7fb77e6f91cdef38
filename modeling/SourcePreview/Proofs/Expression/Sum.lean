import SourcePreview.Proofs.Expression.Outermost

/-! Sums of texts that may end in an operator. A plus sign behind an operator is a sign and no sum:
with one between blanks a text comes to nothing, or to what stands before the sign and has no value
(`evaluate_signed`). A plus sign behind anything else is where the text is cut, if only signs stand
behind it (`evaluate_plus`). -/

namespace SourcePreview

namespace Evaluation

variable {d : Dialect} {op : Operator} {l r l' r' : Except Overwide Evaluation}

def Void (e : Except Overwide Evaluation) : Prop := ∀ v, e ≠ .ok (.value v)

def Fades (e e' : Except Overwide Evaluation) : Prop := e = .ok .unresolved ∨ e = e' ∧ Void e'

theorem operation_of_void (h : Void l) : operation d op l r = l := by
  cases l with
  | error o => rfl
  | ok e =>
    cases e with
    | value v => exact absurd rfl (h v)
    | fault | unresolved => rfl

theorem operation_value_of_void (h : Void r) (v : Value) :
    operation d op (.ok (.value v)) r = r := by
  cases r with
  | error o => rfl
  | ok e =>
    cases e with
    | value w => exact absurd rfl (h w)
    | fault | unresolved => rfl

theorem void_unresolved : Void (.ok .unresolved) := nofun

theorem Fades.left (h : Fades l l') : Fades (operation d op l r) l' := by
  rcases h with rfl | ⟨rfl, void⟩
  · exact .inl (operation_of_void void_unresolved)
  · exact .inr ⟨operation_of_void void, void⟩

theorem Fades.right (h : Fades r r') (l : Except Overwide Evaluation) :
    Fades (operation d op l r) (operation d op l r') := by
  by_cases value : ∃ v, l = .ok (.value v)
  · obtain ⟨v, rfl⟩ := value
    rcases h with rfl | ⟨rfl, void⟩
    · exact .inl (operation_value_of_void void_unresolved v)
    · rw [operation_value_of_void void]
      exact .inr ⟨rfl, void⟩
  · have void : Void l := fun v hv => value ⟨v, hv⟩
    rw [operation_of_void void, operation_of_void void]
    exact .inr ⟨rfl, void⟩

end Evaluation

namespace Nesting

variable {l r s t : Text} {c : Char}

/-- At a character at the top level a closed text is cut into two. -/
theorem Closed.split (closed : Closed (l ++ c :: r)) (top : (start.after l).isTop c = true) :
    Closed l ∧ Closed r ∧
    start.path (l ++ c :: r) = start.path l ++ (start, c) :: start.path r := by
  have plain : isPlain c = true := by
    simp only [isTop, Bool.and_eq_true] at top
    simp only [isPlain, top, Bool.and_self]
  have stays : start.step c = start := step_of_isPlain plain 0
  have after : start.after l = start := by
    simp only [isTop, Bool.and_eq_true, Option.isNone_iff_eq_none, beq_iff_eq] at top
    have escaped := escaped_after (n := start) (fun _ => rfl) l top.1.1.1.1
    cases h : start.after l with
    | mk depth quote hidden =>
      simp only [h] at top escaped
      rw [top.1.1.1.1, top.1.1.1.2, escaped]
      rfl
  have path : start.path (l ++ c :: r) = start.path l ++ (start, c) :: start.path r := by
    rw [path_append, after, Nesting.path, stays]
  have whole := closed.after
  rw [after_append, after, after_cons, stays] at whole
  have above := closed.above
  rw [path] at above
  refine ⟨⟨after, fun p hp => above p (List.mem_append_left _ hp)⟩, ⟨whole, fun p hp => above p ?_⟩,
    path⟩
  exact List.mem_append_right _ (List.mem_cons_of_mem _ hp)

/-- A closed text without a plus and without a minus sign at the top level. -/
structure Sumless (s : Text) : Prop where
  closed : Closed s
  plus : Undivided '+' s
  minus : Undivided '-' s

instance (s : Text) : Decidable (Sumless s) :=
  decidable_of_iff (Closed s ∧ Undivided '+' s ∧ Undivided '-' s)
    ⟨fun ⟨closed, plus, minus⟩ => ⟨closed, plus, minus⟩, fun h => ⟨h.closed, h.plus, h.minus⟩⟩

theorem Sumless.append (hs : Sumless s) (ht : Sumless t) : Sumless (s ++ t) :=
  ⟨hs.closed.append ht.closed, .append hs.closed hs.plus ht.plus,
    .append hs.closed hs.minus ht.minus⟩

theorem Sumless.of_blanks (blank : s.all Text.isBlank = true) : Sumless s := by
  have absent : ∀ c, Text.isBlank c = false → c ∉ s := fun c filled mem => by
    rw [List.all_eq_true.1 blank c mem] at filled
    cases filled
  exact ⟨.of_plain (plain_of_blanks blank), .of_not_mem (absent '+' rfl),
    .of_not_mem (absent '-' rfl)⟩

theorem Sumless.split (h : Sumless (l ++ c :: r)) (top : (start.after l).isTop c = true) :
    (c ≠ '+' ∧ c ≠ '-') ∧ Sumless l ∧ Sumless r := by
  obtain ⟨front, back, path⟩ := h.closed.split top
  have parts :
      ∀ {sep}, Undivided sep (l ++ c :: r) → c ≠ sep ∧ Undivided sep l ∧ Undivided sep r := by
    intro sep whole
    unfold Undivided at whole
    rw [path, List.forall_mem_append, List.forall_mem_cons] at whole
    exact ⟨whole.2.1 (front.after ▸ top), whole.1, whole.2.2⟩
  obtain ⟨sum, frontPlus, backPlus⟩ := parts h.plus
  obtain ⟨difference, frontMinus, backMinus⟩ := parts h.minus
  exact ⟨⟨sum, difference⟩, ⟨front, frontPlus, frontMinus⟩, ⟨back, backPlus, backMinus⟩⟩

end Nesting

namespace Cut

open Nesting (Closed Sumless start)

variable {a b s before : Text} {cut : Cut} {found found' : Candidates}

theorem isSign_append (filled : Text.isBlankText s = false) (spaced : s.head?.all (· == ' ') = true)
    (before : Text) :
    isSign (s ++ before) = isSign s := by
  obtain ⟨c, r, rfl⟩ : ∃ c r, s = c :: r := List.exists_cons_of_ne_nil (by rintro rfl; cases filled)
  obtain rfl : c = ' ' := by simpa using spaced
  obtain ⟨e, found⟩ : ∃ e, (' ' :: r).find? (fun c => !Text.isBlank c) = some e := by
    obtain ⟨x, mem, solid⟩ := List.all_eq_false.1 filled
    rw [← Option.isSome_iff_exists, List.find?_isSome]
    exact ⟨x, mem, by simpa using solid⟩
  have plain : ∀ t, endsInExponent (' ' :: t) = false := endsInExponent_cons (by decide) (by decide)
  rw [isSign, isSign, List.find?_append, found, Option.some_or, List.cons_append, plain, plain]

theorem isSign_of_append (spaced : s.head?.all (· == ' ') = true)
    (sign : isSign (s ++ before) = true) : isSign s = true := by
  cases filled : Text.isBlankText s with
  | true => rw [isSign, Text.find?_blanks filled]
  | false => rwa [isSign_append filled spaced] at sign

theorem scan_of_sumless (hs : Sumless s) {t : Text}
    (h : scan start before found (s ++ t) = some found') :
    ∃ next, next.additive = found.additive ∧
      scan start (s.reverse ++ before) next t = some found' := by
  obtain ⟨next, scanned, ranks⟩ := scan_append_eq_some h
  rw [hs.closed.after] at scanned
  refine ⟨next, (ranks true).resolve_right ?_, scanned⟩
  rintro ⟨left, op, right, rfl, additive, top, -⟩
  obtain ⟨⟨sum, difference⟩, -⟩ := hs.split top
  cases op with
  | add => exact sum rfl
  | sub => exact difference rfl
  | mul | div => cases additive

/-- A text over which a scan takes its additive candidate along, wherever it stands. -/
def Unsummed (s : Text) : Prop :=
  ∀ before found found', scan start before found s = some found' → found'.additive = found.additive

theorem unsummed_of_sumless (hs : Sumless s) : Unsummed s := by
  intro before found found' h
  obtain ⟨next, same, last⟩ := scan_of_sumless hs (t := []) (by rwa [List.append_nil])
  obtain rfl : next = found' := Option.some.inj last
  exact same

theorem scan_plus (before t : Text) (found : Candidates) : scan start before found ('+' :: t) =
    scan start ('+' :: before) (if isSign before then found else found.put ⟨before, .add, t⟩)
    t := by
  have top : start.isTop '+' = true ∧ start.step '+' = start := by decide
  rw [scan, if_pos top.1, top.2]
  rfl

theorem unsummed_signed (ha : Sumless a) (filled : Text.isBlankText a = false)
    (spaced : a.getLast?.all (· == ' ') = true) (sign : isSign a.reverse = true)
    (later : Unsummed b) : Unsummed (a ++ '+' :: b) := by
  intro before found found' h
  obtain ⟨next, same, behind⟩ := scan_of_sumless ha h
  have kept : isSign (a.reverse ++ before) = true := by
    rw [isSign_append (by rwa [Text.isBlankText, List.all_reverse]) (by rwa [List.head?_reverse]),
      sign]
  rw [scan_plus, if_pos kept] at behind
  exact (later _ _ _ behind).trans same

theorem unsummed_blank_cons (later : Unsummed b) : Unsummed (' ' :: b) :=
  fun before found found' h => by
  rw [← List.singleton_append, scan_hidden (.of_blanks rfl)] at h
  exact later _ _ _ h

theorem ofText?_signed (ha : Sumless a) (sign : isSign a.reverse = true)
    (h : ofText? (a ++ '+' :: b) = some cut) : (∃ left, left <+: b ∧ cut.left = a ++ '+' :: left) ∨
      ∃ right, ofText? a = some ⟨cut.left, cut.op, right⟩ ∧ cut.right = right ++ '+' :: b := by
  obtain ⟨found, scanned, h⟩ := Option.bind_eq_some_iff.1 h
  obtain ⟨candidate, hc, rfl⟩ := Option.map_eq_some_iff.1 h
  obtain ⟨additive, rank⟩ := exists_rank hc
  have single : ('+' :: b).head? ≠ some '*' ∧ ('+' :: b).head? ≠ some '/' := by simp
  have within := @scan_within start ⟨none, none⟩ [] [] ('+' :: b) rfl single a
  obtain ⟨first, alone, behind⟩ := Option.bind_eq_some_iff.1 (within.symm.trans scanned)
  rw [ha.closed.after, List.append_nil, List.append_nil, scan_plus, if_pos sign] at behind
  rcases rank_scan behind additive with same | ⟨left, op, right, rfl, -, -, last⟩
  · have none : first.additive = none := unsummed_of_sumless ha _ _ _ alone
    rw [rank] at same
    cases additive with
    | true =>
      have empty : (first.within [] ('+' :: b)).rank true = Option.none :=
        congrArg (Option.map _) none
      rw [empty] at same
      cases same
    | false =>
      obtain ⟨cut, hm, rfl⟩ := Option.map_eq_some_iff.1 same.symm
      refine .inr ⟨cut.right, ?_, rfl⟩
      rw [ofText?, alone, Option.bind_some, none, Option.none_or, hm]
      simp [widen]
  · obtain rfl : candidate = _ := Option.some.inj (rank.symm.trans last)
    exact .inl ⟨left, List.prefix_append left _, by simp⟩

theorem ofText?_plus (closed : Closed a) (unsigned : isSign a.reverse = false) (later : Unsummed b)
    (h : ofText? (a ++ '+' :: b) = some cut) : cut = ⟨a, .add, b⟩ := by
  obtain ⟨found, scanned, h⟩ := Option.bind_eq_some_iff.1 h
  obtain ⟨candidate, hc, rfl⟩ := Option.map_eq_some_iff.1 h
  obtain ⟨next, behind, -⟩ := scan_append_eq_some scanned
  rw [closed.after, List.append_nil, scan_plus, if_neg (Bool.eq_false_iff.1 unsigned)]
    at behind
  have last : found.additive = some ⟨a.reverse, .add, b⟩ := later _ _ _ behind
  rw [last, Option.some_or] at hc
  obtain rfl : (⟨a.reverse, .add, b⟩ : Cut) = candidate := Option.some.inj hc
  simp

end Cut

section

open Nesting (Closed Sumless Undivided)
open Quoted (Untripled)

variable (env : Environment) (d : Dialect) {a b : Text}

theorem unread_signed (spaced : a.getLast?.all (· == ' ') = true)
    (next : b.head?.all Text.isBlank = true) :
    numberLiteral? (Text.trim (a ++ '+' :: b)) = none := by
  rw [Text.trim_append_cons rfl]
  cases hs : Text.trimStart a with
  | nil =>
    refine numberLiteral?_of_startsNumber_eq_false ?_
    obtain ⟨t, ht⟩ := Text.trimEnd_isPrefix b
    cases ht' : Text.trimEnd b with
    | nil => rfl
    | cons e t' =>
      rw [ht'] at ht
      have space : Text.isBlank e = true := by simpa [← ht] using next
      have other : (e == '.') = false := by
        rw [beq_eq_false_iff_ne]
        rintro rfl
        cases space
      have sign : Number.isDigit '+' = false := by decide
      simp [startsNumber, sign, not_isDigit_of_isBlank space, other]
  | cons c s =>
    refine numberLiteral?_of_mem (c := ' ') (by decide) (List.mem_append_left _ ?_)
    obtain ⟨t, ht⟩ : Text.trimStart a <:+ a := List.dropWhile_suffix _
    rw [hs] at ht
    rw [← ht, List.getLast?_append, List.getLast?_cons, Option.some_or] at spaced
    refine List.mem_of_getLast? ?_
    rw [List.getLast?_cons]
    exact congrArg some (by simpa using spaced)

theorem unread_factor {op : Operator} (factor : op ≠ .add ∧ op ≠ .sub) (a b : Text) :
    numberLiteral? (Text.trim (a ++ op.symbol :: b)) = none := by
  have foreign : op.symbol ∈ Number.foreigns ∧ Text.isBlank op.symbol = false := by
    cases op with
    | add => exact absurd rfl factor.1
    | sub => exact absurd rfl factor.2
    | mul | div => decide
  rw [Text.trim_append_cons foreign.2]
  exact numberLiteral?_of_mem foreign.1 (by simp)

theorem evaluate_factor (ha : Sumless a) (untripled : Untripled a) {op : Operator} {l r : Text}
    (cut : Cut.ofText? a = some ⟨l, op, r⟩) :
    Sumless r ∧ evaluate env d a =
      Evaluation.operation d op (evaluate env d l) (evaluate env d r) := by
  obtain rfl : a = l ++ op.symbol :: r := Cut.eq_of_ofText? cut
  obtain ⟨⟨sum, difference⟩, front, back⟩ := ha.split (Cut.isTop_of_ofText? cut)
  have factor : op ≠ .add ∧ op ≠ .sub :=
    ⟨by rintro rfl; exact sum rfl, by rintro rfl; exact difference rfl⟩
  refine ⟨back, ?_⟩
  rw [evaluate_operator env d front.closed front.minus factor.2 untripled
    (unread_factor factor l r), cut]

/-- A text with a plus sign behind an operator comes to nothing, or to what stands before the sign
and has no value. -/
theorem evaluate_signed (ha : Sumless a) (sign : Cut.isSign a.reverse = true)
    (spaced : a.getLast?.all (· == ' ') = true) (next : b.head?.all Text.isBlank = true)
    (untripled : Untripled (a ++ '+' :: b)) :
    Evaluation.Fades (evaluate env d (a ++ '+' :: b)) (evaluate env d a) := by
  -- on the length: of the sides of the cut, the one that has the sign in it is of the same kind
  induction hl : (a ++ '+' :: b).length using Nat.strongRecOn generalizing a b with
  | ind length ih =>
    subst hl
    have read :=
      @evaluate_operator env d a b .add ha.closed ha.minus nofun untripled
        (unread_signed spaced next)
    dsimp only [Operator.symbol] at read
    rw [read]
    cases hc : Cut.ofText? (a ++ '+' :: b) with
    | none => exact .inl rfl
    | some cut =>
      obtain ⟨l, op, r⟩ := cut
      have shorter := Cut.length_lt_of_ofText? hc
      rcases Cut.ofText?_signed ha sign hc with ⟨left, beginning, side⟩ | ⟨right, alone, side⟩
      · obtain rfl : l = a ++ '+' :: left := side
        obtain ⟨rest, rfl⟩ := beginning
        have inside : a ++ '+' :: left <:+: a ++ '+' :: (left ++ rest) := ⟨[], rest, by simp⟩
        have next : left.head?.all Text.isBlank = true := by
          cases left with
          | nil => rfl
          | cons c left => exact next
        exact (ih _ shorter.1 ha sign spaced next (untripled.mono inside) rfl).left
      · obtain rfl : r = right ++ '+' :: b := side
        obtain rfl : a = l ++ op.symbol :: right := Cut.eq_of_ofText? alone
        obtain ⟨back, before⟩ :=
          evaluate_factor env d ha (untripled.mono (List.infix_append' [] _ _)) alone
        have inside : right ++ '+' :: b <:+: l ++ op.symbol :: right ++ '+' :: b :=
          ⟨l ++ [op.symbol], [], by simp⟩
        have spaced : right.getLast?.all (· == ' ') = true := by
          cases hr : right.getLast? with
          | none => rfl
          | some c => simpa [List.getLast?_append, List.getLast?_cons, hr] using spaced
        have sign : Cut.isSign right.reverse = true := by
          rw [List.reverse_append, List.reverse_cons, List.append_assoc] at sign
          exact Cut.isSign_of_append (by rwa [List.head?_reverse]) sign
        rw [before]
        exact (ih _ shorter.2 back sign spaced next (untripled.mono inside) rfl).right _

/-- A sum comes to the operation on its sides, or to nothing. -/
theorem evaluate_plus (closed : Closed a) (minus : Undivided '-' a)
    (unsigned : Cut.isSign a.reverse = false) (later : Cut.Unsummed b)
    (spaced : a.getLast?.all (· == ' ') = true) (next : b.head?.all Text.isBlank = true)
    (untripled : Untripled (a ++ '+' :: b)) :
    evaluate env d (a ++ '+' :: b) = .ok .unresolved ∨
      evaluate env d (a ++ '+' :: b) =
        Evaluation.operation d .add (evaluate env d a) (evaluate env d b) := by
  have read :=
    @evaluate_operator env d a b .add closed minus nofun untripled (unread_signed spaced next)
  dsimp only [Operator.symbol] at read
  rw [read]
  cases hc : Cut.ofText? (a ++ '+' :: b) with
  | none => exact .inl rfl
  | some cut =>
    rw [Cut.ofText?_plus closed unsigned later hc]
    exact .inr rfl

end

end SourcePreview
