import Mathlib.Data.List.Forall2
import Mathlib.Data.List.Induction
import SourcePreview.Expression.Rendering
import SourcePreview.Proofs.Expression.Dependence
import SourcePreview.Proofs.Expression.Sum

/-! Sums as they are shown. If the first operand is a text or nothing, a sum is shown as its
operands are, one after the other, whether it has a value or is shown loosely (`render_sum`). What a
sum comes to is what stands before its last plus sign that is no sign, joined with what stands
behind it (`agrees_sumText`). -/

namespace SourcePreview

open Nesting (Closed Sumless Undivided)
open Quoted (Untripled)

namespace Text

variable {sep : Text} {xs ys : List Text}

theorem join_append (hx : xs ≠ []) (hy : ys ≠ []) :
    join sep (xs ++ ys) = join sep xs ++ sep ++ join sep ys := by
  unfold join
  induction xs with
  | nil => exact absurd rfl hx
  | cons x xs ih =>
    cases xs with
    | nil =>
      rw [List.singleton_append, List.intercalate_cons_of_ne_nil hy, List.intercalate_singleton]
    | cons x' xs =>
      rw [List.cons_append, List.cons_append, List.intercalate_cons_cons,
        List.intercalate_cons_cons, ← List.cons_append, ih (List.cons_ne_nil _ _)]
      simp

end Text

theorem Quoted.Untripled.nil : Untripled [] := fun q _ h => by simpa using h.length_le

theorem Quoted.Untripled.append_cons {s t : Text} {c : Char} (hs : Untripled s) (ht : Untripled t)
    (unquoted : Nesting.isQuote c = false) : Untripled (s ++ c :: t) := by
  intro q quote h
  have absent : c ∉ [q, q, q] := by
    intro mem
    obtain rfl : c = q := by simpa using mem
    rw [unquoted] at quote
    cases quote
  exact (Text.infix_of_absent absent h).elim (hs q quote) (ht q quote)

/-- An operand of a sum: a text with closed quotes and brackets, with no plus and no minus sign
outside of them, and with no three equal quotes side by side. -/
structure Summand (s : Text) : Prop where
  filled : Text.isBlankText s = false
  sumless : Sumless s
  untripled : Untripled s

instance (s : Text) : Decidable (Summand s) :=
  decidable_of_iff (Text.isBlankText s = false ∧ Sumless s ∧ Untripled s)
    ⟨fun ⟨filled, sumless, untripled⟩ => ⟨filled, sumless, untripled⟩,
      fun h => ⟨h.filled, h.sumless, h.untripled⟩⟩

/-- Operands with plus signs between blanks between them. -/
def sumText (operands : List Text) : Text := Text.join " + ".toList operands

def beforeSign (s : Text) : Bool := Cut.isSign (' ' :: s.reverse)

theorem sumText_append {xs ys : List Text} (hx : xs ≠ []) (hy : ys ≠ []) :
    sumText (xs ++ ys) = sumText xs ++ [' '] ++ '+' :: ' ' :: sumText ys := by
  rw [sumText, Text.join_append hx hy, List.append_assoc, List.append_assoc]
  rfl

theorem sumText_singleton (s : Text) : sumText [s] = s := by
  rw [sumText, Text.join, List.intercalate_singleton]

theorem sumText_cons_cons (first second : Text) (others : List Text) :
    sumText (first :: second :: others) =
      first ++ [' '] ++ '+' :: ' ' :: sumText (second :: others) := by
  rw [← List.singleton_append, sumText_append (List.cons_ne_nil _ _) (List.cons_ne_nil _ _),
    sumText_singleton]

theorem isSign_spaced {s : Text} (filled : Text.isBlankText s = false) (before : Text) :
    Cut.isSign (' ' :: (s.reverse ++ before)) = beforeSign s := by
  have filled : Text.isBlankText (' ' :: s.reverse) = false := by
    rw [Text.isBlankText, List.all_cons, List.all_reverse]
    exact filled
  exact Cut.isSign_append filled rfl before

section

variable {operands : List Text} (each : ∀ s ∈ operands, Summand s)
include each

theorem closed_sumText : Closed (sumText operands) :=
  .join (by decide) fun s hs => (each s hs).sumless.closed

theorem undivided_sumText : Undivided '-' (sumText operands) := by
  induction operands with
  | nil => exact .of_not_mem List.not_mem_nil
  | cons first others ih =>
    rw [List.forall_mem_cons] at each
    cases others with
    | nil =>
      rw [sumText_singleton]
      exact each.1.sumless.minus
    | cons second others =>
      have between : Closed " + ".toList ∧ Undivided '-' " + ".toList := by decide
      rw [sumText, Text.join, List.intercalate_cons_cons]
      exact .append (each.1.sumless.closed.append between.1)
        (.append each.1.sumless.closed each.1.sumless.minus between.2)
        (ih each.2)

theorem untripled_sumText : Untripled (sumText operands) := by
  induction operands with
  | nil => exact .nil
  | cons first others ih =>
    rw [List.forall_mem_cons] at each
    cases others with
    | nil =>
      rw [sumText_singleton]
      exact each.1.untripled
    | cons second others =>
      rw [sumText_cons_cons]
      have front : Untripled (first ++ [' ']) := each.1.untripled.append_cons .nil rfl
      exact front.append_cons (Untripled.append_cons .nil (ih each.2) rfl) rfl

end

/-- Operands of which all but the last end in an operator, so that the plus signs between them are
signs. -/
def Signed (operands : List Text) : Prop := ∀ s ∈ operands.dropLast, beforeSign s = true

theorem Signed.head {first second : Text} {others : List Text}
    (h : Signed (first :: second :: others)) :
    Cut.isSign (first ++ [' ']).reverse = true := by
  rw [List.reverse_append]
  exact h first List.mem_cons_self

section

variable {first : Text} {others : List Text} (each : ∀ s ∈ first :: others, Summand s)
  (signed : Signed (first :: others))
include each signed

theorem unsummed_sumText : Cut.Unsummed (sumText (first :: others)) := by
  induction others generalizing first with
  | nil =>
    rw [sumText_singleton]
    exact Cut.unsummed_of_sumless (each first List.mem_cons_self).sumless
  | cons second others ih =>
    rw [List.forall_mem_cons] at each
    have later := ih each.2 fun s hs => signed s (List.mem_cons_of_mem first hs)
    have filled : Text.isBlankText (first ++ [' ']) = false := by
      rw [Text.isBlankText, List.all_append, Bool.and_eq_false_iff]
      exact .inl each.1.filled
    rw [sumText_cons_cons]
    exact Cut.unsummed_signed (each.1.sumless.append (.of_blanks rfl)) filled (by simp) signed.head
      (Cut.unsummed_blank_cons later)

theorem evaluate_sumText_of_signed (env : Environment) (d : Dialect) :
    evaluate env d (sumText (first :: others)) = .ok .unresolved ∨
      evaluate env d (sumText (first :: others)) = evaluate env d first ∧
        (others = [] ∨ Evaluation.Void (evaluate env d first)) := by
  cases others with
  | nil => exact .inr ⟨by rw [sumText_singleton], .inl rfl⟩
  | cons second others =>
    have untripled := untripled_sumText each
    rw [List.forall_mem_cons] at each
    rw [sumText_cons_cons] at untripled ⊢
    have trimmed : evaluate env d (first ++ [' ']) = evaluate env d first :=
      evaluate_congr_trim env d (Text.trim_append_blanks rfl first)
    have fades :=
      evaluate_signed env d (each.1.sumless.append (.of_blanks rfl)) signed.head (by simp) rfl
        untripled
    rw [trimmed] at fades
    exact fades.imp_right fun ⟨same, void⟩ => ⟨same, .inr void⟩

end

/-- Whether an evaluation comes to nothing, to the text that is shown, or to the failure that
showing it comes to. -/
def Agrees (e : Except Overwide Evaluation) (shown : Except Overwide Text) : Prop :=
  e = .ok .unresolved ∨ (∃ t, e = .ok (.value (.str t)) ∧ shown = .ok t) ∨ ∃ o, e = .error o ∧
  shown = .error o

theorem renderAll_append {ε : Type} (render : Text → Except ε Text) (xs ys : List Text) :
    renderAll render (xs ++ ys) =
    (do .ok ((← renderAll render xs) ++ (← renderAll render ys))) := by
  induction xs with
  | nil =>
    rw [List.nil_append]
    cases renderAll render ys <;> rfl
  | cons x xs ih =>
    rw [List.cons_append, renderAll, renderAll, ih]
    cases render x with
    | error e => rfl
    | ok s =>
      cases renderAll render xs with
      | error e => rfl
      | ok t =>
        cases renderAll render ys with
        | error e => rfl
        | ok u => exact congrArg Except.ok (List.append_assoc s t u).symm

section

variable {env : Environment} {d : Dialect}

theorem render_of_value {s : Text} {v : Value} (h : evaluate env d s = .ok (.value v)) :
    render env d s = .ok v.text := by
  rw [render_eq, h]
  rfl

theorem render_of_error {s : Text} {o : Overwide} (h : evaluate env d s = .error o) :
    render env d s = .error o := by
  rw [render_eq, h]
  rfl

variable {front : List Text} {first : Text} {others : List Text}

theorem Agrees.plus {e : Except Overwide Evaluation}
    (left : Agrees (evaluate env d (sumText front)) (renderAll (render env d) front))
    (each : ∀ s ∈ first :: others, Summand s) (signed : Signed (first :: others))
    (faultless : evaluate env d first ≠ .ok .fault) (he : e = .ok .unresolved ∨
      e = Evaluation.operation d .add (evaluate env d (sumText front))
      (evaluate env d (sumText (first :: others)))) :
    Agrees e (renderAll (render env d) (front ++ first :: others)) := by
  rcases he with rfl | rfl
  · exact .inl rfl
  rcases left with left | ⟨t, left, shown⟩ | ⟨o, left, shown⟩
  · rw [left]
    exact .inl rfl
  · rw [left, renderAll_append, shown]
    rcases evaluate_sumText_of_signed each signed env d with right | ⟨right, rest⟩
    · rw [right]
      exact .inl rfl
    rw [right]
    cases he : evaluate env d first with
    | error o =>
      refine .inr (.inr ⟨o, rfl, ?_⟩)
      rw [renderAll, render_of_error he]
      rfl
    | ok e =>
      cases e with
      | value v =>
        obtain rfl := rest.resolve_right fun void => void v he
        refine .inr (.inl ⟨t ++ v.text, by cases v <;> rfl, ?_⟩)
        rw [renderAll, render_of_value he, renderAll]
        simp [bind, Except.bind]
      | fault => exact absurd he faultless
      | unresolved => exact .inl rfl
  · rw [left, renderAll_append, shown]
    exact .inr (.inr ⟨o, rfl, rfl⟩)

theorem isSign_sumText (front : List Text) {last : Text} (filled : Text.isBlankText last = false) :
    Cut.isSign (sumText (front ++ [last]) ++ [' ']).reverse = beforeSign last := by
  obtain ⟨before, whole⟩ : ∃ before, sumText (front ++ [last]) = before ++ last := by
    cases front with
    | nil => exact ⟨[], sumText_singleton last⟩
    | cons x xs =>
      rw [sumText_append (List.cons_ne_nil _ _) (List.cons_ne_nil _ _), sumText_singleton]
      exact ⟨sumText (x :: xs) ++ " + ".toList, by simp⟩
  rw [whole, List.reverse_append, List.reverse_append]
  exact isSign_spaced filled before.reverse

/-- What operands come to as a sum agrees with what is shown of them. -/
theorem agrees_sumText (each : ∀ s ∈ front ++ first :: others, Summand s)
    (signed : Signed (first :: others)) (text : ∀ s, (front ++ first :: others).head? = some s →
      (∃ t, evaluate env d s = .ok (.value (.str t))) ∨ evaluate env d s = .ok .unresolved)
    (faultless : ∀ s ∈ front ++ first :: others, evaluate env d s ≠ .ok .fault) :
    Agrees (evaluate env d (sumText (front ++ first :: others)))
    (renderAll (render env d) (front ++ first :: others)) := by
  induction front using List.reverseRecOn generalizing first others with
  | nil =>
    rw [List.nil_append] at each ⊢
    rcases evaluate_sumText_of_signed each signed env d with unresolved | ⟨same, rest⟩
    · exact .inl unresolved
    rcases text first rfl with ⟨t, value⟩ | unresolved
    · obtain rfl := rest.resolve_right fun void => void _ value
      refine .inr (.inl ⟨t, same.trans value, ?_⟩)
      rw [renderAll, render_of_value value, renderAll]
      simp [bind, Except.bind, Value.text]
    · exact .inl (same.trans unresolved)
  | append_singleton front last ih =>
    cases sign : beforeSign last with
    | true =>
      rw [List.append_assoc, List.singleton_append] at each text faultless ⊢
      refine ih each (fun s hs => ?_) text faultless
      rcases List.mem_cons.1 hs with rfl | hs
      · exact sign
      · exact signed s hs
    | false =>
      obtain ⟨before, behind⟩ := List.forall_mem_append.1 each
      have left :=
        @ih last [] before (List.forall_mem_nil _) (fun s hs =>
          text s (by rw [List.head?_append, hs]; rfl))
        (List.forall_mem_append.1 faultless).1
      have blank : Closed [' '] ∧ Undivided '-' [' '] := by decide
      have closed := closed_sumText before
      have untripled := untripled_sumText each
      rw [sumText_append (by simp) (List.cons_ne_nil _ _)] at untripled ⊢
      have sum :=
        evaluate_plus env d (closed.append blank.1)
          (.append closed (undivided_sumText before) blank.2)
        ((isSign_sumText front (before last (by simp)).filled).trans sign)
        (Cut.unsummed_blank_cons (unsummed_sumText behind signed)) (by simp) rfl untripled
      have trimmed :
        evaluate env d (' ' :: sumText (first :: others)) =
          evaluate env d (sumText (first :: others)) :=
        evaluate_congr_trim env d (Text.trim_blanks_append (s := [' ']) rfl _)
      rw [evaluate_congr_trim env d
        (Text.trim_append_blanks (b := [' ']) rfl (sumText (front ++ [last]))), trimmed] at sum
      exact left.plus behind signed (faultless first (by simp)) sum

theorem render_of_sumless {s : Text} (hs : Sumless s) : render env d s = (do
    match ← evaluate env d s with
    | .unresolved => .ok (dequote s)
    | e => .ok (e.shown s)) := by
  have single : looseOperands? s = none := by
    rw [looseOperands?, Nesting.splitTop_of_undivided hs.closed hs.plus]
    rfl
  have eq := render_eq env d s
  rw [single] at eq
  exact eq

def Padded (part s : Text) : Prop :=
  ∃ a b, a.all Text.isBlank = true ∧ b.all Text.isBlank = true ∧ part = a ++ s ++ b

theorem Padded.trim_eq {part s : Text} (h : Padded part s) : Text.trim part = Text.trim s := by
  obtain ⟨a, b, ha, hb, rfl⟩ := h
  rw [Text.trim_append_blanks hb, Text.trim_blanks_append ha]

theorem Padded.sumless {part s : Text} (h : Padded part s) (hs : Summand s) : Sumless part := by
  obtain ⟨a, b, ha, hb, rfl⟩ := h
  exact ((Sumless.of_blanks ha).append hs.sumless).append (.of_blanks hb)

theorem Padded.filled {part s : Text} (h : Padded part s) (hs : Summand s) :
    Text.isBlankText part = false := by
  obtain ⟨a, b, -, -, rfl⟩ := h
  have filled := hs.filled
  rw [Text.isBlankText] at filled ⊢
  rw [List.all_append, List.all_append, filled, Bool.and_false, Bool.false_and]

theorem Padded.render_eq {part s : Text} (h : Padded part s) (hs : Summand s) :
    render env d part = render env d s := by
  rw [render_of_sumless (h.sumless hs), render_of_sumless hs.sumless,
    evaluate_congr_trim env d h.trim_eq]
  cases evaluate env d s with
  | error o => rfl
  | ok e =>
    cases e with
    | value | fault => rfl
    | unresolved =>
      show Except.ok (dequote part) = Except.ok (dequote s)
      rw [dequote, dequote, h.trim_eq]

theorem padded_splitTop {a : Text} (blank : a.all Text.isBlank = true)
    (each : ∀ s ∈ first :: others, Summand s) :
    List.Forall₂ Padded (Nesting.splitTop '+' (a ++ sumText (first :: others)))
    (first :: others) := by
  induction others generalizing first a with
  | nil =>
    have padded : Padded (a ++ first) first := ⟨a, [], blank, rfl, (List.append_nil _).symm⟩
    have sumless := padded.sumless (each first List.mem_cons_self)
    rw [sumText_singleton, Nesting.splitTop_of_undivided sumless.closed sumless.plus]
    exact .cons padded .nil
  | cons second others ih =>
    rw [List.forall_mem_cons] at each
    have padded : Padded (a ++ first ++ [' ']) first := ⟨a, [' '], blank, rfl, rfl⟩
    have sumless := padded.sumless each.1
    have whole : a ++ sumText (first :: second :: others) =
        a ++ first ++ [' '] ++ '+' :: ([' '] ++ sumText (second :: others)) := by
          simp [sumText_cons_cons]
    rw [whole, Nesting.splitTop_append_cons rfl sumless.closed.after sumless.plus]
    exact .cons padded (@ih second [' '] rfl each.2)

theorem Padded.renderAll_eq {parts operands : List Text} (h : List.Forall₂ Padded parts operands)
    (each : ∀ s ∈ operands, Summand s) : (parts.all fun part => !Text.isBlankText part) = true ∧
      renderAll (render env d) parts = renderAll (render env d) operands := by
  induction h with
  | nil => exact ⟨rfl, rfl⟩
  | cons head tail ih =>
    rw [List.forall_mem_cons] at each
    obtain ⟨filled, shown⟩ := ih each.2
    rw [List.all_cons, filled, head.filled each.1, renderAll, renderAll, head.render_eq each.1,
      shown]
    exact ⟨rfl, rfl⟩

end

/-- A sum is shown as its operands are, one after the other, if the first is a text or nothing and
none a fault. -/
theorem render_sum (env : Environment) (d : Dialect) {first : Text} {others : List Text}
    (several : others ≠ []) (each : ∀ s ∈ first :: others, Summand s)
    (text : (∃ t, evaluate env d first = .ok (.value (.str t))) ∨
      evaluate env d first = .ok .unresolved)
    (faultless : ∀ s ∈ first :: others, evaluate env d s ≠ .ok .fault) :
    render env d (sumText (first :: others)) = renderAll (render env d) (first :: others) := by
  have agrees :
      Agrees (evaluate env d (sumText (first :: others)))
      (renderAll (render env d) (first :: others)) := by
    obtain ⟨front, last, whole⟩ :=
      (List.eq_nil_or_concat (first :: others)).resolve_left (List.cons_ne_nil _ _)
    rw [List.concat_eq_append] at whole
    rw [whole] at each faultless ⊢
    refine agrees_sumText each nofun (fun s hs => ?_) faultless
    rw [← whole] at hs
    exact Option.some.inj hs ▸ text
  rcases agrees with unresolved | ⟨t, value, shown⟩ | ⟨o, error, shown⟩
  · have parts := padded_splitTop (a := []) rfl each
    rw [List.nil_append] at parts
    obtain ⟨filled, shown⟩ := Padded.renderAll_eq parts each
    have length : 1 < (Nesting.splitTop '+' (sumText (first :: others))).length := by
      rw [parts.length_eq, List.length_cons]
      exact Nat.succ_lt_succ (List.length_pos_iff.2 several)
    have loose : looseOperands? (sumText (first :: others)) =
      some (Nesting.splitTop '+' (sumText (first :: others))) :=
      if_pos ⟨length, filled⟩
    rw [render_eq, unresolved, ← shown]
    simp only [bind, Except.bind, loose]
  · rw [render_of_value value, shown]
    rfl
  · rw [render_of_error error, shown]

/-- The call has no value, so neither has the sum, and it is shown loosely. -/
theorem render_sum_of_call :
    let env := Environment.empty.assign ['n'] (.int 2)
    let operands := ["\"a\"".toList, "draw(1)".toList, "n".toList]
    (∀ s ∈ operands, Summand s) ∧ evaluate env .java "\"a\"".toList = .ok (.value (.str ['a'])) ∧
      (∀ s ∈ operands, evaluate env .java s ≠ .ok .fault) ∧
        render env .java "\"a\" + draw(1) + n".toList = renderAll (render env .java) operands := by
  intro env operands
  have each : ∀ s ∈ operands, Summand s := by decide
  have text : evaluate env .java "\"a\"".toList = .ok (.value (.str ['a'])) :=
    Term.evaluate_quoted env .java ⟨true, true⟩ ['a']
  have faultless : ∀ s ∈ operands, evaluate env .java s ≠ .ok .fault := by
    have absent : ∀ s ∈ operands, '/' ∉ s := by decide
    exact fun s hs fault => absent s hs (evaluate_fault fault)
  exact ⟨each, text, faultless,
    render_sum env .java (List.cons_ne_nil _ _) each (.inl ⟨_, text⟩) faultless⟩

end SourcePreview
