import SourcePreview.Proofs.Expression.Application
import SourcePreview.Proofs.Expression.Part

/-! The length of a literal sequence in square brackets. A text that begins with a bracket has no
value of its own (`evaluate_bracket`), so its length is an integer only if it is one argument that
ends in a bracket: the number of items between the two (`evaluate_length_bracketed`). Whether these
are a pair is not looked at (`evaluate_length_of_two_lists`). -/

namespace SourcePreview

namespace Nesting

variable {sep : Char} {n : Nesting} {s x : Text}

theorem undivided_of_cutTop (h : (cutTop sep n s).2 = []) :
    ∀ p ∈ n.path s, p.1.isTop p.2 = true → p.2 ≠ sep := by
  induction s generalizing n with
  | nil => nofun
  | cons c s ih =>
    rw [cutTop] at h
    dsimp only at h
    split at h
    · cases h
    · next other =>
      rw [path, List.forall_mem_cons]
      exact ⟨fun top same => other (Bool.and_eq_true_iff.2 ⟨top, beq_iff_eq.2 same⟩), ih h⟩

/-- A comma at the top level stands between the blanks at the ends. -/
theorem Undivided.of_trim (closed : Closed (Text.trim s)) (h : Undivided ',' (Text.trim s)) :
    Undivided ',' s := by
  obtain ⟨a, b, ha, hb, he⟩ := Text.exists_trim s
  have blanks : ∀ {t : Text}, t.all Text.isBlank = true → Closed t ∧ Undivided ',' t := fun blank =>
    ⟨.of_plain (plain_of_blanks blank),
      .of_not_mem fun mem => by cases List.all_eq_true.1 blank _ mem⟩
  rw [he]
  exact .append ((blanks ha).1.append closed) (.append (blanks ha).1 (blanks ha).2 h) (blanks hb).2

theorem undivided_of_splitTop (h : splitTop sep s = [x]) : Undivided sep s :=
  undivided_of_cutTop (List.cons.inj h).2

end Nesting

theorem Cut.head?_left {c : Char} {r : Text} {cut : Cut} (h : ofText? (c :: r) = some cut)
    (other : Operator.ofChar? c = none) :
    ∃ left, cut.left = c :: left := by
  have whole := eq_of_ofText? h
  cases hl : cut.left with
  | nil =>
    rw [hl, List.nil_append] at whole
    rw [(List.cons.inj whole).1, Operator.ofChar?_symbol] at other
    cases other
  | cons e left =>
    rw [hl] at whole
    exact ⟨left, by rw [(List.cons.inj whole).1]⟩

theorem form_bracket (r : Text) :
    (∃ left op right, Form.ofText ('[' :: r) = .binary ⟨'[' :: left, op, right⟩) ∨
    Form.ofText ('[' :: r) = .unknown := by
  obtain ⟨t, ht⟩ : ∃ t, Text.trim ('[' :: r) = '[' :: t :=
    List.head?_eq_some_iff.1 (Text.head?_trim rfl r)
  have bare : Bare ('[' :: t) :=
    ⟨List.cons_ne_nil _ _, Nesting.enclosed?_of_head?_ne (by simp),
      Quoted.ofText?_eq_none (a := []) (List.forall_mem_singleton.2 rfl) rfl⟩
  have unread : numberLiteral? ('[' :: t) = none := numberLiteral?_of_startsNumber_eq_false rfl
  have unnamed : Text.isIdentifier ('[' :: t) = false := rfl
  rw [Form.ofText, ht]
  cases hc : Cut.ofText? ('[' :: t) with
  | some cut =>
    obtain ⟨left, hl⟩ := Cut.head?_left hc rfl
    exact .inl ⟨left, cut.op, cut.right, by rw [bare.form_of_cut unread unnamed hc, ← hl]⟩
  | none =>
    have uncalled : Call.ofText? ('[' :: t) = none :=
      Call.ofText?_eq_none (a := []) (by decide) (by decide) (by decide) rfl
    exact .inr (bare.form_unknown unread unnamed hc (by simp) uncalled)

variable (env : Environment) (d : Dialect)

theorem evaluate_bracket (r : Text) : evaluate env d ('[' :: r) = .ok .unresolved := by
  -- on the length: the left operand of an operation begins with the bracket, too
  induction hl : r.length using Nat.strongRecOn generalizing r with
  | ind l ih =>
    rw [evaluate_eq]
    rcases form_bracket r with ⟨left, op, right, form⟩ | form
    · have shorter : left.length < l := by
        have :=
          Form.length_lt_of_mem_parts (s := '[' :: r) (x := '[' :: left)
            (by rw [form]; exact List.mem_cons_self)
        simp only [List.length_cons] at this
        omega
      rw [form, Form.evaluate, ih left.length shorter left rfl]
      rfl
    · rw [form]
      rfl

namespace Call

/-- How many items the parts between commas are: a blank one at the end is none. -/
def countItems (parts : List Text) : Nat :=
  if parts.getLast?.any Text.isBlankText then parts.length - 1 else parts.length

theorem sequenceInside?_bracket {r inside : Text} :
    sequenceInside? ('[' :: r) = some inside ↔ Text.trim ('[' :: r) = '[' :: (inside ++ [']']) := by
  obtain ⟨t, ht⟩ : ∃ t, Text.trim ('[' :: r) = '[' :: t :=
    List.head?_eq_some_iff.1 (Text.head?_trim rfl r)
  rw [sequenceInside?, ht, List.cons.injEq, and_iff_right rfl]
  exact Text.dropLastIf_eq_some_iff

theorem length_of_sequenceInside? {s inside : Text} (h : sequenceInside? s = some inside) :
    ∃ items, sequence? s = some items ∧
      items.length = countItems (Nesting.splitTop ',' inside) := by
  refine ⟨_, by rw [sequence?, h, Option.map_some], ?_⟩
  cases blank : Text.isBlankText inside with
  | true =>
    have single : Nesting.splitTop ',' inside = [inside] :=
      Nesting.splitTop_of_undivided (.of_plain (plain_of_blanks blank))
        (.of_not_mem fun mem => by cases List.all_eq_true.1 blank _ mem)
    rw [if_pos rfl, single, countItems, List.getLast?_singleton, Option.any_some, blank, if_pos rfl]
    rfl
  | false =>
    rw [if_neg Bool.false_ne_true, countItems]
    dsimp only
    split
    · next last hl =>
      rw [hl, Option.any_some]
      split
      · exact List.length_dropLast
      · rfl
    · next hl =>
      rw [hl, Option.any_none, if_neg Bool.false_ne_true]

theorem apply_length (s : Text) :
    apply "len".toList [s] = (sequence? s).elim (.textLength s) fun items =>
        .itemCount items.length := by
  have none : aggregate? "len".toList = none := rfl
  unfold apply
  rw [none]
  dsimp only
  rw [if_pos rfl]
  cases sequence? s <;> rfl

theorem apply_length_several (x y : Text) (others : List Text) :
    apply "len".toList (x :: y :: others) = .unknown := by
  cases others <;> rfl

section

variable {r : Text} (closed : Nesting.Closed ('[' :: r))
include closed

theorem form_length : Form.ofText (⟨"len".toList, '[' :: r⟩ : Call).written =
    .application (apply "len".toList (Nesting.splitTop ',' ('[' :: r))) :=
  form_written (show isPath "len".toList = true by decide +kernel) closed

theorem evaluate_length_of_bracketed (undivided : Nesting.Undivided ',' ('[' :: r)) {inside : Text}
    (ends : Text.trim ('[' :: r) = '[' :: (inside ++ [']'])) :
    evaluate env d (⟨"len".toList, '[' :: r⟩ : Call).written =
      .ok (.value (.int (Int64.ofNat (countItems (Nesting.splitTop ',' inside))))) := by
  obtain ⟨items, listed, count⟩ := length_of_sequenceInside? (sequenceInside?_bracket.2 ends)
  rw [evaluate_eq, form_length closed, Nesting.splitTop_of_undivided closed undivided, apply_length,
    listed, Option.elim_some, count]
  rfl

theorem evaluate_length_of_unbracketed
    (other : ¬ (Nesting.Undivided ',' ('[' :: r) ∧ ∃ inside,
      Text.trim ('[' :: r) = '[' :: (inside ++ [']']))) :
    evaluate env d (⟨"len".toList, '[' :: r⟩ : Call).written = .ok .unresolved := by
  rw [evaluate_eq, form_length closed]
  rcases hs : Nesting.splitTop ',' ('[' :: r) with _ | ⟨x, _ | ⟨y, others⟩⟩
  · cases hs
  · have undivided := Nesting.undivided_of_splitTop hs
    obtain rfl : '[' :: r = x :=
      List.singleton_inj.1 ((Nesting.splitTop_of_undivided closed undivided).symm.trans hs)
    have unlisted : sequence? ('[' :: r) = none := by
      rw [sequence?, Option.map_eq_none_iff, Option.eq_none_iff_forall_ne_some]
      exact fun inside h => other ⟨undivided, inside, sequenceInside?_bracket.1 h⟩
    rw [apply_length, unlisted, Option.elim_none, Form.evaluate, Application.evaluate,
      evaluate_bracket]
    rfl
  · rw [apply_length_several]
    rfl

end

end Call

/-- The length of a text that begins with a square bracket is an integer exactly if the text is one
argument and ends in a square bracket: the number of parts between the commas of what is between the
two, where a blank part at the end is none. If they are a pair, the parts are its items. Every other
length is unresolved. -/
theorem evaluate_length_bracketed {r : Text} (closed : Nesting.Closed ('[' :: r)) :
    (∀ k, evaluate env d (⟨"len".toList, '[' :: r⟩ : Call).written = .ok (.value (.int k)) ↔
      Nesting.Undivided ',' ('[' :: r) ∧ ∃ inside, Text.trim ('[' :: r) = '[' :: (inside ++ [']']) ∧
        k = Int64.ofNat (Call.countItems (Nesting.splitTop ',' inside))) ∧
    (∀ first others, (∀ x ∈ first :: others, Nesting.Closed x ∧ Nesting.Undivided ',' x) →
      Text.trim ('[' :: r) = Call.listing (first :: others) →
      evaluate env d (⟨"len".toList, '[' :: r⟩ : Call).written =
        .ok (.value (.int (Int64.ofNat (Call.countItems (first :: others)))))) ∧
    ((∀ k, evaluate env d (⟨"len".toList, '[' :: r⟩ : Call).written ≠ .ok (.value (.int k))) →
      evaluate env d (⟨"len".toList, '[' :: r⟩ : Call).written = .ok .unresolved) := by
  by_cases bracketed : Nesting.Undivided ',' ('[' :: r) ∧ ∃ inside,
    Text.trim ('[' :: r) = '[' :: (inside ++ [']'])
  · obtain ⟨undivided, inside, ends⟩ := bracketed
    have value := Call.evaluate_length_of_bracketed env d closed undivided ends
    refine ⟨fun k => ?_, fun first others parts listed => ?_, fun none => absurd value (none _)⟩
    · rw [value]
      refine ⟨?_, ?_⟩
      · rintro ⟨⟩
        exact ⟨undivided, inside, ends, rfl⟩
      · rintro ⟨-, inside', ends', rfl⟩
        obtain rfl : inside = inside' :=
          List.append_cancel_right (List.cons.inj (ends.symm.trans ends')).2
        rfl
    · rw [value]
      obtain rfl : inside = Text.join [','] (first :: others) :=
        List.append_cancel_right (List.cons.inj (ends.symm.trans listed)).2
      rw [Nesting.splitTop_intercalate rfl (fun x hx => (parts x hx).1) fun x hx => (parts x hx).2]
  · have value := Call.evaluate_length_of_unbracketed env d closed bracketed
    refine ⟨fun k => ?_, fun first others parts listed => ?_, fun _ => value⟩
    · rw [value]
      refine ⟨nofun, fun ⟨undivided, inside, ends, _⟩ => absurd ⟨undivided, inside, ends⟩ bracketed⟩
    · have argument := Call.argument_listing fun x hx => (parts x hx).1
      rw [← listed] at argument
      exact absurd ⟨.of_trim argument.closed argument.undivided, _, listed⟩ bracketed

/-- A list with a call, a quoted bracket and a comma behind its last item has two items. -/
theorem evaluate_length_of_pair :
    let r := "max(1, 2), \"]\", ] ".toList
    Nesting.Closed ('[' :: r) ∧
      evaluate .empty .python "len([max(1, 2), \"]\", ] )".toList = .ok (.value (.int 2)) := by
  intro r
  have closed : Nesting.Closed ('[' :: r) := by decide +kernel
  have parts : ∀ x ∈ ["max(1, 2)".toList, " \"]\"".toList, " ".toList], Nesting.Closed x ∧
      Nesting.Undivided ',' x := by
    decide +kernel
  exact ⟨closed,
    (evaluate_length_bracketed .empty .python closed).2.1 _ _ parts (by decide +kernel)⟩

/-- The sum of two lists has the length of the text between the first bracket and the last, which
are no pair. -/
theorem evaluate_length_of_two_lists :
    Nesting.Closed "[1] + [2]".toList ∧ ¬ Nesting.Closed "1] + [2".toList ∧
      ∀ env d, evaluate env d "len([1] + [2])".toList = .ok (.value (.int 1)) := by
  have closed : Nesting.Closed "[1] + [2]".toList := by decide +kernel
  have ends : Text.trim "[1] + [2]".toList = '[' :: ("1] + [2".toList ++ [']']) := by decide +kernel
  exact ⟨closed, by decide +kernel,
    fun env d => Call.evaluate_length_of_bracketed env d closed (by decide +kernel) ends⟩

end SourcePreview
