import Mathlib.Data.List.Infix
import SourcePreview.Proofs.Expression.Application
import SourcePreview.Proofs.Expression.Candidate
import SourcePreview.Proofs.Expression.Delimiter
import SourcePreview.Proofs.Expression.Operation

/-! A text with an operator at the top level. Neither one pair of parentheses nor one pair of quotes
stands around it and it is no call, for the operator would stand inside; so it comes to what its cut
comes to, or to nothing if it has none (`evaluate_operator`). -/

namespace SourcePreview

namespace Text

variable {a r front inner s : Text} {c o d : Char}

/-- What stands before a character that is none of the characters before an opening one goes on with
a beginning of what is inside. -/
theorem exists_inside (absent : c ∉ front) (other : c ≠ o)
    (h : a ++ c :: r = front ++ o :: (inner ++ [d])) :
    ∃ m, m <+: inner ∧ a = front ++ o :: m := by
  rcases List.append_eq_append_iff.1 h with ⟨m, rfl, hm⟩ | ⟨m, rfl, hm⟩
  · cases m with
    | nil => exact absurd (List.cons.inj hm).1 other
    | cons e m =>
      obtain ⟨rfl, -⟩ := List.cons.inj hm
      exact absurd (by simp) absent
  · cases m with
    | nil => exact absurd (List.cons.inj hm).1.symm other
    | cons e m =>
      obtain ⟨rfl, tail⟩ := List.cons.inj hm
      have beginning : m <+: inner ++ [d] := ⟨c :: r, tail.symm⟩
      refine ⟨m, (List.prefix_concat_iff.1 beginning).resolve_left ?_, rfl⟩
      rintro rfl
      simp at tail

theorem trim_append_cons (filled : isBlank c = false) (a r : Text) :
    trim (a ++ c :: r) = trimStart a ++ c :: trimEnd r := by
  have dropped : ∀ a r : Text, trimStart (a ++ c :: r) = trimStart a ++ c :: r := by
    intro a r
    rw [trimStart, List.dropWhile_append, List.dropWhile_cons_of_neg (by simp [filled])]
    split
    · next empty => rw [trimStart, List.isEmpty_iff.1 empty]; rfl
    · rfl
  have back : trimEnd (trimStart a ++ c :: r) = trimStart a ++ c :: trimEnd r := by
    have mirrored := dropped r.reverse (trimStart a).reverse
    unfold trimStart at mirrored
    simp [trimEnd, mirrored, trimStart]
  rw [trim, dropped, back]

end Text

namespace Nesting

variable {a r inner m front : Text} {c : Char}

theorem Closed.after_open_ne (closed : Closed inner) (beginning : m <+: inner)
    (plain : front.all isPlain = true) :
    start.after (front ++ '(' :: m) ≠ start := by
  obtain ⟨rest, rfl⟩ := beginning
  obtain ⟨after, above⟩ := closed.walk 1
  rw [after_append, after_plain rfl plain]
  show (level 1).after m ≠ start
  intro back
  cases rest with
  | nil =>
    rw [List.append_nil, back] at after
    cases after
  | cons d rest =>
    have inside := above ((level 1).after m, d) (by simp [path_append, path])
    rw [back] at inside
    rcases inside with quoted | ⟨deep, -⟩ <;> cases ‹_›

theorem Closed.enclosed?_append_cons (closed : Closed a) (plain : isPlain c = true) (r : Text) :
    enclosed? (a ++ c :: r) = none := by
  rw [Option.eq_none_iff_forall_ne_some]
  intro inner h
  obtain ⟨close, -, whole, inside⟩ := closed_of_enclosed? h
  have other : c ≠ '(' := by
    rintro rfl
    cases plain
  obtain ⟨m, beginning, rfl⟩ :=
    @Text.exists_inside a r [] inner c '(' close List.not_mem_nil other whole
  exact @Closed.after_open_ne inner m [] inside beginning rfl closed.after

end Nesting

namespace Quoted

open Nesting (Closed isPlain isQuote start)

variable {a r body m letters : Text} {c q : Char}

/-- Three equal quotes stand nowhere in a text side by side. -/
def Untripled (s : Text) : Prop := ∀ q, isQuote q = true → ¬ [q, q, q] <:+: s

instance (s : Text) : Decidable (Untripled s) :=
  decidable_of_iff (¬ ['"', '"', '"'] <:+: s ∧
    ¬ ['\'', '\'', '\''] <:+: s) (by simp [Untripled, isQuote])

theorem Untripled.mono {s t : Text} (h : Untripled t) (hs : s <:+: t) : Untripled s :=
  fun q quote hq => h q quote (hq.trans hs)

theorem quote_after (quote : isQuote q = true) (closes : closes q body = true)
    (beginning : m <+: body) :
    ((Nesting.mk 0 (some q) false).after m).quote = some q := by
  have mark : q ≠ '\\' := isQuote_ne_backslash quote
  induction body using Text.induction_on_pairs generalizing m with
  | nil =>
    rw [List.prefix_nil.1 beginning]
    rfl
  | last => cases closes
  | pair c body ih =>
    match m with
    | [] => rfl
    | [e] =>
      obtain rfl := (List.cons_prefix_cons.1 beginning).1
      rfl
    | e :: e' :: m =>
      obtain ⟨rfl, tail⟩ := List.cons_prefix_cons.1 beginning
      show ((Nesting.mk 0 (some q) false).after m).quote = some q
      exact ih closes (List.cons_prefix_cons.1 tail).2
  | cons c body backslash ih =>
    match m with
    | [] => rfl
    | e :: m =>
      obtain ⟨rfl, tail⟩ := List.cons_prefix_cons.1 beginning
      rw [closes_cons backslash, Bool.and_eq_true, bne_iff_ne] at closes
      have same : (Nesting.mk 0 (some q) false).step e = ⟨0, some q, false⟩ := by
        simp [Nesting.step, backslash, closes.1]
      rw [Nesting.after_cons, same]
      exact ih closes.2 tail

theorem ofText?_append_cons (closed : Closed a) (plain : isPlain c = true)
    (letter : isPrefixLetter c = false) (untripled : Untripled (a ++ c :: r)) :
    ofText? (a ++ c :: r) = none := by
  rw [ofText?, Option.bind_eq_none_iff]
  rintro ⟨letters, q, rest⟩ cut
  obtain ⟨whole, quote, unquoted⟩ := Text.eq_of_cutAtFirst cut
  dsimp only
  split
  · next allowed =>
    rw [Option.map_eq_none_iff, Option.eq_none_iff_forall_ne_some]
    intro body h
    have single : Text.startsWith [q, q, q] (q :: rest) = false := by
      rw [Bool.eq_false_iff]
      intro starts
      obtain ⟨rest', tripled⟩ := Option.isSome_iff_exists.1 starts
      refine untripled q quote ?_
      rw [whole, Text.after?_eq_some_iff.1 tripled]
      exact List.infix_append' letters [q, q, q] rest'
    rw [body?, if_neg (by simp [single])] at h
    obtain ⟨between, closes⟩ := Option.filter_eq_some_iff.1 h
    obtain rfl : rest = body ++ [q] := (List.cons.inj (between?_eq_some_iff.1 between)).2
    have absent : c ∉ letters := by
      intro mem
      have := List.all_eq_true.1 allowed.2 c mem
      rw [letter] at this
      cases this
    have other : c ≠ q := by
      rintro rfl
      rw [Nesting.isQuote_of_isPlain plain] at quote
      cases quote
    obtain ⟨m, beginning, rfl⟩ := Text.exists_inside absent other whole
    have letters_plain : letters.all isPlain = true := List.all_eq_true.2 fun d hd =>
      have key : "fFrRbBuU".toList.all isPlain = true := by decide
      List.all_eq_true.1 key d (List.contains_iff_mem.1 (List.all_eq_true.1 allowed.2 d hd))
    have opened : start.step q = ⟨0, some q, false⟩ := by simp [Nesting.step, start, quote]
    have inside := quote_after quote closes beginning
    have back := closed.after
    rw [Nesting.after_append, Nesting.after_plain rfl letters_plain, Nesting.after_cons, opened]
      at back
    rw [back] at inside
    cases inside
  · rfl

end Quoted

theorem Call.ofText?_append_cons {a r s : Text} {op : Operator} (closed : Nesting.Closed a)
    (trimmed : Text.trim s = a ++ op.symbol :: r) : ofText? (a ++ op.symbol :: r) = none := by
  rw [Option.eq_none_iff_forall_ne_some]
  intro call h
  rw [← trimmed] at h
  obtain ⟨path, gap, close, blanks, -, inside, whole⟩ := (ofText?_trim s).1 h
  rw [trimmed] at whole
  have mark : op.symbol ∈ marks ∧ op.symbol ≠ '.' ∧ Text.isBlank op.symbol = false ∧
      op.symbol ≠ '(' := by cases op <;> decide
  have absent : op.symbol ∉ call.function ++ gap := by
    rw [List.mem_append, not_or]
    refine ⟨not_mem_of_isPath path mark.1 mark.2.1, fun mem => ?_⟩
    rw [List.all_eq_true.1 blanks _ mem] at mark
    cases mark.2.2.1
  have plain : (call.function ++ gap).all Nesting.isPlain = true := by
    rw [List.all_append, Bool.and_eq_true]
    exact ⟨List.all_eq_true.2 fun c hc => (isPlain_of_isPath path c hc).1, plain_of_blanks blanks⟩
  obtain ⟨m, beginning, rfl⟩ := Text.exists_inside absent mark.2.2.2 whole
  exact inside.after_open_ne beginning plain closed.after

section

variable (env : Environment) (d : Dialect) {a r : Text} {op : Operator} (closed : Nesting.Closed a)
  (unsigned : Nesting.Undivided '-' a) (other : op ≠ .sub)
  (untripled : Quoted.Untripled (a ++ op.symbol :: r))
  (unread : numberLiteral? (Text.trim (a ++ op.symbol :: r)) = none)
include closed unsigned other untripled unread

theorem form_operator : Form.ofText (a ++ op.symbol :: r) =
    match Cut.ofText? (Text.trim (a ++ op.symbol :: r)) with
    | some cut => .binary cut
    | none => .unknown := by
  have filled : Text.isBlank op.symbol = false := by cases op <;> rfl
  have plain : Nesting.isPlain op.symbol = true ∧ Quoted.isPrefixLetter op.symbol = false := by
    cases op <;> decide
  have trimmed := Text.trim_append_cons filled a r
  have inside : Text.trimStart a ++ op.symbol :: Text.trimEnd r <:+: a ++ op.symbol :: r :=
    trimmed ▸ Text.trim_isInfix _
  have front : Nesting.Closed (Text.trimStart a) ∧ (Text.trimStart a).head? ≠ some '-' := by
    have whole : a = a.takeWhile Text.isBlank ++ Text.trimStart a :=
      List.takeWhile_append_dropWhile.symm
    have blanks : (a.takeWhile Text.isBlank).all Nesting.isPlain = true :=
      plain_of_blanks List.all_takeWhile
    refine ⟨.of_plain_append blanks (whole ▸ closed), fun head => ?_⟩
    obtain ⟨rest, minus⟩ := List.head?_eq_some_iff.1 head
    rw [whole, minus] at unsigned
    refine unsigned (Nesting.start, '-') ?_ rfl rfl
    rw [Nesting.path_append, (Nesting.Closed.of_plain blanks).after]
    exact List.mem_append_right _ List.mem_cons_self
  have uncalled := Call.ofText?_append_cons front.1 trimmed
  rw [trimmed] at unread
  rw [Form.ofText, trimmed]
  have bare : Bare (Text.trimStart a ++ op.symbol :: Text.trimEnd r) :=
    ⟨by simp, front.1.enclosed?_append_cons plain.1 _,
      Quoted.ofText?_append_cons front.1 plain.1 plain.2 (untripled.mono inside)⟩
  have unnamed : Text.isIdentifier (Text.trimStart a ++ op.symbol :: Text.trimEnd r) = false := by
    rw [Bool.eq_false_iff]
    exact fun named =>
      (atom_of_isIdentifier named).not_mem (c := op.symbol) (by cases op <;> decide) (by simp)
  have unsigned : (Text.trimStart a ++ op.symbol :: Text.trimEnd r).head? ≠ some '-' := by
    cases hs : Text.trimStart a with
    | nil => cases op <;> simp_all [Operator.symbol]
    | cons c s =>
      have head := front.2
      rw [hs] at head
      exact head
  cases cut : Cut.ofText? (Text.trimStart a ++ op.symbol :: Text.trimEnd r) with
  | some cut => exact bare.form_of_cut unread unnamed ‹_›
  | none => exact bare.form_unknown unread unnamed cut unsigned uncalled

/-- A text with an operator behind a closed text comes to what the sides of its cut do, or to
nothing. -/
theorem evaluate_operator : evaluate env d (a ++ op.symbol :: r) =
    match Cut.ofText? (a ++ op.symbol :: r) with
    | some cut => Evaluation.operation d cut.op (evaluate env d cut.left) (evaluate env d cut.right)
    | none => .ok .unresolved := by
  obtain ⟨ahead, behind, first, last, whole⟩ := Text.exists_trim (a ++ op.symbol :: r)
  have blanks := Cut.ofText?_blanks first last (Text.trim (a ++ op.symbol :: r))
  rw [← List.append_assoc, ← whole] at blanks
  rw [evaluate_eq, form_operator closed unsigned other untripled unread, blanks]
  cases Cut.ofText? (Text.trim (a ++ op.symbol :: r)) with
  | none => rfl
  | some cut =>
    have left : evaluate env d (ahead ++ cut.left) = evaluate env d cut.left :=
      evaluate_congr_trim env d (Text.trim_blanks_append first _)
    have right : evaluate env d (cut.right ++ behind) = evaluate env d cut.right :=
      evaluate_congr_trim env d (Text.trim_append_blanks last _)
    simp only [Option.map_some, left, right]
    rfl

end

end SourcePreview
